import LiveUnits.Text.Utf8

/-!
# The code page of old archives

Names in archives that are not marked as UTF-8 are written with one byte a character: the first half
of the code page is ASCII, the second half is given here.
-/

namespace LiveUnits.CodePage

/-- The characters of the bytes from `0x80` on. -/
def upperHalf : List Char :=
  ("ÇüéâäàåçêëèïîìÄÅÉæÆôöòûùÿÖÜ¢£¥₧ƒáíóúñÑªº¿⌐¬½¼¡«»" ++
   "░▒▓│┤╡╢╖╕╣║╗╝╜╛┐└┴┬├─┼╞╟╚╔╩╦╠═╬╧╨╤╥╙╘╒╓╫╪┘┌█▄▌▐▀" ++
   "αßΓπΣσµτΦΘΩδ∞φε∩≡±≥≤⌠⌡÷≈°∙·√ⁿ²■\u00A0").toList

/-- The character of a byte. -/
def char (b : UInt8) : Char :=
  if b < 0x80 then Char.ofNat b.toNat else upperHalf.getD (b.toNat - 0x80) '\uFFFD'

def text (bytes : Bytes) : String := String.ofList (bytes.map char)

end LiveUnits.CodePage
