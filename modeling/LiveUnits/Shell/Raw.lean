import LiveUnits.Text.Utf8

/-!
# Byte strings of the shell

The shell and its tools work on bytes.  Here a byte is the character with the same number, so that the
functions on lists of characters serve for them.  Classes and cases of characters are those of ASCII.
-/

namespace LiveUnits.Shell

/-- A byte string, one character for each byte. -/
abbrev Raw := List Char

/-- The characters of a text that is ASCII. -/
instance : Coe String Raw := ⟨String.toList⟩

/-- The characters of a byte string. -/
def raw (b : Bytes) : Raw := b.map fun x => Char.ofNat x.toNat

/-- The characters of the UTF-8 form of a text. -/
def rawText (s : String) : Raw := raw (Utf8.encode s)

/-- The bytes that characters stand for. -/
def bytes (r : Raw) : Bytes := r.map fun c => UInt8.ofNat c.toNat

/-- How much is made of what never ends. -/
def plenty : Nat := Nat.pow 2 19

/-- The text of a byte string. -/
def Raw.string (r : Raw) : String := String.ofList r

/-! ## Classes of characters -/

/-- The characters that divide words. -/
def blanks : Raw := [' ', '\t', '\n']

/-- Whether a character is white space. -/
def isSpace (c : Char) : Bool := c == ' ' || ('\t' ≤ c && c ≤ '\x0d')

/-- Whether a character can be seen. -/
def isGraphic (c : Char) : Bool := '!' ≤ c && c ≤ '~'

/-- Whether a character is a mark of punctuation. -/
def isPunctuation (c : Char) : Bool := isGraphic c && !c.isAlphanum

/-- Whether a character controls a terminal. -/
def isControl (c : Char) : Bool := c < ' ' || c == '\x7f'

/-- Whether a character is a digit in base sixteen. -/
def isHexadecimal (c : Char) : Bool := c.isDigit || ('a' ≤ c && c ≤ 'f') || ('A' ≤ c && c ≤ 'F')

/-- Whether a character is a digit in base eight. -/
def isOctal (c : Char) : Bool := '0' ≤ c && c ≤ '7'

def characterClass? (name : Raw) : Option (Char → Bool) :=
  match name.string with
  | "alpha" => some Char.isAlpha
  | "digit" => some Char.isDigit
  | "alnum" => some Char.isAlphanum
  | "upper" => some Char.isUpper
  | "lower" => some Char.isLower
  | "space" => some isSpace
  | "blank" => some fun c => c == ' ' || c == '\t'
  | "punct" => some isPunctuation
  | "print" => some fun c => c == ' ' || isGraphic c
  | "graph" => some isGraphic
  | "cntrl" => some isControl
  | "xdigit" => some isHexadecimal
  | _ => none

/-! ## Names and numbers -/

/-- Whether a character may stand in a name. -/
def isNameChar (c : Char) : Bool := c.isAlphanum || c == '_'

/-- Whether a character may begin a name. -/
def isNameStart (c : Char) : Bool := c.isAlpha || c == '_'

/-- Whether a text is a name. -/
def isName (s : Raw) : Bool :=
  match s with
  | c :: rest => isNameStart c && rest.all isNameChar
  | [] => false

/-- Whether a text is made of digits. -/
def isNumber (r : Raw) : Bool := !r.isEmpty && r.all Char.isDigit

/-- The number that digits spell. -/
def number (r : Raw) : Nat := r.foldl (fun n c => n * 10 + (c.toNat - '0'.toNat)) 0

/-- The digits of a number. -/
def digits (n : Nat) : Raw := Nat.toDigits 10 n

/-- The digits of a whole number, after its sign. -/
def signed (n : Int) : Raw := if n < 0 then '-' :: digits n.natAbs else digits n.natAbs

/-! ## Lines -/

/-- The lines of a text, each without its end. -/
def lines (r : Raw) : List Raw :=
  match r.foldr (fun c (line, others) =>
      if c == '\n' then ([], line :: others) else (c :: line, others)) (([], []) : Raw × List Raw) with
  | (line, others) =>
    let all := line :: others
    if all.getLast? == some [] then all.dropLast else all

/-- A line made of some parts. -/
def line (parts : List Raw) : Raw := parts.flatten ++ ['\n']

/-- Lines, each with its end. -/
def unlines (ls : List Raw) : Raw := ls.flatMap fun l => l ++ ['\n']

/-- Whether a text ends with the end of a line. -/
def endsLine (r : Raw) : Bool := r.getLast? == some '\n'

/-- Drops line ends at the end of a text. -/
def dropLineEnds (r : Raw) : Raw := (r.reverse.dropWhile (· == '\n')).reverse

/-- Drops what satisfies a test from both ends of a text. -/
def strip (p : Char → Bool) (r : Raw) : Raw := ((r.dropWhile p).reverse.dropWhile p).reverse

/-- Whether one text comes before another one, or is the same. -/
def notAfter (a b : Raw) : Bool := !decide (b < a)

/-- A text as the shell quotes it: apostrophes stand in quotation marks, and all else stands in
apostrophes.  The first argument bounds the number of pieces. -/
def quotedPieces : Nat → Raw → Raw
  | 0, _ => []
  | pieces + 1, r =>
    let plain := r.takeWhile (· != '\x27')
    let rest := r.drop plain.length
    let marks := rest.takeWhile (· == '\x27')
    let after := rest.drop marks.length
    '\x27' :: plain ++ '\x27' :: (if marks.isEmpty then [] else '"' :: marks ++ ['"']) ++
      (if after.isEmpty then [] else quotedPieces pieces after)

/-- A text in quotation marks, such that the shell reads it as one word. -/
def quoted (r : Raw) : Raw := quotedPieces (r.length + 1) r

end LiveUnits.Shell
