import LiveUnits.Text.Utf8
import LiveUnits.Text.Printable

/-!
# Quoted texts

The notation in which descriptions of values show texts and paths: between double quotes, with
escapes for quotes, backslashes and every character that cannot be seen.
-/

namespace LiveUnits.Quoted

/-- The digits of a number in base sixteen, in lower case. -/
def hexDigits (n : Nat) : List Char := Nat.toDigits 16 n

/-- A character inside a quoted text.  The apostrophe is escaped only on request. -/
def char (escapeApostrophe : Bool) (c : Char) : List Char :=
  if c = '\x00' then ['\\', '0']
  else if c = '\t' then ['\\', 't']
  else if c = '\r' then ['\\', 'r']
  else if c = '\n' then ['\\', 'n']
  else if c = '\\' then ['\\', '\\']
  else if c = '"' then ['\\', '"']
  else if c = '\x27' && escapeApostrophe then ['\\', '\x27']
  else if extendsGrapheme c || !isPrintable c then
    ['\\', 'u', '\x7b'] ++ hexDigits c.toNat ++ ['\x7d']
  else [c]

/-- Two digits of a byte in base sixteen, in upper case. -/
def byteDigits (b : UInt8) : List Char :=
  [Nat.digitChar (b.toNat / 16), Nat.digitChar (b.toNat % 16)].map Char.toUpper

/-- A text in quotes. -/
def text (s : String) : String :=
  String.ofList (['"'] ++ s.toList.flatMap (char false) ++ ['"'])

/-- A byte string in quotes; a byte that belongs to no character is written in base sixteen. -/
def bytes (b : Bytes) : String :=
  String.ofList (['"'] ++ (Utf8.pieces b).flatMap (fun
    | .scalar c => char true c
    | .broken bs _ => bs.flatMap fun x => ['\\', 'x'] ++ byteDigits x) ++ ['"'])

end LiveUnits.Quoted
