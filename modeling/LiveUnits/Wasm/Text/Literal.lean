import LiveUnits.Text.Scan

/-!
# Literals

The numbers of the text form: whole numbers and floating point numbers, in base ten or sixteen, with
or without a sign, and with single underscores between digits.  A floating point number is kept as it
is written; `FloatLiteral.fits` says whether a format has a finite value for it.
-/

namespace LiveUnits.Wasm

/-- A whole number as it is written. -/
structure IntegerLiteral where
  /-- Whether a sign stands in front. -/
  signed : Bool
  /-- Whether the sign is a minus. -/
  negative : Bool
  /-- The number without its sign. -/
  magnitude : Nat
  deriving DecidableEq, Repr

/-- The number without a sign that is written below a bound.  A plus counts for nothing. -/
def IntegerLiteral.below? (i : IntegerLiteral) (bound : Nat) : Option Nat :=
  if i.negative || bound ≤ i.magnitude then none else some i.magnitude

/-- Whether a number of `width` bits is written, with a sign or without. -/
def IntegerLiteral.fits (i : IntegerLiteral) (width : Nat) : Bool :=
  if i.negative then i.magnitude ≤ Nat.pow 2 (width - 1) else i.magnitude < Nat.pow 2 width

/-- A floating point number as it is written, without its sign. -/
inductive FloatLiteral where
  /-- No bound. -/
  | infinite
  /-- No number, with or without a payload. -/
  | notNumber (payload : Option Nat)
  /-- Digits in base ten, of which some stand behind the point, and a power of ten. -/
  | decimal (digits places : Nat) (exponent : Int)
  /-- Digits in base sixteen, of which some stand behind the point, and a power of two. -/
  | hexadecimal (digits places : Nat) (exponent : Int)
  deriving DecidableEq, Repr

/-- A format of floating point numbers. -/
structure FloatFormat where
  /-- The number of bits behind the leading one. -/
  fraction : Nat
  greatest : Nat

/-- The format of 32 bits. -/
def FloatFormat.single : FloatFormat := ⟨23, 127⟩

/-- The format of 64 bits. -/
def FloatFormat.double : FloatFormat := ⟨52, 1023⟩

/-- The least number that is rounded beyond the greatest one: half a unit above it. -/
def FloatFormat.overflow (f : FloatFormat) : Nat :=
  (Nat.pow 2 (f.fraction + 2) - 1) * Nat.pow 2 (f.greatest - f.fraction - 1)

/-- Whether `digits * base ^ exponent` is rounded beyond the greatest number.  `size` is the number
of digits in that base, so a glance decides all but the exponents in between. -/
def FloatFormat.overflows (f : FloatFormat) (base digits size : Nat) (exponent : Int) : Bool :=
  if digits = 0 ∨ exponent + size < 0 then false
  else if 2 * f.greatest < exponent + size then true
  else if 0 ≤ exponent then f.overflow ≤ digits * Nat.pow base exponent.toNat
  else f.overflow * Nat.pow base (-exponent).toNat ≤ digits

/-- Whether a number is one that 32 bits with a sign hold. -/
def isWord (n : Int) : Bool := -Int.pow 2 31 ≤ n && n < Int.pow 2 31

/-- Whether a format has a value for a literal: a payload that is not zero in its bits, or a number
that is not rounded to infinity.  In base sixteen the exponent has to be one of 32 bits, unless the
number is zero. -/
def FloatLiteral.fits (f : FloatFormat) : FloatLiteral → Bool
  | infinite => true
  | notNumber none => true
  | notNumber (some payload) => payload < Nat.pow 2 64 && payload % Nat.pow 2 f.fraction ≠ 0
  | decimal digits places exponent =>
    !f.overflows 10 digits (Nat.toDigits 10 digits).length (exponent - places)
  | hexadecimal digits places exponent =>
    digits = 0 ||
      isWord exponent && isWord (exponent + digits.log2 - 4 * places) &&
        !f.overflows 2 digits (digits.log2 + 1) (exponent - 4 * places)

/-- A number as it is written. -/
inductive Literal where
  /-- A whole number. -/
  | integer (i : IntegerLiteral)
  /-- A floating point number. -/
  | float (f : FloatLiteral)
  deriving DecidableEq, Repr

namespace Literal

open Scan

/-- The value of a digit in base ten. -/
def decimalDigit? (c : Char) : Option Nat :=
  if '0' ≤ c && c ≤ '9' then some (c.toNat - '0'.toNat) else none

/-- The value of a digit in base sixteen. -/
def hexDigit? (c : Char) : Option Nat :=
  if '0' ≤ c && c ≤ '9' then some (c.toNat - '0'.toNat)
  else if 'a' ≤ c && c ≤ 'f' then some (c.toNat - 'a'.toNat + 10)
  else if 'A' ≤ c && c ≤ 'F' then some (c.toNat - 'A'.toNat + 10)
  else none

/-- How numbers are written in a base. -/
structure Base where
  /-- The base. -/
  size : Nat
  digit? : Char → Option Nat
  /-- The letter in front of an exponent. -/
  mark : Char
  /-- A floating point number. -/
  float : Nat → Nat → Int → FloatLiteral

def Base.ten : Base := ⟨10, decimalDigit?, 'e', .decimal⟩

def Base.sixteen : Base := ⟨16, hexDigit?, 'p', .hexadecimal⟩

/-- The digits that follow `count` others of the given value. -/
def moreDigits (b : Base) (value count : Nat) : List Char → Option ((Nat × Nat) × List Char)
  | [] => some ((value, count), [])
  | '_' :: c :: rest =>
    match b.digit? c with
    | some d => moreDigits b (b.size * value + d) (count + 1) rest
    | none => none
  | c :: rest =>
    match b.digit? c with
    | some d => moreDigits b (b.size * value + d) (count + 1) rest
    | none => some ((value, count), c :: rest)

/-- Digits, with single underscores between them: their value and their number. -/
def digits (b : Base) : Scan (Nat × Nat) := fun cs =>
  match cs with
  | c :: rest => (b.digit? c).bind fun d => moreDigits b d 1 rest
  | [] => none

/-- An exponent after its letter. -/
def exponent (b : Base) : Scan Int := do
  let _ ← satisfy fun c => c.toLower == b.mark
  let sign ← optional? (satisfy fun c => c == '+' || c == '-')
  let (n, _) ← digits Base.ten
  pure (if sign = some '-' then -(n : Int) else n)

/-- A number without its sign. -/
def unsigned (b : Base) (signed negative : Bool) : Scan Literal := do
  let (whole, _) ← digits b
  let point ← optional? (char '.')
  let (part, places) ← if point.isSome then digits b <|> pure (0, 0) else pure (0, 0)
  match point, ← optional? (exponent b) with
  | none, none => pure (.integer ⟨signed, negative, whole⟩)
  | _, e => pure (.float (b.float (whole * Nat.pow b.size places + part) places (e.getD 0)))

/-- What a word after its sign stands for. -/
def ofUnsigned? (signed negative : Bool) : List Char → Option Literal
  | ['i', 'n', 'f'] => some (.float .infinite)
  | ['n', 'a', 'n'] => some (.float (.notNumber none))
  | 'n' :: 'a' :: 'n' :: ':' :: '0' :: 'x' :: rest =>
    (Scan.all? (digits .sixteen) rest).map fun (n, _) => .float (.notNumber (some n))
  | '0' :: 'x' :: rest => Scan.all? (unsigned .sixteen signed negative) rest
  | cs => Scan.all? (unsigned .ten signed negative) cs

/-- The number that a word is. -/
def ofWord? : List Char → Option Literal
  | '+' :: rest => ofUnsigned? true false rest
  | '-' :: rest => ofUnsigned? true true rest
  | cs => ofUnsigned? false false cs

/-- The whole number that a word is. -/
def integerOfWord? (word : List Char) : Option IntegerLiteral :=
  match ofWord? word with
  | some (.integer i) => some i
  | _ => none

end Literal

end LiveUnits.Wasm
