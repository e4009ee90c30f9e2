import LiveUnits.Shell.Raw

/-!
# Numerals of the shell

How the shell and its tools read whole numbers and numbers with a fraction at the front of a text, and
how they write them.  Whole numbers have 64 bits; a numeral that is too long stands for the greatest
or the least number.  Numbers with a fraction are the binary ones of 64 bits, written exactly and then
rounded, a half going to the even neighbour.
-/

namespace LiveUnits.Shell

/-! ## Whole numbers -/

/-- What was read at the front of a text. -/
structure Numeral where
  /-- The number. -/
  value : Int
  /-- What follows. -/
  rest : Raw
  /-- Whether there were digits. -/
  found : Bool
  deriving DecidableEq

/-- The value of a digit in some base up to sixteen. -/
def digitValue (c : Char) : Nat :=
  if c.isDigit then c.toNat - '0'.toNat else c.toLower.toNat - 'a'.toNat + 10

/-- Whether a character is a digit in a base up to sixteen. -/
def isDigitIn (base : Nat) (c : Char) : Bool := isHexadecimal c && digitValue c < base

/-- The number that digits in a base spell. -/
def numberIn (base : Nat) (r : Raw) : Nat := r.foldl (fun n c => n * base + digitValue c) 0

/-- The greatest whole number. -/
def greatest : Int := Int.pow 2 63 - 1

/-- The least whole number. -/
def least : Int := -Int.pow 2 63

/-- The whole number of 64 bits that a sum or a product leaves. -/
def wrap (n : Int) : Int := n.bmod (Nat.pow 2 64)

/-- The base that digits announce, without what announces it: `0x` for sixteen, `0b` for two, and `0`
for eight. -/
def announced : Raw → Nat × Raw
  | '0' :: x :: d :: rest =>
    if (x == 'x' || x == 'X') && isHexadecimal d then (16, d :: rest)
    else if (x == 'b' || x == 'B') && (d == '0' || d == '1') then (2, d :: rest)
    else (8, '0' :: x :: d :: rest)
  | '0' :: rest => (8, '0' :: rest)
  | r => (10, r)

/-- Reads a whole number of any size, in base ten or in the base that it announces. -/
def readWhole (announces : Bool) (r : Raw) : Numeral :=
  let start := r.dropWhile isSpace
  let (sign, unsigned) : Int × Raw := match start with
    | '-' :: rest => (-1, rest)
    | '+' :: rest => (1, rest)
    | rest => (1, rest)
  let (base, body) := if announces then announced unsigned else (10, unsigned)
  let ds := body.takeWhile (isDigitIn base)
  if ds.isEmpty then ⟨0, r, false⟩ else ⟨sign * numberIn base ds, body.drop ds.length, true⟩

/-- Whether a number has 64 bits. -/
def isInRange (n : Int) : Bool := least ≤ n && n ≤ greatest

/-- The number of 64 bits that is nearest. -/
def clamp (n : Int) : Int := max least (min greatest n)

/-- The number that a whole text spells, blanks around it apart, in base ten or in the base that it
announces. -/
def whole? (announces : Bool) (r : Raw) : Option Int :=
  let n := readWhole announces r
  if (n.rest.dropWhile isSpace).isEmpty && (n.found || announces) && isInRange n.value then some n.value
  else none

/-! ## Numbers with a fraction -/

/-- A binary number: a sign, and a whole number times a power of two. -/
structure Binary where
  negative : Bool
  /-- The whole number. -/
  significand : Nat
  /-- The power of two. -/
  exponent : Int

/-- A number with a fraction. -/
inductive Fraction where
  | finite (b : Binary)
  | infinite (negative : Bool)
  /-- No number. -/
  | undefined (negative : Bool)

/-- What the bits of a number of 64 bits stand for. -/
def Fraction.ofFloat (x : Float) : Fraction :=
  let bits := x.toBits.toNat
  let negative := bits ≥ Nat.pow 2 63
  let exponent : Nat := bits / Nat.pow 2 52 % Nat.pow 2 11
  let fraction : Nat := bits % Nat.pow 2 52
  if exponent = 2047 then (if fraction = 0 then .infinite negative else .undefined negative)
  else if exponent = 0 then .finite ⟨negative, fraction, -1074⟩
  else .finite ⟨negative, fraction + Nat.pow 2 52, exponent - 1075⟩

/-- A quotient, rounded to the nearest number; a half goes to the even one. -/
def roundQuotient (a b : Nat) : Nat :=
  let q := a / b
  let twice := 2 * (a % b)
  if twice < b || (twice == b && q % 2 == 0) then q else q + 1

namespace Binary

/-- The number without its sign, as a quotient. -/
def quotient (b : Binary) : Nat × Nat :=
  if 0 ≤ b.exponent then (b.significand * Nat.pow 2 b.exponent.toNat, 1)
  else (b.significand, Nat.pow 2 (-b.exponent).toNat)

/-- The number times a power of ten, rounded. -/
def scaled (b : Binary) (power : Int) : Nat :=
  let (n, d) := b.quotient
  if 0 ≤ power then roundQuotient (n * Nat.pow 10 power.toNat) d
  else roundQuotient n (d * Nat.pow 10 (-power).toNat)

/-- The power of ten of the first digit that is not zero. -/
def magnitude (b : Binary) : Int :=
  let (n, d) := b.quotient
  if n = 0 then 0
  else
    let guess : Int := (Nat.log2 n : Int) - Nat.log2 d
    let low := (guess * 30103).fdiv 100000 - 2
    let reaches (k : Int) : Bool :=
      if 0 ≤ k then d * Nat.pow 10 k.toNat ≤ n else d ≤ n * Nat.pow 10 (-k).toNat
    (List.range 6).foldl (fun best (i : Nat) => if reaches (low + i) then low + i else best) low

end Binary

/-- Digits with a point before the last `places` ones. -/
def pointed (places : Nat) (sharp : Bool) (n : Nat) : Raw :=
  let ds := digits n
  let ds := List.replicate (places + 1 - ds.length) '0' ++ ds
  let front := ds.take (ds.length - places)
  if places = 0 then (if sharp then front ++ ['.'] else front)
  else front ++ '.' :: ds.drop (ds.length - places)

/-- Drops zeros at the end of the digits after a point, and the point if none are left. -/
def dropZeros (r : Raw) : Raw :=
  if r.contains '.' then
    let kept := (r.reverse.dropWhile (· == '0')).reverse
    if kept.getLast? == some '.' then kept.dropLast else kept
  else r

/-- An exponent of ten, with its sign and at least two digits. -/
def exponentText (k : Int) : Raw :=
  let ds := digits k.natAbs
  (if k < 0 then '-' else '+') :: List.replicate (2 - ds.length) '0' ++ ds

namespace Binary

/-- The number without its sign, with some places after the point. -/
def fixed (b : Binary) (places : Nat) (sharp : Bool) : Raw := pointed places sharp (b.scaled places)

/-- The digits of the number, one more than `places`, and the power of ten of the first one. -/
def leading (b : Binary) (places : Nat) : Nat × Int :=
  let k := b.magnitude
  let n := b.scaled (places - k)
  if Nat.pow 10 (places + 1) ≤ n then (n / 10, k + 1) else (n, k)

/-- The number without its sign, with one digit before the point and an exponent. -/
def scientific (b : Binary) (places : Nat) (sharp : Bool) : Raw :=
  let (n, k) := b.leading places
  pointed places sharp n ++ 'e' :: exponentText k

/-- The number without its sign, in the shorter of both ways, with some digits that count. -/
def general (b : Binary) (precision : Nat) (sharp : Bool) : Raw :=
  let precision := max precision 1
  let (n, k) := b.leading (precision - 1)
  let tidy (r : Raw) : Raw := if sharp then r else dropZeros r
  if k < -4 || (precision : Int) ≤ k then
    tidy (pointed (precision - 1) sharp n) ++ 'e' :: exponentText k
  else
    let places := ((precision : Int) - 1 - k).toNat
    tidy (b.fixed places sharp)

/-- The number without its sign, in base sixteen with a power of two. -/
def hexadecimal (b : Binary) (places : Option Nat) (sharp : Bool) : Raw :=
  if b.significand = 0 then
    "0x0" ++ (match places with
      | some (n + 1) => '.' :: List.replicate (n + 1) '0'
      | _ => if sharp then ['.'] else []) ++ "p+0"
  else
    let top := Nat.log2 b.significand
    let full := b.significand * Nat.pow 2 (52 - top)
    let kept := match places with
      | some n => if n < 13 then roundQuotient full (Nat.pow 2 (52 - 4 * n)) * Nat.pow 2 (52 - 4 * n) else full
      | none => full
    let fraction := Nat.toDigits 16 (kept % Nat.pow 2 52)
    let fraction := List.replicate (13 - fraction.length) '0' ++ fraction
    let shown := match places with
      | some n => (fraction ++ List.replicate n '0').take n
      | none => (fraction.reverse.dropWhile (· == '0')).reverse
    let k := b.exponent + top
    "0x" ++ digits (kept / Nat.pow 2 52) ++ (if shown.isEmpty && !sharp then [] else '.' :: shown) ++
      'p' :: (if k < 0 then '-' else '+') :: digits k.natAbs

end Binary

/-- What was read at the front of a text. -/
structure Decimal where
  /-- The number. -/
  value : Float
  /-- What follows. -/
  rest : Raw
  /-- Whether there was a number. -/
  found : Bool

/-- An exponent after its letter, and what follows it. -/
def readExponent (letter : Char) : Raw → Int × Raw
  | [] => (0, [])
  | c :: rest =>
    if c.toLower == letter then
      let (sign, after) : Int × Raw := match rest with
        | '-' :: r => (-1, r)
        | '+' :: r => (1, r)
        | r => (1, r)
      let ds := after.takeWhile Char.isDigit
      if ds.isEmpty then (0, c :: rest) else (sign * number ds, after.drop ds.length)
    else (0, c :: rest)

/-- A whole number times a power of two, as a number of 64 bits. -/
def floatOf (n : Nat) (exponent : Int) : Float :=
  let limit := max (-2000) (min 2000 exponent)
  if 0 ≤ limit then Float.ofNat (n * Nat.pow 2 limit.toNat)
  else Float.ofScientific (n * Nat.pow 5 (-limit).toNat) true (-limit).toNat

/-- The digits around a point, and what follows them. -/
def readDigits (isOne : Char → Bool) (r : Raw) : Raw × Raw × Raw :=
  let front := r.takeWhile isOne
  let after := r.drop front.length
  match after with
  | '.' :: rest =>
    let fraction := rest.takeWhile isOne
    if front.isEmpty && fraction.isEmpty then ([], [], r) else (front, fraction, rest.drop fraction.length)
  | _ => (front, [], after)

/-- Whether a text begins with a word, in letters of any case. -/
def beginsWith (word : String) (r : Raw) : Bool :=
  (r.take word.length).map Char.toLower == word.toList

/-- Reads a number with a fraction. -/
def readDecimal (r : Raw) : Decimal :=
  let start := r.dropWhile isSpace
  let (negative, body) := match start with
    | '-' :: rest => (true, rest)
    | '+' :: rest => (false, rest)
    | rest => (false, rest)
  let signed (x : Float) (rest : Raw) : Decimal := ⟨if negative then -x else x, rest, true⟩
  if beginsWith "infinity" body then signed (1 / 0) (body.drop 8)
  else if beginsWith "inf" body then signed (1 / 0) (body.drop 3)
  else if beginsWith "nan" body then signed (0 / 0) (body.drop 3)
  else
    let (hexFront, hexFraction, hexRest) :=
      if beginsWith "0x" body then readDigits isHexadecimal (body.drop 2) else ([], [], [])
    if !hexFront.isEmpty || !hexFraction.isEmpty then
      let (k, rest) := readExponent 'p' hexRest
      signed (floatOf (numberIn 16 (hexFront ++ hexFraction)) (k - 4 * hexFraction.length)) rest
    else
      let (front, fraction, after) := readDigits Char.isDigit body
      if front.isEmpty && fraction.isEmpty then ⟨0, r, false⟩
      else
        let (k, rest) := readExponent 'e' after
        let power := max (-5000) (min 5000 (k - fraction.length))
        let n := number (front ++ fraction)
        signed (if 0 ≤ power then Float.ofScientific n false power.toNat
          else Float.ofScientific n true (-power).toNat) rest

end LiveUnits.Shell
