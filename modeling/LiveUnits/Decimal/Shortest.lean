/-!
# The shortest decimal form of a floating point number

A finite double is `m · 2^q`.  The reals that round to it form an interval whose ends belong to it
exactly when `m` is even.  The shortest form is the coarsest decimal grid that has a point in that
interval; of two such points the nearer one is taken.  All arithmetic is exact.
-/

namespace LiveUnits.Decimal

/-- A finite double without its sign: `m · 2^(q - 1074)`. -/
structure Magnitude where
  /-- The significand. -/
  m : Nat
  /-- The exponent, counted from the least one. -/
  q : Nat

/-- The magnitude of a double given by its bits, absent for infinities and for what is no
number. -/
def Magnitude.ofBits? (bits : Nat) : Option Magnitude :=
  let exponent := bits / Nat.pow 2 52 % 2048
  let fraction := bits % Nat.pow 2 52
  if exponent = 2047 then none
  else if exponent = 0 then some ⟨fraction, 0⟩
  else some ⟨fraction + Nat.pow 2 52, exponent - 1⟩

/-- A decimal `digits · 10^exponent`. -/
structure Digits where
  digits : Nat
  /-- The power of ten they count. -/
  exponent : Int
  deriving Repr, DecidableEq

/-- The reals that round to a magnitude, in units of `2^(-1076)`. -/
structure Rounding where
  low : Nat
  /-- The magnitude itself. -/
  value : Nat
  /-- The upper end. -/
  high : Nat
  /-- Whether the ends belong to the interval. -/
  closed : Bool

/-- The interval that belongs to a magnitude.  Below a power of two the neighbour is half as
far. -/
def Magnitude.rounding (x : Magnitude) : Rounding :=
  let unit := Nat.pow 2 x.q
  let below := if x.m = Nat.pow 2 52 ∧ 0 < x.q then unit else 2 * unit
  { low := 4 * x.m * unit - below
    value := 4 * x.m * unit
    high := 4 * x.m * unit + 2 * unit
    closed := x.m % 2 = 0 }

/-- The point of the grid `10^exponent` that is nearest to the value among those in the
interval. -/
def Rounding.onGrid (r : Rounding) (exponent : Int) : Option Digits :=
  -- a grid point `k` stands for `k * step` in units of `1 / scale` of the interval's unit
  let scale := if exponent < 0 then Nat.pow 10 (-exponent).toNat else 1
  let step := (if exponent < 0 then 1 else Nat.pow 10 exponent.toNat) * Nat.pow 2 1076
  let value := r.value * scale
  let inside (k : Nat) : Bool :=
    let p := k * step
    if r.closed then r.low * scale ≤ p && p ≤ r.high * scale
    else r.low * scale < p && p < r.high * scale
  let k := value / step
  let below := value - k * step
  let above := (k + 1) * step - value
  match inside k && 0 < k, inside (k + 1) with
  | true, true => some ⟨if below ≤ above then k else k + 1, exponent⟩
  | true, false => some ⟨k, exponent⟩
  | false, true => some ⟨k + 1, exponent⟩
  | false, false => none

/-- The first grid with a point in the interval, of `count` grids each ten times finer. -/
def Rounding.search (r : Rounding) : Nat → Int → Option Digits
  | 0, _ => none
  | count + 1, exponent => (r.onGrid exponent).or (r.search count (exponent - 1))

/-- The shortest decimal that rounds to a magnitude other than zero. -/
def Magnitude.shortest (x : Magnitude) : Digits :=
  let r := x.rounding
  -- the number of decimal digits before the point bounds the coarsest grid from above
  let whole := (toString (r.value / Nat.pow 2 1076)).length
  (r.search (whole + 400) whole).getD ⟨0, 0⟩

/-- A decimal in positional notation, with at least one place after the point. -/
def Digits.positional (d : Digits) : String :=
  let text := toString d.digits
  if 0 ≤ d.exponent then
    text ++ String.ofList (List.replicate d.exponent.toNat '0') ++ ".0"
  else
    let places := (-d.exponent).toNat
    let padded := String.ofList (List.replicate (places + 1 - text.length) '0') ++ text
    let cs := padded.toList
    String.ofList (cs.take (cs.length - places)) ++ "." ++
      String.ofList (cs.drop (cs.length - places))

/-- A double in positional notation: the fewest digits that read back as it, and at least one place
after the point. -/
def ofFloat (x : Float) : String :=
  let bits := x.toBits.toNat
  let sign := if Nat.pow 2 63 ≤ bits then "-" else ""
  match Magnitude.ofBits? bits with
  | none => if bits % Nat.pow 2 52 = 0 then sign ++ "inf" else "NaN"
  | some ⟨0, _⟩ => sign ++ "0.0"
  | some magnitude => sign ++ magnitude.shortest.positional

end LiveUnits.Decimal
