/-!
# Durations

Spans of time in nanoseconds, and the short text that shows one: a number with its fraction and the
largest unit in which the number is at least one.
-/

namespace LiveUnits

/-- A span of time. -/
structure Duration where
  /-- Its length in nanoseconds. -/
  nanoseconds : Nat
  deriving DecidableEq, Repr

namespace Duration

/-- A number of milliseconds. -/
def ofMilliseconds (n : Nat) : Duration := ⟨n * 1000000⟩

/-- A number of seconds. -/
def ofSeconds (n : Nat) : Duration := ⟨n * 1000000000⟩

/-- The whole milliseconds of a duration. -/
def milliseconds (d : Duration) : Nat := d.nanoseconds / 1000000

/-- The digits of `rest / 10 ^ places` after the point, without zeros at the end. -/
def fraction (places rest : Nat) : List Char :=
  let digits := Nat.toDigits 10 rest
  let padded := List.replicate (places - digits.length) '0' ++ digits
  (padded.reverse.dropWhile (· = '0')).reverse

/-- A number of units of `10 ^ places` nanoseconds each. -/
def inUnits (n places : Nat) (unit : String) : String :=
  let digits := if n % Nat.pow 10 places = 0 then [] else '.' :: fraction places (n % Nat.pow 10 places)
  toString (n / Nat.pow 10 places) ++ String.ofList digits ++ unit

def text (d : Duration) : String :=
  if 1000000000 ≤ d.nanoseconds then inUnits d.nanoseconds 9 "s"
  else if 1000000 ≤ d.nanoseconds then inUnits d.nanoseconds 6 "ms"
  else if 1000 ≤ d.nanoseconds then inUnits d.nanoseconds 3 "µs"
  else inUnits d.nanoseconds 0 "ns"

end Duration

end LiveUnits
