/-!
# Scanning texts

A scanner takes characters off the front of a text and returns what they stand for, or refuses the
text.  Repetition is bounded by the length of what is left, so every scanner is total.
-/

namespace LiveUnits

/-- A scanner: it refuses, or returns a result and leaves the rest of the text. -/
abbrev Scan (α : Type) := StateT (List Char) Option α

namespace Scan

/-- The next character, if it passes the test. -/
def satisfy (p : Char → Bool) : Scan Char := fun cs =>
  match cs with
  | c :: rest => if p c then some (c, rest) else none
  | [] => none

/-- The next character, left in place. -/
def peek? : Scan (Option Char) := fun cs => some (cs.head?, cs)

/-- The given character. -/
def char (c : Char) : Scan Unit := fun cs =>
  match cs with
  | d :: rest => if c = d then some ((), rest) else none
  | [] => none

/-- The given text. -/
def text (s : String) : Scan Unit := fun cs =>
  if s.toList.isPrefixOf cs then some ((), cs.drop s.length) else none

/-- The longest run of characters that pass the test. -/
def takeWhile (p : Char → Bool) : Scan (List Char) := fun cs =>
  some (cs.takeWhile p, cs.dropWhile p)

/-- The end of the text. -/
def finish : Scan Unit := fun cs => if cs.isEmpty then some ((), []) else none

/-- At most `bound` times what `p` scans, until it refuses. -/
def manyUpTo {α : Type} (p : Scan α) : Nat → Scan (List α)
  | 0 => pure []
  | bound + 1 =>
    (do let a ← p; let rest ← manyUpTo p bound; pure (a :: rest)) <|> pure []

/-- What `p` scans, as often as it does.  `p` takes at least one character. -/
def many {α : Type} (p : Scan α) : Scan (List α) := do manyUpTo p (← get).length

/-- What `p` scans, or nothing. -/
def optional? {α : Type} (p : Scan α) : Scan (Option α) := (some <$> p) <|> pure none

/-- What `p` scans, once or more often, with `separator` between. -/
def separated {α β : Type} (p : Scan α) (separator : Scan β) : Scan (List α) := do
  let first ← p
  let others ← many (do let _ ← separator; p)
  pure (first :: others)

/-- Runs a scanner over a whole text. -/
def all? {α : Type} (p : Scan α) (s : List Char) : Option α :=
  match p s with
  | some (a, []) => some a
  | _ => none

end Scan

end LiveUnits
