/-!
# Cutting and joining lists

Lists of bytes and of characters are cut at a separator (`splitOn`), joined with one
(`List.intercalate`) and searched for a pattern (`substitute`).  `splitOn` never returns the empty
list: a list without the separator is its own only part.
-/

namespace LiveUnits

/-- The part before the first separator, and the parts after it. -/
def parts {α : Type} [DecidableEq α] (sep : α) : List α → List α × List (List α)
  | [] => ([], [])
  | x :: xs =>
    let (first, others) := parts sep xs
    if x = sep then ([], first :: others) else (x :: first, others)

/-- The parts of a list between the separators. -/
def splitOn {α : Type} [DecidableEq α] (sep : α) (xs : List α) : List (List α) :=
  (parts sep xs).1 :: (parts sep xs).2

/-- What stands before and after the last separator, if there is one. -/
def splitLast {α : Type} [DecidableEq α] (sep : α) (xs : List α) : Option (List α × List α) :=
  if sep ∈ xs then
    let after := (xs.reverse.takeWhile (· ≠ sep)).reverse
    some (xs.take (xs.length - after.length - 1), after)
  else none

/-- Replaces the occurrences of a pattern from left to right, the first `skip` elements being
already part of one. -/
def substituteFrom {α : Type} [DecidableEq α] (pattern value : List α) : Nat → List α → List α
  | _, [] => []
  | skip + 1, _ :: xs => substituteFrom pattern value skip xs
  | 0, x :: xs =>
    if pattern.isPrefixOf (x :: xs) then
      value ++ substituteFrom pattern value (pattern.length - 1) xs
    else x :: substituteFrom pattern value 0 xs

/-- Replaces every occurrence of a non-empty pattern, from left to right and without overlap. -/
def substitute {α : Type} [DecidableEq α] (pattern value xs : List α) : List α :=
  substituteFrom pattern value 0 xs

/-- Drops `suffix` from the end of a list that ends with it. -/
def dropSuffix? {α : Type} [DecidableEq α] (suffix xs : List α) : Option (List α) :=
  if suffix.isSuffixOf xs then some (xs.take (xs.length - suffix.length)) else none

end LiveUnits
