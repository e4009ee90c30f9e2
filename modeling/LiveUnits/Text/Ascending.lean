/-!
# Lists in ascending order

Lists that are ordered by a text which belongs to each element, every text occurring once.
-/

namespace LiveUnits

variable {α : Type}

/-- Puts an element into a list that is ascending by `key`; an element with the same key gives
way. -/
def insertByKey (key : α → String) (a : α) : List α → List α
  | [] => [a]
  | b :: rest =>
    match compare (key a) (key b) with
    | .lt => a :: b :: rest
    | .eq => a :: rest
    | .gt => b :: insertByKey key a rest

/-- The elements of a list in ascending order; of several with one key the last one stays. -/
def sortByKey (key : α → String) (l : List α) : List α :=
  l.foldl (fun sorted a => insertByKey key a sorted) []

end LiveUnits
