import Mathlib.Data.List.Nodup
import LiveUnits.Path

/-!
# The order of paths

Paths are ordered by their components, as in a dictionary: what two paths have in common at the front
does not decide (`Path.compareComponents_append_left`).  That is a linear order up to the spelling
of paths with the same components, so sorting elements whose keys differ puts them in strictly
ascending order (`pairwise_mergeSort_lt`).
-/

namespace LiveUnits

/-- Sorting by keys that all differ is strict. -/
theorem pairwise_mergeSort_lt {α β : Type} (cmp : β → β → Ordering) [Std.TransCmp cmp]
    [Std.LawfulEqCmp cmp] {key : α → β} {l : List α} (h : (l.map key).Nodup) :
    (l.mergeSort fun a b => cmp (key a) (key b) != .gt).Pairwise fun a b =>
      cmp (key a) (key b) = .lt := by
  have htrans : ∀ a b c : α, (cmp (key a) (key b) != .gt) = true →
      (cmp (key b) (key c) != .gt) = true → (cmp (key a) (key c) != .gt) = true := by
    intro a b c hab hbc
    have hab' : (cmp (key a) (key b)).isLE := by simpa [Ordering.isLE_iff_ne_gt] using hab
    have hbc' : (cmp (key b) (key c)).isLE := by simpa [Ordering.isLE_iff_ne_gt] using hbc
    simpa [Ordering.isLE_iff_ne_gt] using Std.TransCmp.isLE_trans hab' hbc'
  have htotal : ∀ a b : α,
      ((cmp (key a) (key b) != .gt) || (cmp (key b) (key a) != .gt)) = true := by
    intro a b
    rw [Bool.or_eq_true]
    cases hcmp : cmp (key a) (key b) with
    | lt => exact .inl rfl
    | eq => exact .inl rfl
    | gt =>
        right
        rw [Std.OrientedCmp.lt_of_gt hcmp]
        rfl
  have hsorted := List.pairwise_mergeSort htrans htotal l
  have hkeys : ((l.mergeSort fun a b => cmp (key a) (key b) != .gt).map key).Nodup :=
    ((List.mergeSort_perm l _).map key).nodup_iff.mpr h
  refine (hsorted.and (List.pairwise_map.mp hkeys)).imp fun {a b} hab => ?_
  cases hcmp : cmp (key a) (key b) with
  | lt => rfl
  | eq => exact absurd (Std.LawfulEqCmp.eq_of_compare hcmp) hab.2
  | gt =>
      have hle := hab.1
      rw [hcmp] at hle
      cases hle

namespace Path

/-- The name that a component is, if it is one. -/
def Component.spelling : Component → Name
  | .name n => n
  | _ => []

/-- Components are compared by kind first. -/
theorem Component.compare_eq (a b : Component) :
    a.compare b = (Ord.compare a.rank b.rank).then (Ord.compare a.spelling b.spelling) := by
  cases a <;> cases b <;> rfl

instance : Std.TransCmp Component.compare := by
  have hsame : Component.compare =
      compareLex (compareOn Component.rank) (compareOn Component.spelling) := by
    funext a b
    exact Component.compare_eq a b
  rw [hsame]
  infer_instance

instance : Std.LawfulEqCmp Component.compare where
  compare_self := by
    intro a
    simp [Component.compare_eq]
  eq_of_compare := by
    intro a b h
    cases a <;> cases b <;> first | rfl | cases h | skip
    exact congrArg Component.name (Std.LawfulEqOrd.eq_of_compare h)

/-- Components are compared one after the other. -/
theorem compareComponents_eq : compareComponents = List.compareLex Component.compare := by
  funext as
  induction as with
  | nil =>
      funext bs
      cases bs <;> rfl
  | cons a as ih =>
      funext bs
      cases bs with
      | nil => rfl
      | cons b bs => rw [compareComponents, List.compareLex_cons_cons, ih]

instance : Std.TransCmp compareComponents := by
  rw [compareComponents_eq]
  infer_instance

instance : Std.LawfulEqCmp compareComponents := by
  rw [compareComponents_eq]
  infer_instance

/-- What two lists of components have in common at the front does not decide. -/
theorem compareComponents_append_left (front as bs : List Component) :
    compareComponents (front ++ as) (front ++ bs) = compareComponents as bs := by
  induction front with
  | nil => rfl
  | cons c rest ih =>
      have hself : c.compare c = .eq := Std.ReflCmp.compare_self
      rw [List.cons_append, List.cons_append, compareComponents, hself, ih]
      rfl

/-- A name comes after every name that it continues. -/
theorem compare_append_cons (n : Name) (a : UInt8) (more : Bytes) :
    Ord.compare (n ++ a :: more) n = .gt := by
  induction n with
  | nil => rfl
  | cons b rest ih =>
      show List.compareLex Ord.compare (b :: (rest ++ a :: more)) (b :: rest) = .gt
      have hself : Ord.compare b b = .eq := Std.ReflCmp.compare_self
      rw [List.compareLex_cons_cons, hself]
      exact ih

/-- Elements whose paths have different components are sorted strictly. -/
theorem pairwise_mergeSort {α : Type} {path : α → Path} {l : List α}
    (h : (l.map fun a => (path a).components).Nodup) :
    (l.mergeSort fun a b => (path a).compare (path b) != .gt).Pairwise fun a b =>
      (path a).compare (path b) = .lt :=
  pairwise_mergeSort_lt compareComponents h

/-- Elements can be put in the strict order of their paths in one way only. -/
theorem eq_of_perm {α : Type} {path : α → Path} {l l' : List α} (h : l.Perm l')
    (hl : l.Pairwise fun a b => (path a).compare (path b) = .lt)
    (hl' : l'.Pairwise fun a b => (path a).compare (path b) = .lt) : l = l' := by
  refine h.eq_of_pairwise (fun a b _ _ hab hba => ?_) hl hl'
  have hlt : compareComponents (path a).components (path b).components = .lt := hab
  have hgt : compareComponents (path b).components (path a).components = .gt := Std.OrientedCmp.gt_of_lt hlt
  cases hba.symm.trans hgt

end Path

end LiveUnits
