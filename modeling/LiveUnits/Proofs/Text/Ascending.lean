import Mathlib.Data.List.Induction
import Mathlib.Data.List.Nodup
import LiveUnits.Text.Ascending

/-!
# What sorting by a key keeps

`sortByKey` is insertion one after the other, so every fact about it is a fact about `insertByKey`
on an ascending list first.  An element with a key that is there already takes its place; hence of
several elements with one key the last one is found (`find?_sortByKey`), and if no two elements share
a key nothing is lost (`perm_sortByKey`).
-/

namespace LiveUnits

variable {α : Type} {key : α → String}

/-- The keys of a list ascend, so that no key occurs twice. -/
def Ascending (key : α → String) (l : List α) : Prop :=
  l.Pairwise fun a b => compare (key a) (key b) = .lt

theorem compare_lt_trans {a b c : String} (h : compare a b = .lt) (h' : compare b c = .lt) :
    compare a c = .lt :=
  Std.TransCmp.lt_trans h h'

theorem ne_of_compare_lt {a b : String} (h : compare a b = .lt) : a ≠ b := by
  rintro rfl
  rw [Std.compare_eq_iff_eq.mpr rfl] at h
  cases h

/-- No key is repeated in an ascending list. -/
theorem Ascending.nodup {l : List α} (h : Ascending key l) : (l.map key).Nodup :=
  List.pairwise_map.mpr (h.imp fun hlt => ne_of_compare_lt hlt)

/-- An element is known by its key. -/
theorem Ascending.eq_of_key_eq {l : List α} (h : Ascending key l) {a b : α} (ha : a ∈ l)
    (hb : b ∈ l) (hkey : key a = key b) : a = b :=
  List.inj_on_of_nodup_map h.nodup ha hb hkey

/-- Elements can be put in ascending order in one way only. -/
theorem Ascending.eq_of_mem {l l' : List α} (h : Ascending key l) (h' : Ascending key l')
    (hmem : ∀ a, a ∈ l ↔ a ∈ l') : l = l' := by
  have hperm : l.Perm l' := (List.perm_ext_iff_of_nodup h.nodup.of_map h'.nodup.of_map).mpr hmem
  refine hperm.eq_of_pairwise (fun a b _ _ hab hba => ?_) h h'
  exact absurd rfl (ne_of_compare_lt (compare_lt_trans hab hba))

/-- What is found under a key has it. -/
theorem key_eq_of_find? {l : List α} {a : α} {k : String}
    (h : (l.find? fun b => key b == k) = some a) : key a = k := by
  simpa using List.find?_some h

/-! ## Inserting -/

/-- What is in a list after an insertion: the new element, and the old ones with another key. -/
theorem mem_insertByKey {l : List α} (h : Ascending key l) {a b : α} :
    b ∈ insertByKey key a l ↔ b = a ∨ b ∈ l ∧ key b ≠ key a := by
  induction l with
  | nil => simp [insertByKey]
  | cons c rest ih =>
      obtain ⟨hc, hrest⟩ := List.pairwise_cons.mp h
      have hlater : ∀ d ∈ rest, key d ≠ key c := fun d hd => (ne_of_compare_lt (hc d hd)).symm
      unfold insertByKey
      split
      · next hlt =>
        have hkeep : ∀ d ∈ c :: rest, key d ≠ key a := by
          intro d hd
          rcases List.mem_cons.mp hd with rfl | hd
          · exact (ne_of_compare_lt hlt).symm
          · exact (ne_of_compare_lt (compare_lt_trans hlt (hc d hd))).symm
        constructor
        · intro hb
          rcases List.mem_cons.mp hb with rfl | hb
          · exact .inl rfl
          · exact .inr ⟨hb, hkeep b hb⟩
        · rintro (rfl | ⟨hb, -⟩)
          · exact List.mem_cons_self
          · exact List.mem_cons_of_mem _ hb
      · next heq =>
        have hkey : key a = key c := Std.compare_eq_iff_eq.mp heq
        rw [List.mem_cons, List.mem_cons]
        constructor
        · rintro (rfl | hb)
          · exact .inl rfl
          · exact .inr ⟨.inr hb, hkey ▸ hlater b hb⟩
        · rintro (rfl | ⟨rfl | hb, hne⟩)
          · exact .inl rfl
          · exact absurd hkey.symm hne
          · exact .inr hb
      · next hgt =>
        have hne : key c ≠ key a := by
          intro hkey
          rw [hkey, Std.compare_eq_iff_eq.mpr rfl] at hgt
          cases hgt
        rw [List.mem_cons, ih hrest, List.mem_cons]
        constructor
        · rintro (rfl | rfl | ⟨hb, hkey⟩)
          · exact .inr ⟨.inl rfl, hne⟩
          · exact .inl rfl
          · exact .inr ⟨.inr hb, hkey⟩
        · rintro (rfl | ⟨rfl | hb, hkey⟩)
          · exact .inr (.inl rfl)
          · exact .inl rfl
          · exact .inr (.inr ⟨hb, hkey⟩)

/-- Inserting keeps a list ascending. -/
theorem Ascending.insertByKey {l : List α} (h : Ascending key l) (a : α) :
    Ascending key (insertByKey key a l) := by
  induction l with
  | nil => exact List.pairwise_singleton _ _
  | cons c rest ih =>
      obtain ⟨hc, hrest⟩ := List.pairwise_cons.mp h
      unfold LiveUnits.insertByKey
      split
      · next hlt =>
        refine List.pairwise_cons.mpr ⟨fun d hd => ?_, h⟩
        rcases List.mem_cons.mp hd with rfl | hd
        · exact hlt
        · exact compare_lt_trans hlt (hc d hd)
      · next heq =>
        have hkey : key a = key c := Std.compare_eq_iff_eq.mp heq
        exact List.pairwise_cons.mpr ⟨fun d hd => by rw [hkey]; exact hc d hd, hrest⟩
      · next hgt =>
        refine List.pairwise_cons.mpr ⟨fun d hd => ?_, ih hrest⟩
        rcases (mem_insertByKey hrest).mp hd with rfl | ⟨hd, -⟩
        · exact Std.OrientedCmp.lt_of_gt hgt
        · exact hc d hd

/-- The element with a key that no other element has is found by it. -/
theorem find?_of_mem_ascending {l : List α} (h : Ascending key l) {a : α} (ha : a ∈ l) {k : String}
    (hk : key a = k) : (l.find? fun b => key b == k) = some a := by
  cases hfound : l.find? fun b => key b == k with
  | none => exact absurd (beq_iff_eq.mpr hk) (List.find?_eq_none.mp hfound a ha)
  | some b =>
      have hb : key b = k := key_eq_of_find? hfound
      rw [h.eq_of_key_eq (List.mem_of_find?_eq_some hfound) ha (hb.trans hk.symm)]

/-- What was inserted is found under its key, and everything else as before. -/
theorem find?_insertByKey {l : List α} (h : Ascending key l) (a : α) (k : String) :
    ((insertByKey key a l).find? fun b => key b == k) =
      if key a = k then some a else l.find? fun b => key b == k := by
  have hasc := h.insertByKey a
  split
  · next hk => exact find?_of_mem_ascending hasc ((mem_insertByKey h).mpr (.inl rfl)) hk
  · next hk =>
    cases hfound : l.find? fun b => key b == k with
    | none =>
        refine List.find?_eq_none.mpr fun b hb => ?_
        rcases (mem_insertByKey h).mp hb with rfl | ⟨hb, -⟩
        · simpa using hk
        · exact List.find?_eq_none.mp hfound b hb
    | some b =>
        have hb : key b = k := key_eq_of_find? hfound
        have hmem := List.mem_of_find?_eq_some hfound
        exact find?_of_mem_ascending hasc
          ((mem_insertByKey h).mpr (.inr ⟨hmem, fun he => hk (he ▸ hb)⟩)) hb

/-- Under a new key an element is added. -/
theorem perm_insertByKey {l : List α} {a : α} (ha : key a ∉ l.map key) :
    (insertByKey key a l).Perm (a :: l) := by
  induction l with
  | nil => exact .refl _
  | cons c rest ih =>
      rw [List.map_cons, List.mem_cons, not_or] at ha
      unfold insertByKey
      split
      · exact .refl _
      · next heq => exact absurd (Std.compare_eq_iff_eq.mp heq) ha.1
      · exact ((ih ha.2).cons c).trans (.swap a c rest)

/-! ## Sorting -/

/-- The last element is inserted into what the others make. -/
theorem sortByKey_concat (l : List α) (a : α) :
    sortByKey key (l ++ [a]) = insertByKey key a (sortByKey key l) := by
  simp [sortByKey]

/-- **Sorting makes a list ascending.** -/
theorem ascending_sortByKey (l : List α) : Ascending key (sortByKey key l) := by
  induction l using List.reverseRecOn with
  | nil => exact .nil
  | append_singleton l a ih =>
      rw [sortByKey_concat]
      exact ih.insertByKey a

/-- Nothing is in the sorted list that was not there before. -/
theorem mem_of_mem_sortByKey {l : List α} {a : α} (h : a ∈ sortByKey key l) : a ∈ l := by
  induction l using List.reverseRecOn with
  | nil => exact h
  | append_singleton l b ih =>
      rw [sortByKey_concat] at h
      rcases (mem_insertByKey (ascending_sortByKey l)).mp h with rfl | ⟨h, -⟩
      · simp
      · exact List.mem_append_left _ (ih h)

/-- Of several elements with one key, the last one is found. -/
theorem find?_sortByKey (l : List α) (k : String) :
    ((sortByKey key l).find? fun a => key a == k) = l.reverse.find? fun a => key a == k := by
  induction l using List.reverseRecOn with
  | nil => rfl
  | append_singleton l a ih =>
      rw [sortByKey_concat, find?_insertByKey (ascending_sortByKey l), ih, List.reverse_append]
      by_cases hk : key a = k <;> simp [hk]

/-- A list in which no key occurs twice is only put into another order. -/
theorem perm_sortByKey {l : List α} (h : (l.map key).Nodup) : (sortByKey key l).Perm l := by
  induction l using List.reverseRecOn with
  | nil => exact .refl _
  | append_singleton l a ih =>
      rw [List.map_append, List.nodup_append] at h
      obtain ⟨hl, -, hdisjoint⟩ := h
      rw [sortByKey_concat]
      have hperm := ih hl
      have ha : key a ∉ (sortByKey key l).map key := by
        intro hmem
        exact hdisjoint _ ((hperm.map key).mem_iff.mp hmem) _ (by simp) rfl
      exact (perm_insertByKey ha).trans ((hperm.cons a).trans (List.perm_append_singleton a l).symm)

/-- Sorting does not look at anything but keys. -/
theorem sortByKey_map {f : α → α} (hf : ∀ a, key (f a) = key a) (l : List α) :
    sortByKey key (l.map f) = (sortByKey key l).map f := by
  have hinsert (a : α) (l : List α) : insertByKey key (f a) (l.map f) = (insertByKey key a l).map f := by
    induction l with
    | nil => rfl
    | cons b rest ih =>
        simp only [List.map_cons, insertByKey, hf]
        cases compare (key a) (key b) with
        | lt => rfl
        | eq => rfl
        | gt => exact congrArg (f b :: ·) ih
  induction l using List.reverseRecOn with
  | nil => rfl
  | append_singleton l a ih =>
      rw [List.map_append, List.map_singleton, sortByKey_concat, sortByKey_concat, ih, hinsert]

/-- A key is found in a sorted list exactly if it occurs in the list. -/
theorem exists_mem_sortByKey {l : List α} {a : α} (h : a ∈ l) :
    ∃ b ∈ sortByKey key l, key b = key a := by
  have hfound : (l.reverse.find? fun b => key b == key a).isSome :=
    List.find?_isSome.mpr ⟨a, List.mem_reverse.mpr h, beq_self_eq_true _⟩
  rw [← find?_sortByKey, List.find?_isSome] at hfound
  obtain ⟨b, hb, hkey⟩ := hfound
  exact ⟨b, hb, eq_of_beq hkey⟩

end LiveUnits
