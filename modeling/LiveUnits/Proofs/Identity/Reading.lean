import LiveUnits.Identity.Spelling

/-!
# Reading identities back

The dotted name of an identity is read back as the identity (`Identity.parse_text`), and so are its
segments (`Identity.ofSegments_segments`).  A text that is read as an identity is its dotted name
(`Identity.text_of_parse`).
-/

namespace LiveUnits

/-- The parts between the separators, joined with it, give the list back. -/
theorem intercalate_splitOn {α : Type} [DecidableEq α] (sep : α) (xs : List α) :
    [sep].intercalate (splitOn sep xs) = xs := by
  induction xs with
  | nil => rfl
  | cons x xs ih =>
      have hparts : parts sep (x :: xs) = if x = sep then ([], splitOn sep xs)
          else (x :: (parts sep xs).1, (parts sep xs).2) := rfl
      rw [splitOn, hparts]
      by_cases hx : x = sep
      · rw [if_pos hx, hx]
        exact (List.intercalate_cons_cons ..).trans (congrArg _ ih)
      · rw [if_neg hx]
        cases hothers : (parts sep xs).2 with
        | nil =>
            rw [splitOn, hothers, List.intercalate_singleton] at ih
            rw [List.intercalate_singleton, ih]
        | cons part rest =>
            rw [splitOn, hothers, List.intercalate_cons_cons] at ih
            rw [List.intercalate_cons_cons, List.cons_append, List.cons_append, ih]

namespace Identity

theorem not_isSegment_empty {s : String} (hs : isSegment s = true) : s.toList ≠ [] := by
  intro hempty
  simp [isSegment, hempty] at hs

/-- The segments of an identity give the identity, whatever name an error would show. -/
theorem ofSegments_segments (n : Identity) (name : String) : ofSegments name n.segments = .ok n := by
  have hvalid : n.segments.find? (fun s => !isSegment s) = none := by
    refine List.find?_eq_none.mpr fun s hs => ?_
    rw [n.valid s hs]
    decide
  unfold ofSegments
  rw [dif_neg n.nonempty]
  split
  · next s hbad =>
    rw [hvalid] at hbad
    cases hbad
  · rfl

/-- The segments are what was put in. -/
theorem segments_of_ofSegments {name : String} {segments : List String} {n : Identity}
    (h : ofSegments name segments = .ok n) : n.segments = segments := by
  unfold ofSegments at h
  split at h
  · cases h
  · split at h
    · cases h
    · obtain rfl := Except.ok.inj h
      rfl

/-- The text of an identity is its segments with dots between them. -/
theorem text_toList (n : Identity) :
    n.text.toList = ['.'].intercalate (n.segments.map String.toList) := by
  rw [text, String.toList_intercalate]
  rfl

theorem text_toList_ne_nil (n : Identity) : n.text.toList ≠ [] := by
  intro hempty
  have hsplit := n.splitOn_intercalate_segments (c := '.') (by decide)
  rw [← text_toList, hempty] at hsplit
  have hmem : [] ∈ n.segments.map String.toList := by
    rw [← hsplit]
    exact List.mem_singleton_self _
  obtain ⟨s, hs, hnil⟩ := List.mem_map.mp hmem
  exact not_isSegment_empty (n.valid s hs) hnil

/-- **The dotted name is read back.** -/
theorem parse_text (n : Identity) : parse n.text = .ok n := by
  have hsplit : (splitOn '.' n.text.toList).map String.ofList = n.segments := by
    rw [text_toList, n.splitOn_intercalate_segments (c := '.') (by decide), List.map_map]
    simp
  unfold parse
  rw [if_neg n.text_toList_ne_nil, hsplit]
  exact n.ofSegments_segments n.text

/-- A text that is read as an identity is its dotted name. -/
theorem text_of_parse {name : String} {n : Identity} (h : parse name = .ok n) : n.text = name := by
  unfold parse at h
  split at h
  · cases h
  · refine String.toList_inj.mp ?_
    rw [text_toList, segments_of_ofSegments h, List.map_map]
    simp [Function.comp_def, intercalate_splitOn]

end Identity

end LiveUnits
