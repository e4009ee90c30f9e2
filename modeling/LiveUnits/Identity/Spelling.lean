import LiveUnits.Identity

/-!
# Spellings of identities

The segments of an identity can be read back from its spellings, since no segment holds a separator.
So two identities with the same dotted name, or with the same artifact name, are the same
(`Identity.text_inj`, `Identity.resourceName_inj`).
-/

namespace LiveUnits

/-- What holds no separator stays in the first part. -/
theorem parts_append {α : Type} [DecidableEq α] {sep : α} {part : List α} (h : sep ∉ part)
    (rest : List α) : parts sep (part ++ rest) =
      (part ++ (parts sep rest).1, (parts sep rest).2) := by
  induction part with
  | nil => rfl
  | cons x part ih =>
    have hx : x ≠ sep := fun hx => h (by simp [hx])
    have hrest : sep ∉ part := fun hp => h (List.mem_cons_of_mem _ hp)
    simp [parts, ih hrest, hx]

/-- Parts without a separator are found again after they have been joined with it. -/
theorem splitOn_intercalate {α : Type} [DecidableEq α] {sep : α} :
    ∀ {l : List (List α)}, l ≠ [] → (∀ part ∈ l, sep ∉ part) →
      splitOn sep ([sep].intercalate l) = l
  | [], hne, _ => absurd rfl hne
  | [part], _, h => by
    have hpart := parts_append (h part (by simp)) []
    simp only [List.append_nil] at hpart
    simp [splitOn, hpart, parts]
  | part :: next :: rest, _, h => by
    have ih := splitOn_intercalate (l := next :: rest) (by simp)
      fun p hp => h p (List.mem_cons_of_mem _ hp)
    have hpart := h part (by simp)
    rw [List.intercalate_cons_cons, List.append_assoc]
    simp only [splitOn] at ih
    simp [splitOn, parts_append hpart, parts, ih]

namespace Identity

/-- A segment holds only characters of segments. -/
theorem not_mem_of_isSegment {s : String} {c : Char} (hs : isSegment s = true)
    (hc : isSegmentChar c = false) : c ∉ s.toList := fun hmem => by
  simp only [isSegment, Bool.and_eq_true, List.all_eq_true] at hs
  rw [hs.2 c hmem] at hc
  cases hc

/-- The segments of an identity are the parts of any spelling that joins them with a character
which no segment may hold. -/
theorem splitOn_intercalate_segments (n : Identity) {c : Char} (hc : isSegmentChar c = false) :
    splitOn c ([c].intercalate (n.segments.map String.toList)) = n.segments.map String.toList := by
  refine splitOn_intercalate (by simpa using n.nonempty) fun part hpart => ?_
  obtain ⟨s, hs, rfl⟩ := List.mem_map.1 hpart
  exact not_mem_of_isSegment (n.valid s hs) hc

theorem segments_inj {n m : Identity} (h : n.segments = m.segments) : n = m := by
  cases n
  cases m
  simpa using h

/-- An identity can be told from its segments, joined by anything that no segment holds. -/
theorem eq_of_intercalate_eq {n m : Identity} {c : Char} (hc : isSegmentChar c = false)
    (h : [c].intercalate (n.segments.map String.toList) =
      [c].intercalate (m.segments.map String.toList)) : n = m := by
  have hsplit := n.splitOn_intercalate_segments hc
  rw [h, m.splitOn_intercalate_segments hc] at hsplit
  refine segments_inj (List.map_inj_right (fun _ _ => String.toList_inj.1) |>.1 hsplit.symm)

/-- The dotted name determines the identity. -/
theorem text_inj {n m : Identity} (h : n.text = m.text) : n = m := by
  refine eq_of_intercalate_eq (c := '.') (by decide) ?_
  have hlist := congrArg String.toList h
  rwa [text, text, String.toList_intercalate, String.toList_intercalate] at hlist

/-- The name of the artifact determines the identity. -/
theorem resourceName_inj {n m : Identity} {extension : String}
    (h : n.resourceName extension = m.resourceName extension) : n = m := by
  refine eq_of_intercalate_eq (c := '/') (by decide) ?_
  have hlist := congrArg String.toList h
  simp only [resourceName, String.toList_append, List.append_cancel_right_eq] at hlist
  rwa [String.toList_intercalate, String.toList_intercalate] at hlist

end Identity

end LiveUnits
