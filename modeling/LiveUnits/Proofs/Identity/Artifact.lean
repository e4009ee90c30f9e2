import LiveUnits.Proofs.Identity.Source

/-!
# Where artifacts are

The artifact of an identity is reached from a root through the names of `Identity.artifactNames`: the
segments, the last one followed by a dot and the extension.  Only the last name holds a dot, so no
artifact lies at or below the place of another one (`Identity.eq_of_artifactNames_prefix`).

If the extension is empty, there is no dot either: the place for an artifact is that of
`Identity.placeNames`, and it may be a directory with the artifacts of a namespace
(`Identity.segments_prefix_of_placeNames`).
-/

namespace LiveUnits

namespace Identity

/-- The names through which the artifact of an identity is reached. -/
def artifactNames (n : Identity) (extension : String) : List Name :=
  n.segments.dropLast.map Utf8.encode ++ [Utf8.encode n.simpleName ++ fullStop :: Utf8.encode extension]

theorem segments_eq (n : Identity) : n.segments = n.segments.dropLast ++ [n.simpleName] :=
  (List.dropLast_concat_getLast n.nonempty).symm

theorem valid_simpleName (n : Identity) : isSegment n.simpleName = true :=
  n.valid _ (List.getLast_mem n.nonempty)

/-- The names above an artifact are plain and hold no dot. -/
theorem plain_of_mem_front {n : Identity} {m : Name} (h : m ∈ n.segments.dropLast.map Utf8.encode) :
    PlainName m ∧ fullStop ∉ m := by
  obtain ⟨s, hs, rfl⟩ := List.mem_map.mp h
  have hvalid := n.valid s (List.dropLast_subset _ hs)
  exact ⟨plain_encode hvalid, fullStop_not_mem_encode hvalid⟩

/-- A segment followed by a dot and an extension can be the name of an entry. -/
theorem plain_artifactName {s extension : String} (hs : isSegment s = true)
    (hextension : '/' ∉ extension.toList) :
    PlainName (Utf8.encode s ++ fullStop :: Utf8.encode extension) := by
  have hne := Utf8.encode_ne_nil (not_isSegment_empty hs)
  have hdot := fullStop_not_mem_encode hs
  obtain ⟨a, rest, hform⟩ := List.exists_cons_of_ne_nil hne
  have ha : a ≠ fullStop := by
    rintro rfl
    exact hdot (by rw [hform]; exact List.mem_cons_self)
  refine ⟨by simp, ?_, ?_, ?_⟩
  · rw [List.mem_append, List.mem_cons, not_or, not_or]
    refine ⟨slash_not_mem_encode hs, by decide, fun h => hextension ?_⟩
    exact Utf8.mem_of_mem_encode (c := '/') (by decide) h
  · rw [hform]
    exact fun h => ha (List.cons.inj h).1
  · rw [hform]
    exact fun h => ha (List.cons.inj h).1

theorem artifactNames_ne_nil (n : Identity) (extension : String) : n.artifactNames extension ≠ [] :=
  List.append_ne_nil_of_right_ne_nil _ (List.cons_ne_nil _ _)

/-- The names on the way to an artifact are plain if the extension holds no separator. -/
theorem plain_artifactNames {n : Identity} {extension : String}
    (hextension : '/' ∉ extension.toList) : ∀ m ∈ n.artifactNames extension, PlainName m := by
  intro m hm
  rcases List.mem_append.mp hm with hm | hm
  · exact (plain_of_mem_front hm).1
  · obtain rfl := List.mem_singleton.mp hm
    exact plain_artifactName n.valid_simpleName hextension

/-- What is joined can be joined in two parts. -/
theorem joinBytes_append (p : Path) (bytes more : Bytes) :
    p.joinBytes (bytes ++ more) = ⟨(p.joinBytes bytes).bytes ++ more⟩ := by
  simp only [Path.joinBytes_eq, List.append_assoc]

/-- **An artifact is reached through its names.** -/
theorem artifactPath?_eq (n : Identity) (root : Path) {extension : String}
    (hne : extension.toList ≠ []) (hextension : '/' ∉ extension.toList) :
    n.artifactPath? root extension = some (root.descend (n.artifactNames extension)) := by
  unfold artifactPath? artifactNames
  rw [if_neg hextension]
  simp only
  rw [if_neg hne, Path.descend_concat, joinBytes_append,
    n.segments_eq, List.map_append, Path.descend_append]
  simp [Path.descend_cons, Path.descend_nil]

/-- **No artifact lies at or below the place of another one.** -/
theorem eq_of_artifactNames_prefix {n m : Identity} {extension : String}
    (h : n.artifactNames extension <+: m.artifactNames extension) : n = m := by
  rcases List.prefix_concat_iff.mp h with hsame | hfront
  · obtain ⟨hfront, hlast⟩ := List.append_inj' hsame rfl
    have hname := List.append_cancel_right (List.singleton_inj.mp hlast)
    have hsegments := List.map_injective_iff.mpr (fun _ _ => Utf8.encode_inj) hfront
    refine segments_inj ?_
    rw [n.segments_eq, m.segments_eq, hsegments, Utf8.encode_inj hname]
  · have hmem : Utf8.encode n.simpleName ++ fullStop :: Utf8.encode extension ∈
        m.segments.dropLast.map Utf8.encode := hfront.subset (by simp [artifactNames])
    exact absurd (by simp) (plain_of_mem_front hmem).2

/-! ## Places of artifacts -/

/-- The names through which the place for an artifact is reached.  Without an extension they are the
segments. -/
def placeNames (n : Identity) (extension : String) : List Name :=
  if extension.toList = [] then n.segments.map Utf8.encode else n.artifactNames extension

/-- **The place for an artifact is reached through its names**, whatever the extension. -/
theorem artifactPath?_eq_descend (n : Identity) (root : Path) {extension : String}
    (hextension : '/' ∉ extension.toList) :
    n.artifactPath? root extension = some (root.descend (n.placeNames extension)) := by
  by_cases hne : extension.toList = []
  · unfold artifactPath? placeNames
    simp only [if_neg hextension, if_pos hne]
  · unfold placeNames
    rw [if_neg hne, n.artifactPath?_eq root hne hextension]

/-- The last name of a place, and the plain names that lead to it. -/
theorem exists_placeNames (n : Identity) {extension : String} (hextension : '/' ∉ extension.toList) :
    ∃ front last, n.placeNames extension = front ++ [last] ∧ (∀ m ∈ front, PlainName m) ∧
      PlainName last := by
  have hfront : ∀ m ∈ n.segments.dropLast.map Utf8.encode, PlainName m := fun m hm =>
    (plain_of_mem_front hm).1
  by_cases hne : extension.toList = []
  · refine ⟨_, Utf8.encode n.simpleName, ?_, hfront, plain_encode n.valid_simpleName⟩
    unfold placeNames
    rw [if_pos hne, n.segments_eq, List.map_append, List.dropLast_concat]
    rfl
  · refine ⟨_, _, ?_, hfront, plain_artifactName n.valid_simpleName hextension⟩
    unfold placeNames
    rw [if_neg hne]
    rfl

/-- The place for an artifact is not below the place for another one, unless there is no extension and
the other unit has the name of a namespace. -/
theorem segments_prefix_of_placeNames {n m : Identity} {extension : String}
    (h : n.placeNames extension <+: m.placeNames extension) : n.segments <+: m.segments := by
  unfold placeNames at h
  split at h
  · obtain ⟨more, hmore⟩ := h
    obtain ⟨segments, rest, hsegments, hsame, -⟩ := List.map_eq_append_iff.mp hmore.symm
    obtain rfl := List.map_injective_iff.mpr (fun _ _ => Utf8.encode_inj) hsame
    exact ⟨rest, hsegments.symm⟩
  · obtain rfl := eq_of_artifactNames_prefix h
    exact List.prefix_refl _

end Identity

end LiveUnits
