import LiveUnits.Proofs.Path.Joining

/-!
# How paths end

What is left of a path that ends in a plain name when the extension is taken off
(`Path.withoutExtension_joinBytes`), and where the paths above it lead: a path above another one is
spelt by a beginning of it that ends before a separator, so its steps come first among those of the
other (`Path.above_of_mem_ancestors`).
-/

namespace LiveUnits

namespace Path

/-! ## Dropping what counts for nothing -/

theorem head?_dropTrailingReversed (bytes : Bytes) :
    (dropTrailingReversed bytes).head? ≠ some slash := by
  fun_induction dropTrailingReversed bytes with
  | case1 => exact Option.some_ne_none slash ∘ Eq.symm
  | case2 rest ih => exact ih
  | case3 rest hdot ih => exact ih
  | case4 b rest hb hdot => simpa using hdot
  | case5 hdot => simpa using hdot
  | case6 a rest ha hdot => simpa using ha

/-- What is dropped from a reversed spelling ends in a separator. -/
theorem exists_dropTrailingReversed (bytes : Bytes) :
    ∃ dropped, bytes = dropped ++ dropTrailingReversed bytes ∧
      (dropped = [] ∨ dropped.getLast? = some slash) := by
  have hcons : ∀ (a : UInt8) (dropped : Bytes), (dropped = [] → a = slash) →
      (dropped = [] ∨ dropped.getLast? = some slash) → (a :: dropped).getLast? = some slash := by
    rintro a dropped ha (rfl | hlast)
    · rw [ha rfl]
      rfl
    · rw [List.getLast?_cons, hlast]
      rfl
  fun_induction dropTrailingReversed bytes with
  | case1 => exact ⟨[], rfl, .inl rfl⟩
  | case2 rest ih =>
      obtain ⟨dropped, hrest, hlast⟩ := ih
      exact ⟨slash :: dropped, congrArg (slash :: ·) hrest, .inr (hcons _ _ (fun _ => rfl) hlast)⟩
  | case3 rest hdot ih =>
      obtain ⟨dropped, hrest, hlast⟩ := ih
      have hne : dropped ≠ [] := by
        rintro rfl
        have hhead := head?_dropTrailingReversed (slash :: rest)
        rw [List.nil_append] at hrest
        rw [← hrest] at hhead
        exact hhead rfl
      exact ⟨fullStop :: dropped, congrArg (fullStop :: ·) hrest,
        .inr (hcons _ _ (fun hnil => absurd hnil hne) hlast)⟩
  | case4 => exact ⟨[], rfl, .inl rfl⟩
  | case5 => exact ⟨[], rfl, .inl rfl⟩
  | case6 => exact ⟨[], rfl, .inl rfl⟩

/-- What is dropped from the end of a spelling starts with a separator. -/
theorem exists_dropTrailing (bytes : Bytes) :
    ∃ dropped, bytes = dropTrailing bytes ++ dropped ∧
      (dropped = [] ∨ ∃ rest, dropped = slash :: rest) := by
  obtain ⟨dropped, hbytes, hlast⟩ := exists_dropTrailingReversed bytes.reverse
  refine ⟨dropped.reverse, ?_, ?_⟩
  · have hreverse := congrArg List.reverse hbytes
    rwa [List.reverse_reverse, List.reverse_append] at hreverse
  · rcases hlast with rfl | hlast
    · exact .inl rfl
    · obtain ⟨front, rfl⟩ := List.getLast?_eq_some_iff.mp hlast
      exact .inr ⟨front.reverse, by simp⟩

/-- Nothing is dropped from a spelling that ends in a plain name. -/
theorem dropTrailing_of_plain {n : Name} (hn : PlainName n) (front : Bytes) :
    dropTrailing (front ++ n) = front ++ n := by
  obtain ⟨stem, a, rfl⟩ : ∃ stem a, n = stem ++ [a] :=
    ⟨n.dropLast, n.getLast hn.ne_nil, (List.dropLast_concat_getLast hn.ne_nil).symm⟩
  have ha : a ≠ slash := by
    rintro rfl
    exact hn.no_slash (by simp)
  have hkeep : dropTrailingReversed (a :: (stem.reverse ++ front.reverse)) =
      a :: (stem.reverse ++ front.reverse) := by
    unfold dropTrailingReversed
    rw [if_neg ha]
    by_cases hdot : a = fullStop
    · subst hdot
      obtain ⟨b, rest, hstem⟩ : ∃ b rest, stem.reverse = b :: rest := by
        refine List.exists_cons_of_ne_nil fun hnil => hn.ne_here ?_
        rw [List.reverse_eq_nil_iff.mp hnil]
        rfl
      have hb : b ≠ slash := by
        rintro rfl
        refine hn.no_slash (List.mem_append_left _ (List.mem_reverse.mp ?_))
        rw [hstem]
        exact List.mem_cons_self
      rw [hstem, if_pos rfl]
      exact if_neg hb
    · exact if_neg hdot
  unfold dropTrailing
  rw [List.reverse_append, List.reverse_append, List.reverse_singleton, List.singleton_append,
    List.cons_append, hkeep]
  simp

/-! ## Names at the end -/

/-- The bytes that come before what is joined to a path. -/
def front (p : Path) : Bytes :=
  if p.bytes = [] ∨ p.bytes.getLast? = some slash then p.bytes else p.bytes ++ [slash]

/-- Joining puts bytes behind the front of a path. -/
theorem joinBytes_eq (p : Path) (bytes : Bytes) : p.joinBytes bytes = ⟨p.front ++ bytes⟩ := by
  unfold joinBytes front
  split <;> simp

/-- The name that was joined last is the file name. -/
theorem fileName?_joinBytes (p : Path) {n : Name} (hn : PlainName n) :
    (p.joinBytes n).fileName? = some n := by
  unfold fileName?
  rw [p.components_joinBytes hn, List.getLast?_concat]

/-- Cutting at the stem replaces the name at the end by its stem. -/
theorem cutAtStem_joinBytes (p : Path) {n : Name} (hn : PlainName n) :
    (p.joinBytes n).cutAtStem = p.joinBytes (splitExtension n).1 := by
  unfold cutAtStem
  rw [p.fileName?_joinBytes hn]
  simp only [joinBytes_eq, dropTrailing_of_plain hn, List.length_append, Nat.add_sub_cancel,
    List.take_left]

/-- A name with an extension is cut before its last dot. -/
theorem eq_of_splitExtension {n stem e : Bytes} (h : splitExtension n = (stem, some e)) :
    n = stem ++ fullStop :: e ∧ stem ≠ [] ∧ fullStop ∉ e := by
  unfold splitExtension at h
  cases hsplit : splitLast fullStop n with
  | none => simp [hsplit] at h
  | some parts =>
      obtain ⟨before, after⟩ := parts
      simp only [hsplit] at h
      split at h
      · cases h
      · next hne =>
        obtain ⟨rfl, rfl⟩ : before = stem ∧ after = e := by simpa using h
        obtain ⟨hn, hafter⟩ := eq_of_splitLast hsplit
        exact ⟨hn, hne, hafter⟩

/-- An extension without dots is split off behind the last dot. -/
theorem splitExtension_of_stem {stem e : Bytes} (hstem : stem ≠ []) (he : fullStop ∉ e) :
    splitExtension (stem ++ fullStop :: e) = (stem, some e) := by
  unfold splitExtension
  rw [splitLast_append he]
  exact if_neg hstem

/-- The stem of a plain name holds no separator. -/
theorem plain_stem {stem e : Bytes} (hn : PlainName (stem ++ fullStop :: e)) : slash ∉ stem :=
  fun h => hn.no_slash (List.mem_append_left _ h)

/-- **Taking the extension off** leaves the stem of the name at the end, unless the stem is a single
dot. -/
theorem withoutExtension_joinBytes (p : Path) {stem e : Bytes}
    (hn : PlainName (stem ++ fullStop :: e)) (hstem : stem ≠ []) (he : fullStop ∉ e) :
    (p.joinBytes (stem ++ fullStop :: e)).withoutExtension =
      if stem = [fullStop] then p.joinBytes [fullStop, fullStop] else p.joinBytes stem := by
  have hextension : (p.joinBytes (stem ++ fullStop :: e)).extension? = some e := by
    unfold extension?
    rw [p.fileName?_joinBytes hn, Option.bind_some, splitExtension_of_stem hstem he]
  have htake : (p.joinBytes (stem ++ fullStop :: e)).bytes.take
      ((p.joinBytes (stem ++ fullStop :: e)).bytes.length - e.length) =
        (p.joinBytes (stem ++ [fullStop])).bytes := by
    have hsplit : p.front ++ (stem ++ fullStop :: e) = p.front ++ (stem ++ [fullStop]) ++ e := by simp
    simp only [joinBytes_eq]
    rw [hsplit, List.length_append, Nat.add_sub_cancel, List.take_left]
  unfold withoutExtension
  rw [hextension]
  simp only [htake]
  show (p.joinBytes (stem ++ [fullStop])).cutAtStem = _
  split
  · next hdot =>
    subst hdot
    have hup : (p.joinBytes [fullStop, fullStop]).components = p.components ++ [.up] :=
      p.components_joinPart (by decide) rfl
    unfold cutAtStem fileName?
    rw [List.singleton_append, hup, List.getLast?_concat]
  · next hdot =>
    have hplain : PlainName (stem ++ [fullStop]) := by
      refine ⟨by simp, ?_, ?_, ?_⟩
      · rw [List.mem_append, not_or]
        exact ⟨plain_stem hn, by decide⟩
      · intro h
        exact hstem (by simpa using h)
      · intro h
        exact hdot (List.append_cancel_right (show stem ++ [fullStop] = [fullStop] ++ [fullStop] from h))
    rw [p.cutAtStem_joinBytes hplain, splitExtension_of_stem hstem List.not_mem_nil]

/-! ## Paths above -/

/-- One path leads to a place on the way of another one. -/
structure Above (q p : Path) : Prop where
  /-- Both start from the same place. -/
  start : q.isAbsolute = p.isAbsolute
  /-- The steps of one come first among those of the other. -/
  steps : FileSystem.steps q <+: FileSystem.steps p

/-- What is above something above a path is above the path. -/
theorem Above.trans {p q r : Path} (h : p.Above q) (h' : q.Above r) : p.Above r :=
  ⟨h.start.trans h'.start, h.steps.trans h'.steps⟩

/-- A spelling without steps is made of separators. -/
theorem getLast?_of_steps_eq_nil {bytes : Bytes} (h : FileSystem.steps ⟨bytes⟩ = []) (hne : bytes ≠ []) :
    bytes.getLast? = some slash := by
  induction bytes with
  | nil => exact absurd rfl hne
  | cons a rest ih =>
      have ha : a = slash := by
        by_contra ha
        unfold FileSystem.steps Path.parts at h
        simp [splitOn, LiveUnits.parts, ha] at h
      subst ha
      rw [show slash :: rest = [] ++ slash :: rest from rfl, FileSystem.steps_append_slash] at h
      cases rest with
      | nil => rfl
      | cons b more =>
          rw [List.getLast?_cons_cons]
          exact ih (List.append_eq_nil_iff.mp h).2 (List.cons_ne_nil b more)

theorem getLast?_dropTrailing (bytes : Bytes) : (dropTrailing bytes).getLast? ≠ some slash := by
  unfold dropTrailing
  rw [List.getLast?_reverse]
  exact head?_dropTrailingReversed bytes.reverse

/-- A spelling is cut after its last separator. -/
theorem exists_cut (bytes : Bytes) :
    ∃ tail, bytes = (bytes.reverse.dropWhile (· ≠ slash)).reverse ++ tail ∧
      ((bytes.reverse.dropWhile (· ≠ slash)).reverse = [] ∨
        (bytes.reverse.dropWhile (· ≠ slash)).reverse.getLast? = some slash) := by
  refine ⟨(bytes.reverse.takeWhile (· ≠ slash)).reverse, ?_, ?_⟩
  · rw [← List.reverse_append, List.takeWhile_append_dropWhile, List.reverse_reverse]
  · rw [List.getLast?_reverse, List.reverse_eq_nil_iff]
    have hhead := List.head?_dropWhile_not (fun a => decide (a ≠ slash)) bytes.reverse
    cases hdrop : bytes.reverse.dropWhile (· ≠ slash) with
    | nil => exact .inl rfl
    | cons a rest =>
        rw [hdrop] at hhead
        right
        simpa using hhead

/-- The parent of a path is empty, the root, or a beginning of the spelling that ends before a
separator. -/
theorem parent?_cases {p q : Path} (h : p.parent? = some q) :
    q.bytes = [] ∨ (q.bytes = [slash] ∧ p.isAbsolute) ∨
      q.bytes ≠ [] ∧ ∃ more, p.bytes = q.bytes ++ slash :: more := by
  obtain ⟨dropped, hbody, -⟩ := exists_dropTrailing p.bytes
  obtain ⟨tail, hrest, hlast⟩ := exists_cut (dropTrailing p.bytes)
  unfold parent? at h
  simp only at h
  generalize ((dropTrailing p.bytes).reverse.dropWhile (· ≠ slash)).reverse = rest at hrest hlast h
  have hq : q = ⟨if dropTrailing rest = [] ∧ p.isAbsolute then [slash] else dropTrailing rest⟩ := by
    split at h
    · cases h
    · cases h
    · exact (Option.some.inj h).symm
  obtain ⟨dropped', hcut, hdropped'⟩ := exists_dropTrailing rest
  by_cases hnil : dropTrailing rest = []
  · rw [hnil] at hq
    by_cases habsolute : p.isAbsolute
    · exact .inr (.inl ⟨by rw [hq, if_pos ⟨rfl, habsolute⟩], habsolute⟩)
    · exact .inl (by rw [hq, if_neg fun hboth => habsolute hboth.2])
  · right
    right
    have hspelling : q.bytes = dropTrailing rest := by rw [hq, if_neg fun hboth => hnil hboth.1]
    refine ⟨by rw [hspelling]; exact hnil, ?_⟩
    rcases hdropped' with rfl | ⟨more, rfl⟩
    · exfalso
      rw [List.append_nil] at hcut
      rcases hlast with hrest' | hslash
      · exact hnil (hcut ▸ hrest')
      · rw [hcut] at hslash
        exact getLast?_dropTrailing rest hslash
    · refine ⟨more ++ tail ++ dropped, ?_⟩
      rw [hspelling]
      calc p.bytes = dropTrailing p.bytes ++ dropped := hbody
        _ = rest ++ tail ++ dropped := by rw [← hrest]
        _ = dropTrailing rest ++ slash :: more ++ tail ++ dropped := by rw [← hcut]
        _ = dropTrailing rest ++ slash :: (more ++ tail ++ dropped) := by simp

/-- The parent is above. -/
theorem above_of_parent? {p q : Path} (h : p.parent? = some q) (hne : q.bytes ≠ []) : q.Above p := by
  obtain ⟨qbytes⟩ := q
  obtain ⟨pbytes⟩ := p
  rcases parent?_cases h with hnil | ⟨hroot, habsolute⟩ | ⟨-, more, hmore⟩
  · exact absurd hnil hne
  · obtain rfl : qbytes = [slash] := hroot
    exact ⟨habsolute.symm, List.nil_prefix⟩
  · obtain rfl : pbytes = qbytes ++ slash :: more := hmore
    refine ⟨?_, ?_⟩
    · obtain ⟨a, rest, rfl⟩ := List.exists_cons_of_ne_nil hne
      rfl
    · rw [FileSystem.steps_append_slash]
      exact List.prefix_append _ _

/-- The parent of a path that ends in a name is above what the name is joined to. -/
theorem above_of_parent?_joinBytes {p q : Path} {n : Name} (hn : PlainName n)
    (h : (p.joinBytes n).parent? = some q) (hne : q.bytes ≠ []) : q.Above p := by
  have habove := above_of_parent? h hne
  refine ⟨habove.start.trans (p.isAbsolute_joinBytes hn), ?_⟩
  have hbegins := habove.steps
  rw [FileSystem.steps_joinBytes p hn] at hbegins
  rcases List.prefix_concat_iff.mp hbegins with hall | hbegins
  · exfalso
    obtain ⟨qbytes⟩ := q
    rcases parent?_cases h with hnil | ⟨hroot, -⟩ | ⟨-, more, hmore⟩
    · exact hne hnil
    · obtain rfl : qbytes = [slash] := hroot
      exact List.append_ne_nil_of_right_ne_nil _ (List.cons_ne_nil n []) hall.symm
    · have hsteps : FileSystem.steps (p.joinBytes n) = FileSystem.steps ⟨qbytes ++ slash :: more⟩ :=
        congrArg (fun bytes => FileSystem.steps ⟨bytes⟩) hmore
      rw [FileSystem.steps_joinBytes p hn, FileSystem.steps_append_slash, hall] at hsteps
      have hmore' : FileSystem.steps ⟨more⟩ = [] := by simpa using hsteps
      refine p.not_trailing_joinBytes hn ?_
      rw [hmore]
      cases more with
      | nil => exact List.getLast?_concat
      | cons a rest =>
          rw [List.getLast?_append_cons, List.getLast?_cons_cons]
          exact getLast?_of_steps_eq_nil hmore' (List.cons_ne_nil a rest)
  · exact hbegins

/-- The parent of a path that ends in two plain names ends in the first of them. -/
theorem parent?_joinBytes_joinBytes (p : Path) {m n : Name} (hm : PlainName m) (hn : PlainName n) :
    ((p.joinBytes m).joinBytes n).parent? = some (p.joinBytes m) := by
  have hlast : ((p.joinBytes m).joinBytes n).components.getLast? = some (.name n) := by
    rw [(p.joinBytes m).components_joinBytes hn, List.getLast?_concat]
  have hbytes : ((p.joinBytes m).joinBytes n).bytes = p.front ++ m ++ slash :: n := by
    rw [joinBytes_eq_slash (p.bytes_joinBytes_ne_nil hm) (p.not_trailing_joinBytes hm), p.joinBytes_eq]
  have hrest : ((p.front ++ m ++ slash :: n).reverse.dropWhile (· ≠ slash)).reverse =
      p.front ++ m ++ [slash] := by
    have hkeep : ∀ a ∈ n.reverse, decide (a ≠ slash) = true := by
      intro a ha
      simpa using fun h : a = slash => hn.no_slash (h ▸ List.mem_reverse.mp ha)
    rw [List.reverse_append, List.reverse_cons, List.append_assoc, List.dropWhile_append_of_pos hkeep]
    simp
  have hcut : dropTrailing (p.front ++ m ++ [slash]) = p.front ++ m := by
    have hplain := dropTrailing_of_plain hm p.front
    unfold dropTrailing at hplain ⊢
    rw [List.reverse_append, List.reverse_singleton, List.singleton_append,
      dropTrailingReversed.eq_def]
    exact hplain
  have hne : p.front ++ m ≠ [] := List.append_ne_nil_of_right_ne_nil _ hm.ne_nil
  have hbody : dropTrailing (p.front ++ m ++ slash :: n) = p.front ++ m ++ slash :: n := by
    have hplain := dropTrailing_of_plain hn (p.front ++ m ++ [slash])
    rwa [List.append_assoc, List.singleton_append] at hplain
  unfold parent?
  rw [hlast]
  simp only [hbytes, hbody, hrest, hcut]
  rw [if_neg fun hboth => hne hboth.1, p.joinBytes_eq]

/-- Every path above another one leads to a place on its way. -/
theorem above_of_mem_ancestors {p q : Path} (h : q ∈ p.ancestors) (hne : q.bytes ≠ []) :
    q.Above p := by
  unfold ancestors at h
  generalize p.bytes.length + 1 = fuel at h
  induction fuel generalizing p with
  | zero => cases h
  | succ fuel ih =>
      unfold ancestorsUpTo at h
      rcases List.mem_cons.mp h with rfl | h
      · exact ⟨rfl, List.prefix_refl _⟩
      · cases hparent : p.parent? with
        | none => simp [hparent] at h
        | some parent =>
            rw [hparent, Option.map_some, Option.getD_some] at h
            by_cases hempty : parent.bytes = []
            · exfalso
              obtain ⟨bytes⟩ := parent
              obtain rfl : bytes = [] := hempty
              cases fuel with
              | zero => cases h
              | succ fuel =>
                  obtain rfl := List.mem_singleton.mp h
                  exact hne rfl
            · exact (ih h).trans (above_of_parent? hparent hempty)

end Path

end LiveUnits
