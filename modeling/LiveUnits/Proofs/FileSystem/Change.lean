import LiveUnits.Build.Basic
import LiveUnits.Proofs.FileSystem.Walk

/-!
# What changes touch

Making a directory puts an empty one at a vacant place (`makeDirectory_cases`), and making directories
does this for paths above only (`makeDirectories_induct`).  Discarding what is at a path touches its
location only (`apart_discard`).  All of these keep a tree tidy (`tidy_clear`).
-/

namespace LiveUnits

namespace FileSystem

variable {fs fs' : FileSystem} {p : Path}

/-! ## Changes at one location -/

/-- Two file systems look the same except at a location and below. -/
structure Apart (A : Location) (fs fs' : FileSystem) : Prop where
  /-- Both have the same working directory. -/
  cwd : fs'.cwd = fs.cwd
  /-- What is elsewhere looks the same. -/
  face : ∀ l, ¬ A <+: l → (fs'.root.get? l).map Node.face = (fs.root.get? l).map Node.face

theorem Apart.refl (A : Location) (fs : FileSystem) : Apart A fs fs := ⟨rfl, fun _ _ => rfl⟩

theorem Apart.trans {A : Location} {fs₁ fs₂ fs₃ : FileSystem} (h : Apart A fs₁ fs₂)
    (h' : Apart A fs₂ fs₃) : Apart A fs₁ fs₃ :=
  ⟨h'.cwd.trans h.cwd, fun l hl => (h'.face l hl).trans (h.face l hl)⟩

theorem Apart.symm {A : Location} (h : Apart A fs fs') : Apart A fs' fs :=
  ⟨h.cwd.symm, fun l hl => (h.face l hl).symm⟩

/-- Putting something at a location changes nothing elsewhere. -/
theorem apart_put (fs : FileSystem) (A : Location) (x : Option Node) : Apart A fs (fs.put A x) :=
  ⟨rfl, fun _ hl => Node.face_get?_put x hl fs.root⟩

/-- Where nothing was, nothing is disturbed. -/
theorem Apart.kept {A : Location} (h : Apart A fs fs') (hnone : fs.root.get? A = none) :
    Kept fs fs' := by
  refine ⟨h.cwd, fun l x hx => ?_⟩
  have hl : ¬ A <+: l := by
    intro hbegins
    rw [Node.get?_eq_none_of_prefix hnone hbegins] at hx
    cases hx
  rw [h.face l hl, hx]
  rfl

/-! ## Making directories -/

/-- Making a directory does nothing, or puts an empty one at a vacant place. -/
theorem makeDirectory_cases (fs : FileSystem) (p : Path) :
    (fs.makeDirectory p).files = fs ∨
      ∃ d name, fs.locateWith false false p = .ok (.vacant d name) ∧
        (fs.makeDirectory p).files = fs.put (d ++ [name]) (some (.directory [])) := by
  unfold makeDirectory
  split
  · exact .inl rfl
  · exact .inl rfl
  · next d name hlocate => exact .inr ⟨d, name, hlocate, rfl⟩

/-- What making a single directory preserves, making the missing ones preserves. -/
theorem makeAll_induct {P : FileSystem → Prop} {missing : List Path} {fs : FileSystem}
    (hstep : ∀ fs q, q ∈ missing → P fs → P (fs.makeDirectory q).files) (h : P fs) :
    P (makeMissing.makeAll fs missing).files := by
  induction missing generalizing fs with
  | nil => exact h
  | cons q rest ih =>
      have hmade := hstep fs q List.mem_cons_self h
      have hrest : ∀ fs q, q ∈ rest → P fs → P (fs.makeDirectory q).files := fun fs q hq =>
        hstep fs q (List.mem_cons_of_mem _ hq)
      unfold makeMissing.makeAll
      split
      · next fs' hchange =>
        rw [hchange] at hmade
        exact ih hrest hmade
      · split
        · exact ih hrest h
        · exact h

/-- A property that survives making a directory survives making all those that are missing. -/
theorem makeMissing_induct {P : FileSystem → Prop} {above missing : List Path} {fs : FileSystem}
    (hstep : ∀ fs q, q ∈ above ∨ q ∈ missing → q.bytes ≠ [] → P fs → P (fs.makeDirectory q).files)
    (hmissing : ∀ q ∈ missing, q.bytes ≠ []) (h : P fs) :
    P (fs.makeMissing above missing).files := by
  induction above generalizing missing with
  | nil => exact makeAll_induct (fun fs q hq => hstep fs q (.inr hq) (hmissing q hq)) h
  | cons q rest ih =>
      have hall : ∀ {fs}, P fs → P (makeMissing.makeAll fs missing).files :=
        makeAll_induct fun fs q hq => hstep fs q (.inr hq) (hmissing q hq)
      unfold makeMissing
      split
      · exact hall h
      · next hends =>
        have hne : q.bytes ≠ [] := fun hnil => hends (by simp [hnil])
        have hmade := hstep fs q (.inl List.mem_cons_self) hne h
        split
        · next fs' hchange =>
          rw [hchange] at hmade
          exact hall hmade
        -- what is above the path is missing too: the path waits until it has been made
        · refine ih (fun fs p hp => hstep fs p ?_) (List.forall_mem_cons.mpr ⟨hne, hmissing⟩)
          rcases hp with hp | hp
          · exact .inl (List.mem_cons_of_mem _ hp)
          · rcases List.mem_cons.mp hp with rfl | hp
            · exact .inl List.mem_cons_self
            · exact .inr hp
        · split
          · exact hall h
          · exact h

/-- What making a single directory preserves, making directories preserves. -/
theorem makeDirectories_induct {P : FileSystem → Prop} {p : Path}
    (hstep : ∀ fs q, q ∈ p.ancestors → q.bytes ≠ [] → P fs → P (fs.makeDirectory q).files)
    (h : P fs) : P (fs.makeDirectories p).files := by
  unfold makeDirectories
  split
  · exact h
  · refine makeMissing_induct (fun fs q hq => hstep fs q ?_) nofun h
    exact hq.resolve_right (List.not_mem_nil (a := q))

/-- Making a directory keeps what exists, and if it succeeds, the directory is there. -/
theorem kept_makeDirectory (fs : FileSystem) (p : Path) :
    Kept fs (fs.makeDirectory p).files ∧
      ((fs.makeDirectory p).fault = none → (fs.makeDirectory p).files.isDirectory p = true) := by
  unfold makeDirectory
  split
  · exact ⟨Kept.refl fs, nofun⟩
  · exact ⟨Kept.refl fs, nofun⟩
  · next d name hlocate =>
    obtain ⟨haccepted, hwalks⟩ := locateWith_eq_ok.mp hlocate
    obtain ⟨⟨entries, hd⟩, hvacant⟩ := hwalks.get?_of_vacant
    have hkept : Kept fs (fs.put (d ++ [name]) (some (.directory []))) :=
      (apart_put fs (d ++ [name]) _).kept hvacant
    refine ⟨hkept, fun _ => isDirectory_eq_true.mpr ⟨d ++ [name], [], ?_⟩⟩
    exact locateWith_eq_ok.mpr
      ⟨haccepted, hwalks.of_vacant hkept (Node.get?_put_self hd name _) fun _ => .inl rfl⟩

/-- Making directories leaves what exists. -/
theorem kept_makeDirectories (fs : FileSystem) (p : Path) : Kept fs (fs.makeDirectories p).files :=
  makeDirectories_induct (P := Kept fs) (fun fs' q _ _ h => h.trans (kept_makeDirectory fs' q).1)
    (Kept.refl fs)

/-- Making several directories leaves what exists. -/
theorem kept_makeAll (fs : FileSystem) (missing : List Path) :
    Kept fs (makeMissing.makeAll fs missing).files :=
  makeAll_induct (P := Kept fs) (fun fs' q _ h => h.trans (kept_makeDirectory fs' q).1) (Kept.refl fs)

/-- If all directories are made, all are there. -/
theorem isDirectory_of_makeAll {missing : List Path} {fs : FileSystem}
    (h : (makeMissing.makeAll fs missing).fault = none) :
    ∀ q ∈ missing, (makeMissing.makeAll fs missing).files.isDirectory q = true := by
  induction missing generalizing fs with
  | nil => exact fun q hq => (List.not_mem_nil hq).elim
  | cons q rest ih =>
      have hmade := (kept_makeDirectory fs q).2
      unfold makeMissing.makeAll at h ⊢
      split at h
      · next fs' hchange =>
        rw [hchange] at hmade
        exact List.forall_mem_cons.mpr ⟨(kept_makeAll fs' rest).isDirectory (hmade rfl), ih h⟩
      · next f fs' hchange =>
        split at h
        · next hthere =>
          rw [if_pos hthere]
          have hq : fs.isDirectory q = true := by simpa using (Bool.and_eq_true _ _ ▸ hthere).2
          exact List.forall_mem_cons.mpr ⟨(kept_makeAll fs rest).isDirectory hq, ih h⟩
        · cases h

/-- If the missing directories are made, all of them are there, with the first one above. -/
theorem isDirectory_of_makeMissing {above missing : List Path} {fs : FileSystem}
    (h : (fs.makeMissing above missing).fault = none) (q : Path)
    (hq : q ∈ missing ∨ above.head? = some q ∧ q.bytes ≠ [] ∧ q.parent?.isSome) :
    (fs.makeMissing above missing).files.isDirectory q = true := by
  induction above generalizing missing with
  | nil =>
      unfold makeMissing at h ⊢
      exact isDirectory_of_makeAll h q (hq.resolve_right (by simp))
  | cons p rest ih =>
      have hmade := (kept_makeDirectory fs p).2
      unfold makeMissing at h ⊢
      split at h
      · next hends =>
        rw [if_pos hends]
        refine isDirectory_of_makeAll h q (hq.resolve_right ?_)
        rintro ⟨hhead, hne, hparent⟩
        obtain rfl := Option.some.inj hhead
        rcases Bool.or_eq_true _ _ ▸ hends with hnil | hnone
        · exact hne (of_decide_eq_true hnil)
        · rw [Option.isNone_iff_eq_none] at hnone
          rw [hnone] at hparent
          cases hparent
      · next hends =>
        rw [if_neg hends]
        split at h
        · next fs' hchange =>
          rw [hchange] at hmade
          rcases hq with hq | ⟨hhead, -⟩
          · exact isDirectory_of_makeAll h q hq
          · obtain rfl := Option.some.inj hhead
            exact (kept_makeAll fs' missing).isDirectory (hmade rfl)
        · refine ih h (.inl ?_)
          rcases hq with hq | ⟨hhead, -⟩
          · exact List.mem_cons_of_mem p hq
          · exact List.mem_cons.mpr (.inl (Option.some.inj hhead).symm)
        · split at h
          · next hthere =>
            rw [if_pos hthere]
            rcases hq with hq | ⟨hhead, -⟩
            · exact isDirectory_of_makeAll h q hq
            · obtain rfl := Option.some.inj hhead
              have hp : fs.isDirectory p = true := by simpa using (Bool.and_eq_true _ _ ▸ hthere).2
              exact (kept_makeAll fs missing).isDirectory hp
          · cases h

/-- **Directories that were made are there.** -/
theorem isDirectory_of_makeDirectories (h : (fs.makeDirectories p).fault = none) (hne : p.bytes ≠ [])
    (hparent : p.parent?.isSome) : (fs.makeDirectories p).files.isDirectory p = true := by
  have hends : ¬ (decide (p.bytes = []) || p.parent?.isNone) = true := by
    rw [Bool.or_eq_true, not_or]
    exact ⟨by simpa using hne, by simpa [Option.isSome_iff_ne_none] using hparent⟩
  unfold makeDirectories at h ⊢
  rw [if_neg hends] at h ⊢
  exact isDirectory_of_makeMissing h p (.inr ⟨rfl, hne, hparent⟩)

/-! ## Removing -/

/-- Writing a file does nothing, or puts it where its path leads. -/
theorem write_cases (fs : FileSystem) (p : Path) (contents : Bytes) :
    (fs.write p contents).files = fs ∨
      ∃ spot, fs.locate true p = .ok spot ∧
        (fs.write p contents).files = fs.put spot.location (some (.file contents)) := by
  unfold write
  split
  · exact .inl rfl
  · next hlocate => exact .inr ⟨_, hlocate, rfl⟩
  · exact .inl rfl
  · next hlocate =>
    split
    · exact .inl rfl
    · exact .inr ⟨_, hlocate, rfl⟩

/-- Removing a file does nothing, or takes away what is at its location. -/
theorem removeFile_cases (fs : FileSystem) (p : Path) :
    (fs.removeFile p).files = fs ∨
      ∃ l x, fs.locateWith false false p = .ok (.found l x) ∧
        (fs.removeFile p).files = fs.put l none := by
  unfold removeFile
  split
  · exact .inl rfl
  · exact .inl rfl
  · exact .inl rfl
  · next l x _ hlocate =>
    split
    · exact .inl rfl
    · exact .inr ⟨l, x, hlocate, rfl⟩

/-- Removing a directory fails, or takes away the directory at its location. -/
theorem removeDirectory_cases (fs : FileSystem) (p : Path) :
    (∃ f, fs.removeDirectory p = fs.fail f) ∨
      ∃ l entries, fs.locateWith false false p = .ok (.found l (.directory entries)) ∧ l ≠ [] ∧
        fs.removeDirectory p = (fs.put l none).done := by
  unfold removeDirectory
  split
  · exact .inl ⟨_, rfl⟩
  · exact .inl ⟨_, rfl⟩
  · next l entries hlocate =>
    split
    · exact .inl ⟨_, rfl⟩
    · next hl =>
      split
      · exact .inl ⟨_, rfl⟩
      · split
        · exact .inl ⟨_, rfl⟩
        · split
          · exact .inr ⟨l, entries, hlocate, hl, rfl⟩
          · exact .inl ⟨_, rfl⟩
  · exact .inl ⟨_, rfl⟩

/-- Removing everything at a path does nothing, removes a link, or empties a directory and then
removes it. -/
theorem removeTree_cases (fs : FileSystem) (p : Path) :
    (fs.removeTree p).files = fs ∨ (fs.removeTree p).files = (fs.removeFile p).files ∨
      ∃ l entries, fs.locate false p = .ok (.found l (.directory entries)) ∧
        (fs.removeTree p).files = ((fs.put l (some (.directory []))).removeDirectory p).files := by
  unfold removeTree
  split
  · exact .inl rfl
  · exact .inl rfl
  · exact .inr (.inl rfl)
  · exact .inl rfl
  · next l entries hlocate => exact .inr (.inr ⟨l, entries, hlocate, rfl⟩)

/-- Discarding is removing, as far as the files are concerned. -/
theorem files_discard (fs : FileSystem) (p : Path) :
    (fs.discard p).files = if fs.isDirectory p then (fs.removeTree p).files else (fs.removeFile p).files := by
  unfold discard
  split
  · next f fs' hchange =>
    have hfiles : fs' = if fs.isDirectory p then (fs.removeTree p).files else (fs.removeFile p).files := by
      split at hchange <;> simp_all
    split <;> exact hfiles
  · split <;> rfl

/-- **Discarding touches the location of the path only**, if the path leads there whatever stands at
that location. -/
theorem apart_discard {A : Location} (htrailing : isTrailing p = false)
    (hlocation : ∀ fs' spot, Apart A fs fs' → fs'.locateWith false false p = .ok spot →
      spot.location = A) : Apart A fs (fs.discard p).files := by
  have hfile : Apart A fs (fs.removeFile p).files := by
    rcases removeFile_cases fs p with hsame | ⟨l, x, hlocate, hfiles⟩
    · rw [hsame]
      exact Apart.refl A fs
    · obtain rfl : l = A := hlocation fs _ (Apart.refl A fs) hlocate
      rw [hfiles]
      exact apart_put fs l none
  rw [files_discard]
  split
  · rcases removeTree_cases fs p with hsame | hlink | ⟨l, entries, hlocate, hfiles⟩
    · rw [hsame]
      exact Apart.refl A fs
    · rw [hlink]
      exact hfile
    · unfold locate at hlocate
      rw [htrailing] at hlocate
      obtain rfl : l = A := hlocation fs _ (Apart.refl A fs) hlocate
      have hemptied := apart_put fs l (some (.directory []))
      rw [hfiles]
      rcases removeDirectory_cases (fs.put l (some (.directory []))) p with
        ⟨f, hfails⟩ | ⟨l', entries', hlocate', -, hremoved⟩
      · rw [hfails]
        exact hemptied
      · obtain rfl : l' = l := hlocation _ _ hemptied hlocate'
        rw [hremoved]
        exact hemptied.trans (apart_put _ l' none)
  · exact hfile

/-- **What cannot be discarded** is there, or the path cannot be followed. -/
theorem fault_discard {f : Fault} (htrailing : isTrailing p = false)
    (h : (fs.discard p).fault = some f) :
    (∃ l x, fs.locate false p = .ok (.found l x)) ∨ fs.locate false p = .error f ∧ f ≠ .notFound := by
  have hremoved : (if fs.isDirectory p then fs.removeTree p else fs.removeFile p).fault = some f ∧
      f ≠ .notFound := by
    unfold discard at h
    generalize (if fs.isDirectory p then fs.removeTree p else fs.removeFile p) = change at h ⊢
    obtain ⟨fault, files⟩ := change
    cases fault with
    | none => cases h
    | some f' =>
        simp only at h
        split at h
        · cases h
        · next hf =>
          obtain rfl := Option.some.inj h
          exact ⟨rfl, hf⟩
  obtain ⟨hfault, hf⟩ := hremoved
  have hsame : fs.locateWith false false p = fs.locate false p := by rw [locate, htrailing]
  unfold removeTree removeFile at hfault
  rw [hsame] at hfault
  cases hlocate : fs.locate false p with
  | error f' =>
      right
      have hf' : some f' = some f := by simpa [hlocate, fail] using hfault
      exact ⟨congrArg Except.error (Option.some.inj hf'), hf⟩
  | ok spot =>
      cases spot with
      | found l x => exact .inl ⟨l, x, rfl⟩
      | vacant d name =>
          have hf' : some Fault.notFound = some f := by simpa [hlocate, fail] using hfault
          exact absurd (Option.some.inj hf').symm hf

/-! ## Tidiness -/

/-- The parts that lead somewhere are not empty and hold no separator. -/
theorem steps_spelt (p : Path) : ∀ part ∈ steps p, part ≠ [] ∧ slash ∉ part := by
  intro part hpart
  obtain ⟨hmem, hne⟩ := List.mem_filter.mp hpart
  exact ⟨by simpa using hne, not_mem_of_mem_splitOn hmem⟩

/-- A file system stays tidy when what a path leads to is replaced by something tidy. -/
theorem tidy_put_found (h : fs.root.Tidy) {follow trailing : Bool} {l : Location} {x : Node}
    (hlocate : fs.locateWith follow trailing p = .ok (.found l x)) {y : Option Node}
    (hy : ∀ z, y = some z → z.Tidy) : (fs.put l y).root.Tidy := by
  obtain ⟨-, hwalks⟩ := locateWith_eq_ok.mp hlocate
  obtain ⟨hplain, -⟩ := h.of_get? hwalks.get?_of_found
  exact h.put (fun n hn => hplain n (List.mem_of_getLast? hn)) hy

/-- A name that is missing can be the name of an entry. -/
theorem plain_last_of_vacant {follow trailing : Bool} {d : Location} {name : Name}
    (hlocate : fs.locateWith follow trailing p = .ok (.vacant d name)) :
    ∀ n, (d ++ [name]).getLast? = some n → PlainName n := by
  intro n hn
  obtain ⟨-, hwalks⟩ := locateWith_eq_ok.mp hlocate
  rw [List.getLast?_concat] at hn
  obtain rfl := Option.some.inj hn
  exact hwalks.plain_of_vacant (steps_spelt p)

/-- A file system stays tidy when something tidy is put where a path leads to nothing. -/
theorem tidy_put_vacant (h : fs.root.Tidy) {follow trailing : Bool} {d : Location} {name : Name}
    (hlocate : fs.locateWith follow trailing p = .ok (.vacant d name)) {y : Option Node}
    (hy : ∀ z, y = some z → z.Tidy) : (fs.put (d ++ [name]) y).root.Tidy :=
  h.put (plain_last_of_vacant hlocate) hy

theorem tidy_empty : ∀ z, some (Node.directory []) = some z → z.Tidy := by
  rintro z ⟨⟩
  exact .directory (fun _ h => (List.not_mem_nil h).elim) List.nodup_nil
    fun _ h => (List.not_mem_nil h).elim

/-- Making directories keeps a file system tidy. -/
theorem tidy_makeDirectories (h : fs.root.Tidy) (p : Path) : (fs.makeDirectories p).files.root.Tidy := by
  refine makeDirectories_induct (P := fun fs => fs.root.Tidy) (fun fs q _ _ h => ?_) h
  rcases makeDirectory_cases fs q with hsame | ⟨d, name, hlocate, hfiles⟩
  · rw [hsame]
    exact h
  · rw [hfiles]
    exact tidy_put_vacant h hlocate tidy_empty

/-- Removing a file keeps a file system tidy. -/
theorem tidy_removeFile (h : fs.root.Tidy) (p : Path) : (fs.removeFile p).files.root.Tidy := by
  rcases removeFile_cases fs p with hsame | ⟨l, x, hlocate, hfiles⟩
  · rw [hsame]
    exact h
  · rw [hfiles]
    exact tidy_put_found h hlocate (by rintro z ⟨⟩)

/-- Removing a tree keeps a file system tidy. -/
theorem tidy_removeTree (h : fs.root.Tidy) (p : Path) : (fs.removeTree p).files.root.Tidy := by
  rcases removeTree_cases fs p with hsame | hlink | ⟨l, entries, hlocate, hfiles⟩
  · rw [hsame]
    exact h
  · rw [hlink]
    exact tidy_removeFile h p
  · have hemptied := tidy_put_found h hlocate tidy_empty
    rw [hfiles]
    rcases removeDirectory_cases (fs.put l (some (.directory []))) p with
      ⟨f, hfails⟩ | ⟨l', entries', hlocate', -, hremoved⟩
    · rw [hfails]
      exact hemptied
    · rw [hremoved]
      exact tidy_put_found hemptied hlocate' (by rintro z ⟨⟩)

/-- **Clearing a directory keeps a tree tidy.** -/
theorem tidy_clear (h : fs.root.Tidy) (p : Path) : (fs.clear p).files.root.Tidy := by
  have hremoved := tidy_removeTree h p
  unfold clear
  split
  · next fs' hchange =>
    rw [hchange] at hremoved
    exact tidy_makeDirectories hremoved p
  · next f fs' hchange =>
    rw [hchange] at hremoved
    split
    · exact tidy_makeDirectories hremoved p
    · exact hremoved

end FileSystem

end LiveUnits
