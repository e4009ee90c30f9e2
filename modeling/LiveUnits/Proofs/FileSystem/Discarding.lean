import LiveUnits.Proofs.FileSystem.Descent
import LiveUnits.Proofs.FileSystem.Removal

/-!
# What discarding leaves

Discarding what is at a path is one of two removals, and it passes over one fault: that nothing was
there.  So if it succeeds, nothing is at the location of the path afterwards, whatever stood there before:
a file, a directory with everything below it, or a link to either (`FileSystem.gone_of_discard`).

The fault that is passed over must not hide anything.  It cannot if the path leads straight down from a
root, for then whatever stands at its location is found, unless the spelling of the path is refused
(`FileSystem.Arrives.locate_descend`).
-/

namespace LiveUnits

/-- A removal passes if it succeeds, or if it finds nothing to remove. -/
def Change.Passes (c : Change) : Prop := c.fault = none ∨ c.fault = some .notFound

namespace FileSystem

variable {fs fs' : FileSystem} {root p : Path} {L l : Location} {names : List Name}

/-! ## Finding what stands below a root -/

/-- What stands straight below a directory is found there, unless a name on the way is too long. -/
theorem walk_straight (hne : names ≠ []) (hplain : ∀ n ∈ names, PlainName n) {x : Node}
    (hx : fs.root.get? (l ++ names) = some x) (links : Nat) :
    fs.walk false false links l names =
      if ∀ n ∈ names, n.length ≤ nameLimit then .ok (.found (l ++ names) x)
      else .error .nameTooLong := by
  induction names generalizing l with
  | nil => exact absurd rfl hne
  | cons n rest ih =>
      have hn := hplain n List.mem_cons_self
      have hbelow : fs.root.get? (l ++ [n] ++ rest) = some x := by
        rw [List.append_assoc]
        exact hx
      obtain ⟨y, hy, hrest⟩ : ∃ y, fs.root.get? (l ++ [n]) = some y ∧ y.get? rest = some x := by
        rw [Node.get?_append] at hbelow
        exact Option.bind_eq_some_iff.mp hbelow
      obtain ⟨entries, hhere, hlookup⟩ := Node.directory_of_get?_concat hy
      by_cases hshort : n.length ≤ nameLimit
      · have hpart : LeadsDown n := ⟨hn.ne_here, hn.ne_up, hshort⟩
        simp only [List.forall_mem_cons, hshort, true_and]
        by_cases hnil : rest = []
        · subst hnil
          obtain rfl := Option.some.inj hrest
          rw [if_pos (fun _ h => (List.not_mem_nil h).elim), walk_enter hpart hhere, hlookup]
          cases y with
          | file contents => rfl
          | link target => rfl
          | directory below => exact walk_arrived hy
        · -- something is below, so this is a directory
          obtain ⟨m, more, rfl⟩ := List.exists_cons_of_ne_nil hnil
          have hdirectory : fs.HasDirectory (l ++ [n]) := by
            cases y with
            | directory below => exact ⟨below, hy⟩
            | file contents => cases hrest
            | link target => cases hrest
          rw [walk_down hpart hdirectory, ih hnil (fun k hk => hplain k (List.mem_cons_of_mem n hk)) hbelow,
            List.append_assoc]
          rfl
      · rw [if_neg fun h => hshort (h n List.mem_cons_self), walk, hhere]
        simp [hn.ne_here, hn.ne_up, Nat.not_le.mp hshort]

/-- How a path below a root is followed: from the directory that the root leads to. -/
theorem Arrives.locate_eq (h : fs.Arrives root L) (hne : names ≠ []) (hplain : ∀ n ∈ names, PlainName n)
    (haccepted : Accepted (root.descend names)) : ∃ left, ∀ follow trailing,
      fs.locateWith follow trailing (root.descend names) = fs.walk follow trailing left L names := by
  obtain ⟨entries, harrives⟩ := h
  obtain ⟨-, hroot⟩ := locateWith_eq_ok.mp harrives
  obtain ⟨left, hleft⟩ := hroot.walk_append
  have hstart : fs.start (root.descend names) = fs.start root := by
    unfold start
    rw [root.isAbsolute_descend hplain]
  refine ⟨left, fun follow trailing => ?_⟩
  rw [locateWith_of_accepted haccepted, hstart, root.steps_descend hplain, hleft _ _ _ hne]

/-- The path of what exists can be followed only if its spelling is accepted. -/
theorem Arrives.admitted_of_ok (h : fs.Arrives root L) (hne : names ≠ [])
    (hplain : ∀ n ∈ names, PlainName n) {x : Node} (hx : fs.root.get? (L ++ names) = some x) {spot : Spot}
    (hlocate : fs.locateWith false false (root.descend names) = .ok spot) :
    Accepted (root.descend names) ∧ ∀ n ∈ names, n.length ≤ nameLimit := by
  obtain ⟨haccepted, -⟩ := locateWith_eq_ok.mp hlocate
  obtain ⟨left, hwalk⟩ := h.locate_eq hne hplain haccepted
  rw [hwalk, walk_straight hne hplain hx] at hlocate
  refine ⟨haccepted, ?_⟩
  by_contra hlong
  rw [if_neg hlong] at hlocate
  cases hlocate

/-- **What stands straight below a root is found by its path**, unless the spelling is refused. -/
theorem Arrives.locate_descend (h : fs.Arrives root L) (hne : names ≠ [])
    (hplain : ∀ n ∈ names, PlainName n) {x : Node} (hx : fs.root.get? (L ++ names) = some x) :
    fs.locateWith false false (root.descend names) = .ok (.found (L ++ names) x) ↔
      Accepted (root.descend names) ∧ ∀ n ∈ names, n.length ≤ nameLimit := by
  refine ⟨h.admitted_of_ok hne hplain hx, fun ⟨haccepted, hshort⟩ => ?_⟩
  obtain ⟨left, hwalk⟩ := h.locate_eq hne hplain haccepted
  rw [hwalk, walk_straight hne hplain hx, if_pos hshort]

/-- A fault on the way to what exists does not say that nothing is there. -/
theorem Arrives.fault_ne_notFound (h : fs.Arrives root L) (hne : names ≠ [])
    (hplain : ∀ n ∈ names, PlainName n) {x : Node} (hx : fs.root.get? (L ++ names) = some x) {f : Fault}
    (hlocate : fs.locateWith false false (root.descend names) = .error f) : f ≠ .notFound := by
  rintro rfl
  have hbytes : (root.descend names).bytes ≠ [] := by
    obtain ⟨front, last, rfl⟩ := (List.eq_nil_or_concat' names).resolve_left hne
    rw [Path.descend_concat]
    exact Path.bytes_joinBytes_ne_nil _ (hplain last (by simp))
  by_cases haccepted : Accepted (root.descend names)
  · obtain ⟨left, hwalk⟩ := h.locate_eq hne hplain haccepted
    rw [hwalk, walk_straight hne hplain hx] at hlocate
    split at hlocate <;> cases hlocate
  · rw [locateWith, if_neg hbytes] at hlocate
    split at hlocate
    · cases hlocate
    · next hnul =>
      split at hlocate
      · cases hlocate
      · next hlong => exact haccepted ⟨hnul, hbytes, Nat.not_lt.mp hlong⟩

/-! ## Removing what was found -/

/-- A path that descends through plain names does not end in a separator. -/
theorem isTrailing_descend (root : Path) (hne : names ≠ []) (hplain : ∀ n ∈ names, PlainName n) :
    isTrailing (root.descend names) = false := by
  obtain ⟨front, last, rfl⟩ := (List.eq_nil_or_concat' names).resolve_left hne
  rw [Path.descend_concat]
  exact beq_false_of_ne (Path.not_trailing_joinBytes _ (hplain last (by simp)))

/-- A removal that is refused for any other reason than that nothing is there does not pass. -/
theorem not_passes_fail {f : Fault} (hf : f ≠ .notFound) : ¬ (fs.fail f).Passes := by
  rintro (h | h)
  · cases h
  · exact hf (Option.some.inj h)

/-- Discarding passes over the fault that nothing was there, and over no other one. -/
theorem passes_of_discard (h : (fs.discard p).fault = none) :
    (if fs.isDirectory p then fs.removeTree p else fs.removeFile p).Passes := by
  unfold discard at h
  generalize (if fs.isDirectory p then fs.removeTree p else fs.removeFile p) = change at h ⊢
  obtain ⟨fault, files⟩ := change
  cases fault with
  | none => exact .inl rfl
  | some f =>
      by_cases hf : f = .notFound
      · exact .inr (congrArg some hf)
      · simp [hf] at h

section Gone

variable {x : Node} (htidy : fs.root.Tidy) (hl : l ≠ [])

include htidy hl

/-- A file whose removal passes is gone. -/
theorem gone_of_removeFile (htrailing : isTrailing p = false)
    (hlocate : fs.locateWith false false p = .ok (.found l x)) (h : (fs.removeFile p).Passes) :
    (fs.removeFile p).files.root.get? l = none := by
  obtain ⟨-, hwalks⟩ := locateWith_eq_ok.mp hlocate
  have hgone := htidy.get?_put_none hl hwalks.get?_of_found
  cases x with
  | directory entries =>
      have hfails : fs.removeFile p = fs.fail .isDirectory := by rw [removeFile, hlocate]
      rw [hfails] at h
      exact absurd h (not_passes_fail (by decide))
  | file contents =>
      have hremoved : fs.removeFile p = (fs.put l none).done := by
        simp [removeFile, hlocate, htrailing]
      rwa [hremoved]
  | link target =>
      have hremoved : fs.removeFile p = (fs.put l none).done := by
        simp [removeFile, hlocate, htrailing]
      rwa [hremoved]

/-- A directory whose removal passes is gone. -/
theorem gone_of_removeDirectory {entries : List (Name × Node)}
    (hlocate : fs.locateWith false false p = .ok (.found l (.directory entries)))
    (h : (fs.removeDirectory p).Passes) : (fs.removeDirectory p).files.root.get? l = none := by
  obtain ⟨-, hwalks⟩ := locateWith_eq_ok.mp hlocate
  have hgone := htidy.get?_put_none hl hwalks.get?_of_found
  unfold removeDirectory at h ⊢
  rw [hlocate] at h ⊢
  simp only [if_neg hl] at h ⊢
  split_ifs at h ⊢
  · exact absurd h (not_passes_fail (by decide))
  · exact absurd h (not_passes_fail (by decide))
  · exact hgone
  · exact absurd h (not_passes_fail (by decide))

/-- A directory is emptied first; it has to be found again afterwards. -/
theorem gone_of_removeTree (htrailing : isTrailing p = false)
    (hlocate : fs.locateWith false false p = .ok (.found l x))
    (hemptied : (fs.put l (some (.directory []))).locateWith false false p =
      .ok (.found l (.directory [])))
    (h : (fs.removeTree p).Passes) : (fs.removeTree p).files.root.get? l = none := by
  have hsame : fs.locate false p = .ok (.found l x) := by rw [locate, htrailing, hlocate]
  cases x with
  | file contents =>
      have hfails : fs.removeTree p = fs.fail .notDirectory := by rw [removeTree, hsame]
      rw [hfails] at h
      exact absurd h (not_passes_fail (by decide))
  | link target =>
      have hremoved : fs.removeTree p = fs.removeFile p := by rw [removeTree, hsame]
      rw [hremoved] at h ⊢
      exact gone_of_removeFile htidy hl htrailing hlocate h
  | directory entries =>
      have hremoved : fs.removeTree p = (fs.put l (some (.directory []))).removeDirectory p := by
        rw [removeTree, hsame]
      rw [hremoved] at h ⊢
      exact gone_of_removeDirectory (tidy_put_found htidy hlocate tidy_empty) hl hemptied h

end Gone

/-! ## Discarding -/

/-- Where nothing is, discarding does nothing. -/
theorem files_discard_of_unfound (htrailing : isTrailing p = false)
    (h : ∀ l x, fs.locateWith false false p ≠ .ok (.found l x)) : (fs.discard p).files = fs := by
  have hfile : (fs.removeFile p).files = fs :=
    (removeFile_cases fs p).resolve_right fun ⟨l, x, hlocate, _⟩ => h l x hlocate
  have htree : (fs.removeTree p).files = fs := by
    rcases removeTree_cases fs p with hfiles | hfiles | ⟨l, entries, hlocate, -⟩
    · exact hfiles
    · exact hfiles.trans hfile
    · rw [locate, htrailing] at hlocate
      exact (h l _ hlocate).elim
  rw [files_discard, hfile, htree, ite_self]

/-- **Nothing is left where something was discarded.**  The root keeps leading to its directory, and the
way down stays open, whatever stands at the place itself. -/
theorem gone_of_discard (htidy : fs.root.Tidy) (hne : names ≠ []) (hplain : ∀ n ∈ names, PlainName n)
    (hway : ∀ fs', Apart (L ++ names) fs fs' → fs'.Arrives root L ∧ fs'.Open L names)
    (h : (fs.discard (root.descend names)).fault = none) :
    (fs.discard (root.descend names)).files.root.get? (L ++ names) = none := by
  obtain ⟨harrives, hopen⟩ := hway fs (Apart.refl _ fs)
  have htrailing := isTrailing_descend root hne hplain
  have hl : L ++ names ≠ [] := List.append_ne_nil_of_right_ne_nil L hne
  cases hx : fs.root.get? (L ++ names) with
  | none =>
      rw [files_discard_of_unfound htrailing fun l x hlocate => ?_, hx]
      obtain ⟨-, hwalks⟩ := locateWith_eq_ok.mp hlocate
      have hsame : l = L ++ names := location_descend harrives hne hplain hopen hlocate
      rw [← hsame, hwalks.get?_of_found] at hx
      cases hx
  | some x =>
      have hpasses := passes_of_discard h
      rw [files_discard]
      cases hlocate : fs.locateWith false false (root.descend names) with
      | error f =>
          -- what is there was not found, for another reason than that it is not there
          have hf := harrives.fault_ne_notFound hne hplain hx hlocate
          have hfile : fs.removeFile (root.descend names) = fs.fail f := by rw [removeFile, hlocate]
          have htree : fs.removeTree (root.descend names) = fs.fail f := by
            rw [removeTree, locate, htrailing, hlocate]
          rw [hfile, htree, ite_self] at hpasses
          exact absurd hpasses (not_passes_fail hf)
      | ok spot =>
          have hadmitted := harrives.admitted_of_ok hne hplain hx hlocate
          have hfound := (harrives.locate_descend hne hplain hx).mpr hadmitted
          have hapart := apart_put fs (L ++ names) (some (.directory []))
          have hemptied := ((hway _ hapart).1.locate_descend hne hplain
            (Node.get?_put_of_some hx (.directory []))).mpr hadmitted
          split_ifs at hpasses ⊢
          · exact gone_of_removeTree htidy hl htrailing hfound hemptied hpasses
          · exact gone_of_removeFile htidy hl htrailing hfound hpasses

/-- Discarding keeps a tree tidy. -/
theorem tidy_discard (htidy : fs.root.Tidy) (p : Path) : (fs.discard p).files.root.Tidy := by
  rw [files_discard]
  split
  · exact tidy_removeTree htidy p
  · exact tidy_removeFile htidy p

end FileSystem

end LiveUnits
