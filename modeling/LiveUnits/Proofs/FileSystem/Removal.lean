import LiveUnits.Proofs.FileSystem.Change

/-!
# What removing a tree takes away

Removing everything at a path takes away a link, or what is in the directory that the path leads to, and
nothing else (`FileSystem.face_of_removeTree`).  Unless it fails for another reason than that nothing
is there, the path leads to no directory afterwards (`FileSystem.not_isDirectory_of_removeTree`): the
way to one would have been there before, since nothing comes to exist.
-/

namespace LiveUnits

namespace FileSystem

variable {fs fs' : FileSystem} {p : Path} {l : Location}

/-! ## Links and emptied directories -/

/-- Nothing is below a link. -/
theorem eq_of_prefix_of_link {target : Path} (hlink : fs.root.get? l = some (.link target))
    {l' : Location} (hbegins : l <+: l') {x : Node} (hx : fs.root.get? l' = some x) :
    x = .link target := by
  obtain ⟨below, rfl⟩ := hbegins
  rw [Node.get?_append, hlink] at hx
  cases below with
  | nil => exact (Option.some.inj hx).symm
  | cons n rest => cases hx

/-- Emptying a directory brings nothing into existence. -/
theorem kept_of_emptied {entries : List (Name × Node)}
    (h : fs.root.get? l = some (.directory entries)) :
    Kept (fs.put l (some (.directory []))) fs := by
  refine ⟨rfl, fun l' x hx => ?_⟩
  by_cases hbegins : l <+: l'
  · obtain ⟨below, rfl⟩ := hbegins
    have hemptied : (fs.put l (some (.directory []))).root.get? l = some (.directory []) :=
      Node.get?_put_of_some h (.directory [])
    rw [Node.get?_append, hemptied] at hx
    cases below with
    | nil =>
        obtain rfl := Option.some.inj hx
        rw [List.append_nil, h]
        rfl
    | cons n rest => cases hx
  · rw [← (apart_put fs l (some (.directory []))).face l' hbegins, hx]
    rfl

/-! ## What removing touches -/

/-- **Removing everything at a path** touches nothing, a link, or the directory that the path leads
to. -/
theorem removeTree_touches (fs : FileSystem) (p : Path) :
    (fs.removeTree p).files = fs ∨
      (∃ l target, fs.root.get? l = some (.link target) ∧
        (fs.removeTree p).files = fs.put l none) ∨
      ∃ l entries, fs.locate true p = .ok (.found l (.directory entries)) ∧
        Apart l fs (fs.removeTree p).files := by
  unfold removeTree
  split
  · exact .inl rfl
  · exact .inl rfl
  · next l target hlocate =>
    rcases removeFile_cases fs p with hsame | ⟨l', x, hlocate', hfiles⟩
    · exact .inl hsame
    · obtain ⟨-, hwalks⟩ := locateWith_eq_ok.mp hlocate
      rw [locate, hwalks.of_link.2.1, hlocate'] at hlocate
      obtain ⟨rfl, rfl⟩ := Spot.found.inj (Except.ok.inj hlocate)
      exact .inr (.inl ⟨l', target, hwalks.get?_of_found, hfiles⟩)
  · exact .inl rfl
  · next l entries hlocate =>
    have hfollowed := locateWith_followed hlocate (isTrailing p)
    have hemptied := apart_put fs l (some (.directory []))
    refine .inr (.inr ⟨l, entries, hfollowed, ?_⟩)
    rcases removeDirectory_cases (fs.put l (some (.directory []))) p with
      ⟨f, hfails⟩ | ⟨l', entries', hlocate', -, hremoved⟩
    · rw [hfails]
      exact hemptied
    · -- the emptied directory is found again where it was
      obtain ⟨-, hwalks⟩ := locateWith_eq_ok.mp hlocate
      obtain ⟨x, -, hagain⟩ := (kept_of_emptied hwalks.get?_of_found).locateWith
        (locateWith_followed hlocate' (isTrailing p))
      rw [hfollowed] at hagain
      obtain ⟨rfl, -⟩ := Spot.found.inj (Except.ok.inj hagain)
      rw [hremoved]
      exact hemptied.trans (apart_put _ l none)

/-- **A removal takes away what is in the directory that it names**, or a link, and nothing else. -/
theorem face_of_removeTree {x : Node} (hx : fs.root.get? l = some x) (hlink : x.isLink = false)
    (houtside : ∀ L entries, fs.locate true p = .ok (.found L (.directory entries)) → ¬ L <+: l) :
    ((fs.removeTree p).files.root.get? l).map Node.face = some x.face := by
  rcases removeTree_touches fs p with hsame | ⟨L, target, hL, hfiles⟩ | ⟨L, entries, hL, hapart⟩
  · rw [hsame, hx]
    rfl
  · have hl : ¬ L <+: l := by
      intro hbegins
      rw [eq_of_prefix_of_link hL hbegins hx] at hlink
      cases hlink
    rw [hfiles, (apart_put fs L none).face l hl, hx]
    rfl
  · rw [hapart.face l (houtside L entries hL), hx]
    rfl

/-! ## What is gone afterwards -/

/-- Where nothing is found, there is no directory. -/
theorem not_isDirectory_of_unfound (trailing : Bool)
    (h : ∀ l x, fs.locateWith false trailing p ≠ .ok (.found l x)) : fs.isDirectory p = false := by
  rw [← Bool.not_eq_true, isDirectory_eq_true]
  rintro ⟨L, entries, hL⟩
  obtain ⟨l, x, hl⟩ := exists_locateWith_unfollowed hL trailing
  exact h l x hl

/-- Where what was found is gone, and nothing else has come to exist, there is no directory. -/
theorem not_isDirectory_of_gone {trailing : Bool} {x : Node}
    (h : fs.locateWith false trailing p = .ok (.found l x)) (hkept : Kept fs' fs)
    (hgone : fs'.root.get? l = none) : fs'.isDirectory p = false := by
  refine not_isDirectory_of_unfound trailing fun l' y hl' => ?_
  obtain ⟨-, hwalks⟩ := locateWith_eq_ok.mp hl'
  obtain ⟨z, -, hagain⟩ := hkept.locateWith hl'
  rw [h] at hagain
  obtain ⟨rfl, -⟩ := Spot.found.inj (Except.ok.inj hagain)
  rw [hwalks.get?_of_found] at hgone
  cases hgone

/-- No directory is left at a path when its removal succeeds or finds nothing. -/
theorem not_isDirectory_of_removeDirectory (htidy : fs.root.Tidy)
    (h : (fs.removeDirectory p).fault = none ∨ (fs.removeDirectory p).fault = some .notFound) :
    (fs.removeDirectory p).files.isDirectory p = false := by
  rcases removeDirectory_cases fs p with ⟨f, hfails⟩ | ⟨l, entries, hlocate, hne, hremoved⟩
  · rw [hfails] at h ⊢
    obtain rfl : f = .notFound := h.elim nofun Option.some.inj
    show fs.isDirectory p = false
    -- whatever is found is refused for another reason
    refine not_isDirectory_of_unfound false fun l x hl => ?_
    have hfault := congrArg Change.fault hfails
    unfold removeDirectory at hfault
    rw [hl] at hfault
    cases x with
    | file contents => cases hfault
    | link target => cases hfault
    | directory entries =>
        simp only at hfault
        split_ifs at hfault <;> cases hfault
  · obtain ⟨-, hwalks⟩ := locateWith_eq_ok.mp hlocate
    have hgone := htidy.get?_put_none hne hwalks.get?_of_found
    rw [hremoved]
    exact not_isDirectory_of_gone hlocate ((apart_put fs l none).symm.kept hgone) hgone

/-- **A directory that was removed is gone**, and there is none where a removal finds nothing. -/
theorem not_isDirectory_of_removeTree (htidy : fs.root.Tidy)
    (h : (fs.removeTree p).fault = none ∨ (fs.removeTree p).fault = some .notFound) :
    (fs.removeTree p).files.isDirectory p = false := by
  cases hlocate : fs.locate false p with
  | error f =>
      have hfails : fs.removeTree p = fs.fail f := by rw [removeTree, hlocate]
      rw [hfails]
      exact not_isDirectory_of_unfound _ fun l x hl => nomatch hlocate.symm.trans hl
  | ok spot =>
      cases spot with
      | vacant d name =>
          have hfails : fs.removeTree p = fs.fail .notFound := by rw [removeTree, hlocate]
          rw [hfails]
          exact not_isDirectory_of_unfound _ fun l x hl => nomatch hlocate.symm.trans hl
      | found l x =>
          obtain ⟨-, hwalks⟩ := locateWith_eq_ok.mp hlocate
          cases x with
          | file contents =>
              have hfails : fs.removeTree p = fs.fail .notDirectory := by rw [removeTree, hlocate]
              rw [hfails] at h
              rcases h with h | h <;> cases h
          | link target =>
              obtain ⟨-, hplain, hne⟩ := hwalks.of_link
              have hsame : fs.locateWith false false p = fs.locate false p := by rw [locate, hplain]
              have hremoved : fs.removeTree p = (fs.put l none).done := by
                rw [removeTree, hlocate]
                simp [removeFile, hsame, hlocate, hplain]
              have hgone := htidy.get?_put_none hne hwalks.get?_of_found
              rw [hremoved]
              exact not_isDirectory_of_gone hlocate ((apart_put fs l none).symm.kept hgone) hgone
          | directory entries =>
              have hemptied : fs.removeTree p =
                  (fs.put l (some (.directory []))).removeDirectory p := by rw [removeTree, hlocate]
              rw [hemptied] at h ⊢
              exact not_isDirectory_of_removeDirectory
                (tidy_put_found htidy hlocate tidy_empty) h

end FileSystem

end LiveUnits
