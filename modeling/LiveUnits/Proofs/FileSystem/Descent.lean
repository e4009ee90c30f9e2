import LiveUnits.Proofs.FileSystem.Change
import LiveUnits.Proofs.Path.Ending

/-!
# Going down from a root

A root that leads to a directory need not be spelt like the location of the directory: it may go up, and
go through links.  What names lead to below the root is the place below that directory, though, if
whatever is on the way down is a directory (`FileSystem.location_descend`).  Making the directories above
such a place makes them on the way down (`FileSystem.makeDirectories_descend_induct`).
-/

namespace LiveUnits

namespace FileSystem

variable {fs : FileSystem} {root : Path} {L : Location} {names : List Name}

/-- A root leads to a directory. -/
def Arrives (fs : FileSystem) (root : Path) (L : Location) : Prop :=
  ∃ entries, fs.locate true root = .ok (.found L (.directory entries))

/-- Whatever is on the way down through names is a directory. -/
def Open (fs : FileSystem) (L : Location) (names : List Name) : Prop :=
  ∀ front, front <+: names → front ≠ names → ∀ x, fs.root.get? (L ++ front) = some x →
    x.face = .directory []

/-- No link is on an open way. -/
theorem Open.not_link (h : fs.Open L names) {front : List Name} (hfront : front <+: names)
    (hne : front ≠ names) (target : Path) : fs.root.get? (L ++ front) ≠ some (.link target) := by
  intro hlink
  cases h front hfront hne _ hlink

/-- A way that is open is open up to every place on it. -/
theorem Open.upTo (h : fs.Open L names) {front : List Name} (hfront : front <+: names) :
    fs.Open L front := by
  refine fun init hinit hne => h init (hinit.trans hfront) ?_
  rintro rfl
  exact hne (hinit.eq_of_length_le hfront.length_le)

/-- The rest of an open way is open. -/
theorem Open.tail {n : Name} {rest : List Name} (h : fs.Open l (n :: rest)) :
    fs.Open (l ++ [n]) rest := by
  intro front hfront hends x hx
  refine h (n :: front) ((List.prefix_cons_inj _).mpr hfront) (fun hsame => hends (List.cons.inj hsame).2) x ?_
  rw [← hx, List.append_assoc]
  rfl

/-- A root leads where it led while what exists is kept. -/
theorem Arrives.of_kept {fs' : FileSystem} (h : fs.Arrives root L) (hkept : Kept fs fs') :
    fs'.Arrives root L := by
  obtain ⟨entries, harrives⟩ := h
  obtain ⟨x, hface, hlocate⟩ := hkept.locateWith harrives
  obtain ⟨entries', rfl⟩ := Node.eq_directory_of_face hface
  exact ⟨entries', hlocate⟩

/-! ## Where names lead -/

/-- Names below a root are followed from the directory that the root leads to, in every way of
following. -/
theorem Arrives.exists_walk_eq (h : fs.Arrives root L) (hne : names ≠ []) (hplain : ∀ n ∈ names, PlainName n) :
    ∃ left, ∀ follow trailing : Bool,
      fs.walk follow trailing linkLimit (fs.start (root.descend names)) (steps (root.descend names)) =
        fs.walk follow trailing left L names := by
  obtain ⟨entries, harrives⟩ := h
  obtain ⟨-, hroot⟩ := locateWith_eq_ok.mp harrives
  obtain ⟨left, hleft⟩ := hroot.walk_append
  have hstart : fs.start (root.descend names) = fs.start root := by
    unfold start
    rw [root.isAbsolute_descend hplain]
  rw [hstart, root.steps_descend hplain]
  exact ⟨left, fun follow trailing => hleft follow trailing names hne⟩

/-- Behind a root that leads to a directory, a walk follows the names from there. -/
theorem Arrives.walks (h : fs.Arrives root L) (hne : names ≠ []) (hplain : ∀ n ∈ names, PlainName n)
    {follow trailing : Bool} {spot : Spot}
    (hlocate : fs.locateWith follow trailing (root.descend names) = .ok spot) :
    ∃ left, Walks fs follow trailing left L names spot := by
  obtain ⟨left, hleft⟩ := h.exists_walk_eq hne hplain
  obtain ⟨-, hwalks⟩ := locateWith_eq_ok.mp hlocate
  exact ⟨left, walks_of_walk ((hleft follow trailing).symm.trans hwalks.walk_eq)⟩

/-- A path below a root leads to the same place whether a link at its end is followed or not, if nothing
on the way is a link. -/
theorem locateWith_of_unlinked (h : fs.Arrives root L) (hne : names ≠ []) (hplain : ∀ n ∈ names, PlainName n)
    (hlinks : ∀ front, front <+: names → ∀ target, fs.root.get? (L ++ front) ≠ some (.link target))
    {follow trailing : Bool} {spot : Spot}
    (hlocate : fs.locateWith follow trailing (root.descend names) = .ok spot) (follow' : Bool) :
    fs.locateWith follow' trailing (root.descend names) = .ok spot := by
  obtain ⟨left, hleft⟩ := h.exists_walk_eq hne hplain
  obtain ⟨haccepted, hwalks⟩ := locateWith_eq_ok.mp hlocate
  have hbelow : Walks fs follow trailing left L names spot :=
    walks_of_walk ((hleft follow trailing).symm.trans hwalks.walk_eq)
  have hwalk := (hbelow.of_unlinked hplain hlinks follow').walk_eq
  exact locateWith_eq_ok.mpr ⟨haccepted, walks_of_walk ((hleft follow' trailing).trans hwalk)⟩

/-- **Names lead straight down from the root**, if the way is open. -/
theorem location_descend (h : fs.Arrives root L) (hne : names ≠ [])
    (hplain : ∀ n ∈ names, PlainName n) (hopen : fs.Open L names) {spot : Spot}
    (hlocate : fs.locateWith false false (root.descend names) = .ok spot) :
    spot.location = L ++ names := by
  obtain ⟨left, hwalks⟩ := h.walks hne hplain hlocate
  refine hwalks.location_eq hplain fun front hfront hends => hopen.not_link hfront ?_
  exact hends.resolve_right (by simp)

/-- What a way that is open leads to stands straight below its start, or a link to it does. -/
theorem Walks.straight {l' : Location} {x : Node}
    (h : Walks fs follow trailing links l names (.found l' x)) (hplain : ∀ n ∈ names, PlainName n)
    (hopen : fs.Open l names) :
    fs.root.get? (l ++ names) = some x ∨ ∃ target, fs.root.get? (l ++ names) = some (.link target) := by
  induction names generalizing l links with
  | nil =>
      cases h with
      | arrived h =>
          rw [List.append_nil]
          exact .inl h
  | cons n rest ih =>
      obtain ⟨hn, hrest⟩ := List.forall_mem_cons.mp hplain
      have hbelow : l ++ n :: rest = l ++ [n] ++ rest := by simp
      rw [hbelow]
      cases h with
      | here => exact absurd rfl hn.ne_here
      | up => exact absurd rfl hn.ne_up
      | down _ _ next => exact ih next hrest hopen.tail
      | file _ h =>
          rw [List.append_nil]
          exact .inl h
      | link _ h =>
          rw [List.append_nil]
          exact .inl h
      | @through _ _ _ _ target _ _ h =>
          -- the link is no directory, so it stands at the end of the way
          have hend : rest = [] := by
            by_contra hmore
            have hbegins : [n] <+: n :: rest := (List.prefix_cons_inj _).mpr List.nil_prefix
            cases hopen [n] hbegins (by simpa using Ne.symm hmore) _ h
          subst hend
          rw [List.append_nil]
          exact .inr ⟨target, h⟩

/-- Before a file below a root there are directories. -/
theorem Arrives.isDirectory_front (h : fs.Arrives root L) {front names : List Name}
    (hplain : ∀ n ∈ names, PlainName n) (hfront : front <+: names) (hends : front ≠ names)
    (hfile : fs.isFile (root.descend names) = true) : fs.isDirectory (root.descend front) = true := by
  obtain ⟨more, rfl⟩ := hfront
  have hmore : more ≠ [] := fun hnil => hends (by rw [hnil, List.append_nil])
  obtain ⟨bytes, hread⟩ := exists_read_of_isFile hfile
  obtain ⟨l, hlocate⟩ := read_eq_ok.mp hread
  obtain ⟨haccepted, hwalks⟩ := locateWith_eq_ok.mp hlocate
  have hplain' : ∀ n ∈ front, PlainName n := fun n hn => hplain n (List.mem_append_left _ hn)
  have hsteps : steps (root.descend (front ++ more)) = steps (root.descend front) ++ more := by
    rw [root.steps_descend hplain, root.steps_descend hplain', List.append_assoc]
  have hstart : fs.start (root.descend (front ++ more)) = fs.start (root.descend front) := by
    unfold start
    rw [root.isAbsolute_descend hplain, root.isAbsolute_descend hplain']
  rw [hsteps, hstart] at hwalks
  obtain ⟨l', entries, hwalks'⟩ := hwalks.passes hmore (isTrailing (root.descend front))
  have hroot : root.bytes ≠ [] := by
    obtain ⟨_, harrives⟩ := h
    exact (locateWith_eq_ok.mp harrives).1.ne_nil
  have haccepted' : Accepted (root.descend front) := by
    refine haccepted.of_prefix ?_ fun hnil => hroot ?_
    · rw [Path.descend_append]
      exact Path.prefix_descend _ more
    · exact List.prefix_nil.mp (hnil ▸ root.prefix_descend front)
  exact isDirectory_eq_true.mpr ⟨l', entries, locateWith_eq_ok.mpr ⟨haccepted', hwalks'⟩⟩

/-- A vacant place on the way to names below the root is straight below the root. -/
theorem location_above (h : fs.Arrives root L) (hplain : ∀ n ∈ names, PlainName n)
    (hopen : fs.Open L names) {q : Path} (hq : q.Above (root.descend names)) {d : Location} {name : Name}
    (hlocate : fs.locateWith false false q = .ok (.vacant d name)) :
    ∃ front, front <+: names ∧ front ≠ [] ∧ d ++ [name] = L ++ front := by
  obtain ⟨entries, harrives⟩ := h
  obtain ⟨-, hroot⟩ := locateWith_eq_ok.mp harrives
  obtain ⟨-, hwalks⟩ := locateWith_eq_ok.mp hlocate
  have hstart : fs.start q = fs.start root := by
    unfold start
    rw [hq.start, root.isAbsolute_descend hplain]
  rw [hstart] at hwalks
  have hsteps := hq.steps
  rw [root.steps_descend hplain] at hsteps
  rcases List.prefix_or_prefix_of_prefix hsteps (List.prefix_append _ names) with hshort | hlong
  · -- everything on the way to the root exists
    exfalso
    obtain ⟨more, hmore⟩ := hshort
    have hwalk := hroot.walk_eq
    rw [← hmore, hwalks.walk_of_vacant] at hwalk
    split at hwalk <;> cases hwalk
  · obtain ⟨front, hfront⟩ := hlong
    rw [← hfront] at hsteps hwalks
    have hbegins : front <+: names := (List.prefix_append_right_inj _).mp hsteps
    have hne : front ≠ [] := by
      rintro rfl
      have hwalk := hroot.walk_eq
      have hvacant := hwalks.walk_of_vacant (isTrailing root) []
      rw [List.append_nil, List.append_nil, hwalk, if_pos rfl] at hvacant
      cases hvacant
    obtain ⟨left, hleft⟩ := hroot.walk_append
    have hbelow := hwalks.walk_eq
    rw [hleft false false front hne] at hbelow
    have hopen' := hopen.upTo hbegins
    refine ⟨front, hbegins, hne, ?_⟩
    refine (walks_of_walk hbelow).location_eq (fun n hn => hplain n (hbegins.subset hn)) ?_
    exact fun init hinit hends => hopen'.not_link hinit (hends.resolve_right (by simp))

/-! ## Making directories below a root -/

/-- **What putting a directory on the way down preserves, making the directories above a place
preserves**, if it keeps the way open. -/
theorem makeDirectories_descend_induct {P : FileSystem → Prop} {last : Name} {parent : Path}
    (hplain : ∀ n ∈ names, PlainName n) (hlast : PlainName last)
    (hparent : (root.descend (names ++ [last])).parent? = some parent)
    (hway : ∀ fs, P fs → fs.Arrives root L ∧ fs.Open L names)
    (hstep : ∀ (fs : FileSystem) d name front, P fs → fs.HasDirectory d →
      fs.root.get? (d ++ [name]) = none → front <+: names → front ≠ [] → d ++ [name] = L ++ front →
        P (fs.put (d ++ [name]) (some (.directory []))))
    (h : P fs) : P (fs.makeDirectories parent).files := by
  by_cases hempty : parent.bytes = []
  · have hnothing : (fs.makeDirectories parent).files = fs := by
      unfold makeDirectories
      rw [if_pos (by simp [hempty])]
      rfl
    rw [hnothing]
    exact h
  have habove : parent.Above (root.descend names) := by
    rw [Path.descend_concat] at hparent
    exact Path.above_of_parent?_joinBytes hlast hparent hempty
  refine makeDirectories_induct (P := P) (fun fs q hq hne hfs => ?_) h
  have hq' := (Path.above_of_mem_ancestors hq hne).trans habove
  rcases makeDirectory_cases fs q with hsame | ⟨d, name, hlocate, hfiles⟩
  · rw [hsame]
    exact hfs
  · obtain ⟨harrives, hopen⟩ := hway fs hfs
    obtain ⟨front, hbegins, hfront, hplace⟩ := location_above harrives hplain hopen hq' hlocate
    obtain ⟨-, hwalks⟩ := locateWith_eq_ok.mp hlocate
    obtain ⟨hd, hvacant⟩ := hwalks.get?_of_vacant
    rw [hfiles]
    exact hstep fs d name front hfs hd hvacant hbegins hfront hplace

end FileSystem

end LiveUnits
