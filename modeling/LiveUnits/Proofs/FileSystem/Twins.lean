import LiveUnits.Proofs.FileSystem.Removal
import LiveUnits.Proofs.FileSystem.Sameness

/-!
# Clearing what differs

Two file systems look the same except at one location, and a path stands for that location in both:
either a directory is there, or its name is missing in the directory above.  Then clearing the path has
the same fault in both and leaves them looking the same (`FileSystem.clear_of_apart`).

A directory is emptied before it is removed, so what was in it does not matter.  That the removal then
succeeds where the other file system has nothing needs a look at the last step of the path: a path
whose name is missing somewhere ends in that name, and not in `.` or `..`, which could not be removed.
-/

namespace LiveUnits

namespace FileSystem

variable {fs fs' : FileSystem} {p : Path} {L : Location}

/-- A path stands for a location: a directory is there, or its name is missing in its directory. -/
inductive StandsFor (fs : FileSystem) (p : Path) : Location → Prop
  | directory {L : Location} {entries : List (Name × Node)}
      (h : fs.locateWith false false p = .ok (.found L (.directory entries))) : StandsFor fs p L
  | vacant {d : Location} {name : Name} (h : fs.locateWith false false p = .ok (.vacant d name)) :
      StandsFor fs p (d ++ [name])

/-! ## Differences at one location -/

/-- Whatever is put at the location where file systems differ, they differ nowhere else. -/
theorem Apart.put (h : Apart L fs fs') (x y : Option Node) : Apart L (fs.put L x) (fs'.put L y) :=
  ((apart_put fs L x).symm.trans h).trans (apart_put fs' L y)

/-- Without a difference at the location there is none at all. -/
theorem Apart.same (h : Apart L fs fs') (htidy : fs.root.Tidy) (htidy' : fs'.root.Tidy)
    (hL : Option.Rel Node.Alike (fs.root.get? L) (fs'.root.get? L)) : Same fs fs' := by
  refine ⟨h.cwd, fun l => ?_, htidy, htidy'⟩
  by_cases hbelow : L <+: l
  · obtain ⟨m, rfl⟩ := hbelow
    rw [Node.get?_append, Node.get?_append]
    generalize fs.root.get? L = x, fs'.root.get? L = y at hL
    cases hL with
    | none => rfl
    | some hxy => exact hxy m
  · exact h.face l hbelow

/-- File systems that differ at one location look the same once the same stands there. -/
theorem Apart.same_of_put {x : Node} (h : Apart L fs fs') (htidy : (fs.put L (some x)).root.Tidy)
    (htidy' : (fs'.put L (some x)).root.Tidy) (hx : (fs.put L (some x)).root.get? L = some x)
    (hx' : (fs'.put L (some x)).root.get? L = some x) :
    Same (fs.put L (some x)) (fs'.put L (some x)) := by
  refine (h.put (some x) (some x)).same htidy htidy' ?_
  rw [hx, hx']
  exact .some (.refl x)

/-! ## The last step -/

/-- A trace to a vacant place that follows no link at its end takes the vacant name as its last step. -/
theorem Walks.last_of_vacant {links : Nat} {l : Location} {todo : List Bytes} {d : Location} {name : Name}
    (h : Walks fs false false links l todo (.vacant d name)) : todo.getLast? = some name := by
  generalize hspot : Spot.vacant d name = spot at h
  -- a step is not the last one if the rest of the trace has a last step
  have hcons {part : Bytes} {rest : List Bytes} (hrest : rest.getLast? = some name) :
      (part :: rest).getLast? = some name := by
    rw [List.getLast?_cons, hrest]
    rfl
  induction h with
  | arrived => cases hspot
  | here _ _ ih => exact hcons (ih hspot)
  | up _ _ ih => exact hcons (ih hspot)
  | vacant =>
      cases hspot
      rfl
  | down _ _ _ ih => exact hcons (ih hspot)
  | file => cases hspot
  | link => cases hspot
  | @through _ _ _ rest _ _ _ _ hgoes _ ih =>
      have hrest : rest ≠ [] := by simpa using hgoes
      have hlast := ih hspot
      rw [List.getLast?_append_of_ne_nil _ hrest] at hlast
      exact hcons hlast

/-! ## Clearing -/

/-- Removing the tree at a directory empties it and removes it. -/
theorem removeTree_of_directory {entries : List (Name × Node)}
    (h : fs.locateWith false false p = .ok (.found L (.directory entries))) :
    fs.removeTree p = (fs.put L (some (.directory []))).removeDirectory p := by
  have hlocate : fs.locate false p = .ok (.found L (.directory entries)) :=
    locateWith_of_more h rfl (by rintro (h | h) <;> cases h)
  rw [removeTree, hlocate]

/-- Nothing can be removed where the name is missing. -/
theorem removeTree_of_vacant {d : Location} {name : Name}
    (h : fs.locateWith false false p = .ok (.vacant d name)) : fs.removeTree p = fs.fail .notFound := by
  have hlocate : fs.locate false p = .ok (.vacant d name) :=
    locateWith_of_more h rfl (by rintro (h | h) <;> cases h)
  rw [removeTree, hlocate]

/-- Two directories are cleared alike, whatever is in them. -/
theorem clear_of_directories (htidy : fs.root.Tidy) (htidy' : fs'.root.Tidy) (h : Apart L fs fs')
    {entries entries' : List (Name × Node)}
    (hL : fs.locateWith false false p = .ok (.found L (.directory entries)))
    (hL' : fs'.locateWith false false p = .ok (.found L (.directory entries'))) :
    (fs.clear p).Same (fs'.clear p) := by
  obtain ⟨-, hwalks⟩ := locateWith_eq_ok.mp hL
  obtain ⟨-, hwalks'⟩ := locateWith_eq_ok.mp hL'
  have hemptied := h.same_of_put (tidy_put_found htidy hL tidy_empty)
    (tidy_put_found htidy' hL' tidy_empty) (Node.get?_put_of_some hwalks.get?_of_found _)
    (Node.get?_put_of_some hwalks'.get?_of_found _)
  refine clear_of_removeTree ?_
  rw [removeTree_of_directory hL, removeTree_of_directory hL']
  exact hemptied.removeDirectory p

/-- An empty directory is removed, unless a path with `.` or `..` at its end leads to it. -/
theorem removeDirectory_of_empty {name : Name} (hlast : lastStep? p = some name) (hplain : PlainName name)
    (hL : L ≠ []) (h : fs.locateWith false false p = .ok (.found L (.directory []))) :
    fs.removeDirectory p = (fs.put L none).done := by
  have hhere : lastStep? p ≠ some [fullStop] := fun hsame =>
    hplain.ne_here (Option.some.inj (hlast.symm.trans hsame))
  have hup : lastStep? p ≠ some [fullStop, fullStop] := fun hsame =>
    hplain.ne_up (Option.some.inj (hlast.symm.trans hsame))
  rw [removeDirectory, h]
  exact (if_neg hL).trans ((if_neg hhere).trans ((if_neg hup).trans (if_pos rfl)))

/-- A directory that is emptied here and made there is found by the path here as well. -/
theorem emptied_of_missing (htidy : fs.root.Tidy) (htidy' : fs'.root.Tidy) {d : Location} {name : Name}
    (h : Apart (d ++ [name]) fs fs') {entries : List (Name × Node)}
    (hL : fs.locateWith false false p = .ok (.found (d ++ [name]) (.directory entries)))
    (hL' : fs'.locateWith false false p = .ok (.vacant d name)) :
    (fs.put (d ++ [name]) (some (.directory []))).locateWith false false p =
      .ok (.found (d ++ [name]) (.directory [])) := by
  obtain ⟨haccepted, hwalks'⟩ := locateWith_eq_ok.mp hL'
  obtain ⟨⟨below, hd⟩, hnone⟩ := hwalks'.get?_of_vacant
  have hnew : (fs'.put (d ++ [name]) (some (.directory []))).root.get? (d ++ [name]) =
      some (.directory []) := Node.get?_put_self hd name _
  have hmade : (fs'.put (d ++ [name]) (some (.directory []))).locateWith false false p =
      .ok (.found (d ++ [name]) (.directory [])) := by
    have hkept : Kept fs' (fs'.put (d ++ [name]) (some (.directory []))) :=
      (apart_put fs' (d ++ [name]) _).kept hnone
    exact locateWith_eq_ok.mpr ⟨haccepted, hwalks'.of_vacant hkept hnew id⟩
  have hsame : Same (fs'.put (d ++ [name]) (some (.directory [])))
      (fs.put (d ++ [name]) (some (.directory []))) := by
    exact h.symm.same_of_put (tidy_put_vacant htidy' hL' tidy_empty)
      (tidy_put_found htidy hL tidy_empty) hnew
      (Node.get?_put_of_some (locateWith_eq_ok.mp hL).2.get?_of_found _)
  have hspot := hsame.locateWith false false p
  rw [hmade] at hspot
  generalize (fs.put (d ++ [name]) (some (.directory []))).locateWith false false p = spot at hspot ⊢
  cases hspot with
  | ok halike =>
      cases halike with
      | found hy =>
          obtain ⟨es, rfl⟩ := hy.of_directory
          rw [(empty_of_alike hy).mp rfl]

/-- Where one file system has a directory and the other one lacks the name, the directory is removed
without a trace. -/
theorem removeTree_of_missing (htidy : fs.root.Tidy) (htidy' : fs'.root.Tidy) {d : Location} {name : Name}
    (h : Apart (d ++ [name]) fs fs') {entries : List (Name × Node)}
    (hL : fs.locateWith false false p = .ok (.found (d ++ [name]) (.directory entries)))
    (hL' : fs'.locateWith false false p = .ok (.vacant d name)) :
    ∃ files, fs.removeTree p = files.done ∧ Same files fs' := by
  obtain ⟨-, hwalks'⟩ := locateWith_eq_ok.mp hL'
  have hplain : PlainName name := hwalks'.plain_of_vacant (steps_spelt p)
  have hne : d ++ [name] ≠ [] := List.append_ne_nil_of_right_ne_nil d (List.cons_ne_nil name [])
  have hemptied := emptied_of_missing htidy htidy' h hL hL'
  have htidied := tidy_put_found htidy hL tidy_empty
  refine ⟨(fs.put (d ++ [name]) (some (.directory []))).put (d ++ [name]) none, ?_, ?_⟩
  · rw [removeTree_of_directory hL]
    exact removeDirectory_of_empty hwalks'.last_of_vacant hplain hne hemptied
  · have hapart : Apart (d ++ [name])
        ((fs.put (d ++ [name]) (some (.directory []))).put (d ++ [name]) none) fs' :=
      (apart_put _ _ _).symm.trans ((apart_put fs _ _).symm.trans h)
    refine hapart.same (tidy_put_found htidied hemptied (by rintro z ⟨⟩)) htidy' ?_
    · have hgone := htidied.get?_put_none hne (locateWith_eq_ok.mp hemptied).2.get?_of_found
      rw [FileSystem.put, hgone, hwalks'.get?_of_vacant.2]
      exact .none

/-- **Clearing removes the difference**: one file system has a directory at the path where the other one
has nothing. -/
theorem clear_of_missing (htidy : fs.root.Tidy) (htidy' : fs'.root.Tidy) {d : Location} {name : Name}
    (h : Apart (d ++ [name]) fs fs') {entries : List (Name × Node)}
    (hL : fs.locateWith false false p = .ok (.found (d ++ [name]) (.directory entries)))
    (hL' : fs'.locateWith false false p = .ok (.vacant d name)) :
    (fs.clear p).Same (fs'.clear p) := by
  obtain ⟨files, hremoved, hsame⟩ := removeTree_of_missing htidy htidy' h hL hL'
  unfold clear
  rw [hremoved, removeTree_of_vacant hL']
  exact hsame.makeDirectories p

/-- **Clearing makes file systems look the same** that differ only at the location which is cleared. -/
theorem clear_of_apart (htidy : fs.root.Tidy) (htidy' : fs'.root.Tidy) (h : Apart L fs fs')
    (hL : fs.StandsFor p L) (hL' : fs'.StandsFor p L) : (fs.clear p).Same (fs'.clear p) := by
  cases hL with
  | directory hL =>
      generalize hplace : L = place at hL'
      cases hL' with
      | directory hL' =>
          subst hplace
          exact clear_of_directories htidy htidy' h hL hL'
      | vacant hL' =>
          subst hplace
          exact clear_of_missing htidy htidy' h hL hL'
  | @vacant d name hL =>
      generalize hplace : d ++ [name] = place at hL'
      cases hL' with
      | directory hL' =>
          subst hplace
          exact (clear_of_missing htidy' htidy h.symm hL' hL).symm
      | vacant hL' =>
          -- nothing is there in either, so nothing differs
          have hnone := (locateWith_eq_ok.mp hL).2.get?_of_vacant.2
          have hnone' := (locateWith_eq_ok.mp hL').2.get?_of_vacant.2
          rw [← hplace] at hnone'
          refine (h.same htidy htidy' ?_).clear p
          rw [hnone, hnone']
          exact .none

/-! ## The check of the roots -/

open LiveUnits.Path in
/-- A part that leads down is the name of a component. -/
theorem LeadsDown.ofPart?_eq {part : Bytes} (h : LeadsDown part) (hne : part ≠ []) :
    Component.ofPart? part = some (.name part) := by
  unfold Component.ofPart?
  rw [if_neg (not_or.mpr ⟨hne, h.ne_here⟩), if_neg h.ne_up]

open LiveUnits.Path in
/-- A trace through names that lead to something finds something. -/
theorem Walks.not_vacant {follow trailing : Bool} {links : Nat} {l : Location} {todo : List Bytes}
    {spot : Spot} (h : Walks fs follow trailing links l todo spot) (htodo : ∀ part ∈ todo, part ≠ [])
    {names : List Name} (hnames : todo.filterMap Component.ofPart? = names.map .name) {S : Location}
    {x : Node} (hx : fs.root.get? S = some x) (hlink : x.isLink = false) (hS : l ++ names <+: S)
    (d : Location) (name : Name) : spot ≠ .vacant d name := by
  -- a part that leads down is the first of the names
  have hfirst {l : Location} {part : Bytes} {rest : List Bytes} {names : List Name}
      (hpart : LeadsDown part) (hne : part ≠ [])
      (hnames : (part :: rest).filterMap Component.ofPart? = names.map .name)
      (hS : l ++ names <+: S) : ∃ others, rest.filterMap Component.ofPart? = others.map .name ∧
        l ++ [part] ++ others <+: S := by
    rw [List.filterMap_cons_some (hpart.ofPart?_eq hne)] at hnames
    cases names with
    | nil => cases hnames
    | cons n others =>
        obtain ⟨hn, hothers⟩ := List.cons.inj hnames
        obtain rfl := Component.name.inj hn
        exact ⟨others, hothers, by rwa [List.append_assoc, List.singleton_append]⟩
  induction h generalizing names with
  | arrived => nofun
  | here _ _ ih => exact ih (fun part h => htodo part (List.mem_cons_of_mem _ h)) hnames hS
  | up =>
      have hup : Component.ofPart? [fullStop, fullStop] = some .up := rfl
      rw [List.filterMap_cons_some hup] at hnames
      cases names with
      | nil => cases hnames
      | cons n others => cases (List.cons.inj hnames).1
  | vacant hpart h hnone =>
      obtain ⟨others, -, hbegins⟩ := hfirst hpart (htodo _ List.mem_cons_self) hnames hS
      have hmissing := Node.get?_eq_none_of_prefix (by rw [Node.get?_concat h, hnone])
        ((List.prefix_append _ others).trans hbegins)
      rw [hx] at hmissing
      cases hmissing
  | down hpart _ _ ih =>
      obtain ⟨others, hothers, hbegins⟩ := hfirst hpart (htodo _ List.mem_cons_self) hnames hS
      exact ih (fun part h => htodo part (List.mem_cons_of_mem _ h)) hothers hbegins
  | file => nofun
  | link => nofun
  | through hpart h =>
      obtain ⟨others, -, hbegins⟩ := hfirst hpart (htodo _ List.mem_cons_self) hnames hS
      rw [eq_of_prefix_of_link h ((List.prefix_append _ others).trans hbegins) hx] at hlink
      cases hlink

/-- The parts of a path whose first component is the root stand for its other components. -/
theorem isAbsolute_of_components {cs : List Path.Component} (h : p.components = .root :: cs) :
    p.isAbsolute = true ∧ (steps p).filterMap Path.Component.ofPart? = cs := by
  have hsteps : (steps p).filterMap Path.Component.ofPart? = Path.body p.bytes := by
    unfold steps Path.body
    rw [List.filterMap_filter]
    refine List.filterMap_congr fun part _ => ?_
    by_cases hpart : part = []
    · rw [hpart]
      rfl
    · simp [hpart]
  rw [p.components_eq] at h
  unfold Path.head at h
  split_ifs at h with habsolute hhere
  · exact ⟨habsolute, hsteps.trans (List.cons.inj h).2⟩
  · cases (List.cons.inj h).1
  · rw [List.nil_append] at h
    exact absurd (h ▸ List.mem_cons_self) (Path.root_not_mem_body p.bytes)

/-- A path whose components lead to something does not lack its last name. -/
theorem not_vacant_of_components {q : Path} {S : Location} (hq : fs.canonical q = .ok S)
    (h : p.components <+: .root :: S.map .name) (d : Location) (name : Name) :
    fs.locateWith false false p ≠ .ok (.vacant d name) := by
  intro hvacant
  obtain ⟨-, hwalks⟩ := locateWith_eq_ok.mp hvacant
  obtain ⟨x, hx⟩ := canonical_eq_ok.mp hq
  obtain ⟨-, hwalks'⟩ := locateWith_eq_ok.mp hx
  have hlink : x.isLink = false := by
    cases x with
    | file contents => rfl
    | directory entries => rfl
    | link target => cases hwalks'.of_link.1
  have hname : (.name name : Path.Component) ∈ p.components := by
    have hstep : name ∈ steps p := List.mem_of_getLast? hwalks.last_of_vacant
    rw [p.components_eq]
    refine List.mem_append_right _ (List.mem_filterMap.mpr ⟨name, (List.mem_filter.mp hstep).1, ?_⟩)
    exact Path.ofPart?_of_plain (hwalks.plain_of_vacant (steps_spelt p))
  rcases List.prefix_cons_iff.mp h with hnil | ⟨cs, hcs, hbegins⟩
  · rw [hnil] at hname
    cases hname
  · obtain ⟨names, hnames, rfl⟩ := List.prefix_map_iff.mp hbegins
    obtain ⟨habsolute, hbody⟩ := isAbsolute_of_components hcs
    have hstart : fs.start p = [] := if_pos habsolute
    rw [hstart] at hwalks
    exact hwalks.not_vacant (fun part hpart => (steps_spelt p part hpart).1) hbody
      hwalks'.get?_of_found hlink hnames d name rfl

/-- **The check lets roots pass** of which the source root is not in the place that the output root stands
for, nor spelt as if it were. -/
theorem not_liesInside {q : Path} (hL : fs.StandsFor p L)
    (hapart : ∀ S, fs.canonical q = .ok S → ¬ L <+: S) (hspelt : ¬ p.components <+: q.components)
    (hlocated : ¬ .root :: L.map .name <+: q.components) : fs.liesInside q p = false := by
  have hinjective : Function.Injective Path.Component.name := fun _ _ => Path.Component.name.inj
  have hplace : ¬ fs.placeOf p <+: fs.placeOf q := by
    cases hL with
    | directory hL =>
        have hp : fs.canonical p = .ok L := canonical_eq_ok.mpr ⟨_, locateWith_followed hL _⟩
        unfold placeOf
        rw [hp]
        cases hq : fs.canonical q with
        | error f => exact hlocated
        | ok S =>
            intro hbegins
            exact hapart S hq ((List.prefix_map_iff_of_injective hinjective).mp
              ((List.prefix_cons_inj _).mp hbegins))
    | @vacant d name hL =>
        have hp : fs.canonical p = .error .notFound := by
          have hlocate : fs.locate true p = .ok (.vacant d name) :=
            locateWith_of_more hL rfl fun _ => .inl rfl
          unfold canonical
          rw [hlocate]
          rfl
        unfold placeOf
        rw [hp]
        cases hq : fs.canonical q with
        | error f => exact hspelt
        | ok S => exact fun hbegins => not_vacant_of_components hq hbegins d name hL
  unfold liesInside
  rwa [← Bool.not_eq_true, List.isPrefixOf_iff_prefix]

end FileSystem

end LiveUnits
