import LiveUnits.Proofs.FileSystem.Change
import LiveUnits.Proofs.Linkage.Attempt

/-!
# File systems that look the same

Two trees are alike if they have the same faces at all locations; then they differ at most in the order
in which directories list their entries.  In file systems that look the same every path leads to the
same place, or fails with the same fault (`FileSystem.Same.locateWith`), and a change that is made in
both of them has the same fault in both and leaves them looking the same
(`FileSystem.Same.clear`, `FileSystem.Same.discard`).
-/

namespace LiveUnits

namespace Node

/-- Two nodes look the same, and so does everything below them. -/
def Alike (x y : Node) : Prop := ∀ l, (y.get? l).map face = (x.get? l).map face

theorem Alike.refl (x : Node) : x.Alike x := fun _ => rfl

theorem Alike.symm {x y : Node} (h : x.Alike y) : y.Alike x := fun l => (h l).symm

theorem Alike.trans {x y z : Node} (h : x.Alike y) (h' : y.Alike z) : x.Alike z :=
  fun l => (h' l).trans (h l)

/-- Nodes that are alike look the same themselves. -/
theorem Alike.face_eq {x y : Node} (h : x.Alike y) : y.face = x.face := Option.some.inj (h [])

theorem Alike.isFile_eq {x y : Node} (h : x.Alike y) : y.isFile = x.isFile := by
  have hface (z : Node) : z.face.isFile = z.isFile := by cases z <;> rfl
  rw [← hface, h.face_eq, hface]

theorem Alike.isDirectory_eq {x y : Node} (h : x.Alike y) : y.isDirectory = x.isDirectory := by
  have hface (z : Node) : z.face.isDirectory = z.isDirectory := by cases z <;> rfl
  rw [← hface, h.face_eq, hface]

theorem Alike.isLink_eq {x y : Node} (h : x.Alike y) : y.isLink = x.isLink := by
  have hface (z : Node) : z.face.isLink = z.isLink := by cases z <;> rfl
  rw [← hface, h.face_eq, hface]

/-- What is below one of two nodes that are alike is below the other one. -/
theorem Alike.get? {x y : Node} (h : x.Alike y) (l : Location) : Option.Rel Alike (x.get? l) (y.get? l) := by
  have hface := h l
  cases hx : x.get? l with
  | none =>
      rw [hx] at hface
      rw [Option.map_eq_none_iff.mp hface]
      exact .none
  | some x' =>
      rw [hx] at hface
      obtain ⟨y', hy, -⟩ := Option.map_eq_some_iff.mp hface
      rw [hy]
      refine .some fun m => ?_
      have hbelow := h (l ++ m)
      rwa [get?_append, get?_append, hx, hy] at hbelow

/-- Directories that are alike have alike entries under the same names. -/
theorem Alike.lookup {es es' : List (Name × Node)} (h : (directory es).Alike (directory es'))
    (name : Name) : Option.Rel Alike (es.lookup name) (es'.lookup name) := by
  have hchild := h.get? [name]
  have hone (entries : List (Name × Node)) : (directory entries).get? [name] = entries.lookup name := by
    rw [get?_cons, child?_directory]
    cases entries.lookup name <;> rfl
  rwa [hone, hone] at hchild

/-- Directories are alike if they have alike entries under the same names. -/
theorem alike_directory {es es' : List (Name × Node)}
    (h : ∀ name, Option.Rel Alike (es.lookup name) (es'.lookup name)) :
    (directory es).Alike (directory es') := by
  intro l
  cases l with
  | nil => rfl
  | cons name rest =>
      rw [get?_cons, get?_cons, child?_directory, child?_directory]
      have hname := h name
      generalize es.lookup name = x, es'.lookup name = y at hname
      cases hname with
      | none => rfl
      | some hxy => exact hxy rest

/-- A node that is alike a directory is one. -/
theorem Alike.of_directory {es : List (Name × Node)} {y : Node} (h : (directory es).Alike y) :
    ∃ es', y = directory es' := eq_directory_of_face h.face_eq

/-- Only the same file is like a file. -/
theorem Alike.of_file {contents : Bytes} {y : Node} (h : (file contents).Alike y) :
    y = file contents := eq_file_of_face h.face_eq

/-- Only the same link is like a link. -/
theorem Alike.of_link {target : Path} {y : Node} (h : (link target).Alike y) : y = link target :=
  eq_link_of_face h.face_eq

/-- Giving an entry nodes that are alike keeps directories alike. -/
theorem Alike.setEntry {es es' : List (Name × Node)} (h : (directory es).Alike (directory es'))
    (hdistinct : (es.map (·.1)).Nodup) (hdistinct' : (es'.map (·.1)).Nodup) {y y' : Option Node}
    (hy : Option.Rel Alike y y') (name : Name) :
    (directory (setEntry name y es)).Alike (directory (setEntry name y' es')) := by
  refine alike_directory fun other => ?_
  by_cases hother : other = name
  · subst hother
    cases hy with
    | none =>
        rw [lookup_setEntry_none other hdistinct, lookup_setEntry_none other hdistinct']
        exact .none
    | some hy =>
        rw [lookup_setEntry_self, lookup_setEntry_self]
        exact .some hy
  · rw [lookup_setEntry_ne hother, lookup_setEntry_ne hother]
    exact h.lookup other

/-- No two entries of a tidy directory have one name. -/
theorem Tidy.names_nodup {es : List (Name × Node)} (h : (Node.directory es).Tidy) :
    (es.map (·.1)).Nodup := by
  cases h with
  | directory _ hdistinct _ => exact hdistinct

/-- **Putting nodes that are alike keeps trees alike.** -/
theorem Alike.put {x x' : Node} (h : x.Alike x') (htidy : x.Tidy) (htidy' : x'.Tidy)
    {y y' : Option Node} (hy : Option.Rel Alike y y') (l : Location) :
    (x.put y l).Alike (x'.put y' l) := by
  induction l generalizing x x' with
  | nil =>
      cases hy with
      | none => exact h
      | some hy => exact hy
  | cons name rest ih =>
      cases x with
      | file contents =>
          obtain rfl := h.of_file
          exact .refl _
      | link target =>
          obtain rfl := h.of_link
          exact .refl _
      | directory es =>
          obtain ⟨es', rfl⟩ := h.of_directory
          cases rest with
          | nil => exact h.setEntry htidy.names_nodup htidy'.names_nodup hy name
          | cons next more =>
              have hlookup := h.lookup name
              cases hz : es.lookup name with
              | none =>
                  rw [hz] at hlookup
                  generalize hz' : es'.lookup name = z' at hlookup
                  cases hlookup
                  unfold Node.put
                  rw [hz, hz']
                  exact h
              | some z =>
                  rw [hz] at hlookup
                  generalize hz' : es'.lookup name = z' at hlookup
                  cases hlookup with
                  | @some _ w hzw =>
                      rw [put_cons hz y (List.cons_ne_nil next more),
                        put_cons hz' y' (List.cons_ne_nil next more)]
                      exact h.setEntry htidy.names_nodup htidy'.names_nodup
                        (.some (ih hzw (htidy.of_lookup hz).2 (htidy'.of_lookup hz').2)) name

end Node

/-- Two spots at one location, with nodes that are alike. -/
inductive Spot.Alike : Spot → Spot → Prop
  | found {l : Location} {x y : Node} (h : x.Alike y) : Alike (.found l x) (.found l y)
  | vacant (d : Location) (name : Name) : Alike (.vacant d name) (.vacant d name)

namespace FileSystem

/-- Two file systems look the same, and both are tidy. -/
structure Same (fs fs' : FileSystem) : Prop where
  /-- Both have the same working directory. -/
  cwd : fs'.cwd = fs.cwd
  alike : fs.root.Alike fs'.root
  left : fs.root.Tidy
  right : fs'.root.Tidy

variable {fs fs' : FileSystem}

theorem Same.refl (h : fs.root.Tidy) : Same fs fs := ⟨rfl, .refl _, h, h⟩

theorem Same.symm (h : Same fs fs') : Same fs' fs := ⟨h.cwd.symm, h.alike.symm, h.right, h.left⟩

theorem Same.trans {fs'' : FileSystem} (h : Same fs fs') (h' : Same fs' fs'') : Same fs fs'' :=
  ⟨h'.cwd.trans h.cwd, h.alike.trans h'.alike, h.left, h'.right⟩

/-! ## Following paths -/

/-- **A walk ends at the same place**, or with the same fault. -/
theorem Same.walk (h : Same fs fs') (follow trailing : Bool) (links : Nat) (l : Location)
    (todo : List Bytes) :
    Agree Spot.Alike (fs.walk follow trailing links l todo) (fs'.walk follow trailing links l todo) := by
  have hhere := h.alike.get? l
  rw [FileSystem.walk.eq_def fs, FileSystem.walk.eq_def fs']
  generalize fs.root.get? l = x, fs'.root.get? l = y at hhere
  cases hhere with
  | none => exact .error _
  | @some x y hxy =>
      cases x with
      | file contents =>
          obtain rfl := hxy.of_file
          exact .error _
      | link target =>
          obtain rfl := hxy.of_link
          exact .error _
      | directory entries =>
          obtain ⟨entries', rfl⟩ := hxy.of_directory
          cases todo with
          | nil => exact .ok (.found hxy)
          | cons part rest =>
              simp only
              split
              · exact h.walk follow trailing links l rest
              split
              · exact h.walk follow trailing links l.dropLast rest
              split
              · exact .error _
              -- the part is looked up in both directories
              have hlookup := hxy.lookup part
              generalize entries.lookup part = z, entries'.lookup part = z' at hlookup
              cases hlookup with
              | none =>
                  simp only
                  split
                  · exact .ok (.vacant l part)
                  · exact .error _
              | @some z z' hz =>
                  cases z with
                  | directory below =>
                      obtain ⟨below', rfl⟩ := hz.of_directory
                      exact h.walk follow trailing links (l ++ [part]) rest
                  | file contents =>
                      obtain rfl := hz.of_file
                      simp only
                      split
                      · exact .ok (.found hz)
                      · exact .error _
                  | link target =>
                      obtain rfl := hz.of_link
                      simp only
                      split
                      · exact .ok (.found hz)
                      · cases links with
                        | zero => exact .error _
                        | succ links => exact h.walk follow trailing links _ (linkSteps target ++ rest)
termination_by (links, todo.length)

/-- **Paths lead to the same locations** in file systems that look the same. -/
theorem Same.locateWith (h : Same fs fs') (follow trailing : Bool) (p : Path) :
    Agree Spot.Alike (fs.locateWith follow trailing p) (fs'.locateWith follow trailing p) := by
  unfold FileSystem.locateWith
  rw [h.cwd]
  split_ifs <;> first | exact .error _ | exact h.walk _ _ _ _ _

theorem Same.locate (h : Same fs fs') (follow : Bool) (p : Path) :
    Agree Spot.Alike (fs.locate follow p) (fs'.locate follow p) := h.locateWith follow (isTrailing p) p

/-- Paths lead to nodes that are alike. -/
theorem Same.node (h : Same fs fs') (p : Path) : Agree Node.Alike (fs.node p) (fs'.node p) := by
  have hspot := h.locate true p
  unfold FileSystem.node
  generalize fs.locate true p = x, fs'.locate true p = y at hspot
  cases hspot with
  | error f => exact .error f
  | ok hspot =>
      cases hspot with
      | found hxy => exact .ok hxy
      | vacant d name => exact .error _

/-- Resolved paths are the same. -/
theorem Same.canonical (h : Same fs fs') (p : Path) : fs'.canonical p = fs.canonical p := by
  have hspot := h.locate true p
  unfold FileSystem.canonical
  generalize fs.locate true p = x, fs'.locate true p = y at hspot
  cases hspot with
  | error f => rfl
  | ok hspot => cases hspot <;> rfl

/-- The same is read from files. -/
theorem Same.read (h : Same fs fs') (p : Path) : fs'.read p = fs.read p := by
  have hnode := h.node p
  unfold FileSystem.read
  generalize fs.node p = x, fs'.node p = y at hnode
  cases hnode with
  | error f => rfl
  | @ok x y hxy =>
      cases x with
      | file contents => rw [hxy.of_file]
      | link target => rw [hxy.of_link]
      | directory entries =>
          obtain ⟨entries', rfl⟩ := hxy.of_directory
          rfl

/-- The same paths lead to files in both. -/
theorem Same.isFile (h : Same fs fs') (p : Path) : fs'.isFile p = fs.isFile p := by
  have hnode := h.node p
  unfold FileSystem.isFile
  generalize fs.node p = x, fs'.node p = y at hnode
  cases hnode with
  | error f => rfl
  | ok hxy => exact hxy.isFile_eq

/-- The same paths lead to directories in both. -/
theorem Same.isDirectory (h : Same fs fs') (p : Path) : fs'.isDirectory p = fs.isDirectory p := by
  have hnode := h.node p
  unfold FileSystem.isDirectory
  generalize fs.node p = x, fs'.node p = y at hnode
  cases hnode with
  | error f => rfl
  | ok hxy => exact hxy.isDirectory_eq

/-- Directories list the same, each in its own order. -/
theorem Same.list (h : Same fs fs') (p : Path) :
    Agree (fun es es' => (Node.directory es).Alike (.directory es')) (fs.list p) (fs'.list p) := by
  have hnode := h.node p
  unfold FileSystem.list
  generalize fs.node p = x, fs'.node p = y at hnode
  cases hnode with
  | error f => exact .error f
  | @ok x y hxy =>
      cases x with
      | file contents =>
          obtain rfl := hxy.of_file
          exact .error _
      | link target =>
          obtain rfl := hxy.of_link
          exact .error _
      | directory entries =>
          obtain ⟨entries', rfl⟩ := hxy.of_directory
          exact .ok hxy

end FileSystem

/-! ## Changing files -/

/-- Two changes with the same fault, which leave file systems that look the same. -/
structure Change.Same (c c' : Change) : Prop where
  fault : c'.fault = c.fault
  files : FileSystem.Same c.files c'.files

theorem Change.Same.parts {c c' : Change} (h : c.Same c') : ∃ fault files files',
    c = ⟨fault, files⟩ ∧ c' = ⟨fault, files'⟩ ∧ FileSystem.Same files files' := by
  obtain ⟨fault, files⟩ := c
  obtain ⟨fault', files'⟩ := c'
  obtain ⟨hfault, hfiles⟩ := h
  exact ⟨fault, files, files', rfl, congrArg (Change.mk · files') hfault, hfiles⟩

theorem Change.Same.symm {c c' : Change} (h : c.Same c') : c'.Same c := ⟨h.fault.symm, h.files.symm⟩

namespace FileSystem

variable {fs fs' : FileSystem} {p : Path}

theorem Same.fail (h : Same fs fs') (f : Fault) : (fs.fail f).Same (fs'.fail f) := ⟨rfl, h⟩

theorem Same.done (h : Same fs fs') : fs.done.Same fs'.done := ⟨rfl, h⟩

/-- File systems still look the same when the same tidy node is put into both. -/
theorem Same.put (h : Same fs fs') {l : Location} (hl : ∀ n, l.getLast? = some n → PlainName n)
    {y : Option Node} (hy : ∀ z, y = some z → z.Tidy) : Same (fs.put l y) (fs'.put l y) := by
  refine ⟨h.cwd, h.alike.put h.left h.right ?_ l, h.left.put hl hy, h.right.put hl hy⟩
  cases y with
  | none => exact .none
  | some y => exact .some (.refl y)

/-- What was found is changed alike in both. -/
theorem Same.put_found (h : Same fs fs') {follow trailing : Bool} {l : Location} {x : Node}
    (hlocate : fs.locateWith follow trailing p = .ok (.found l x)) {y : Option Node}
    (hy : ∀ z, y = some z → z.Tidy) : Same (fs.put l y) (fs'.put l y) := by
  obtain ⟨-, hwalks⟩ := locateWith_eq_ok.mp hlocate
  obtain ⟨hplain, -⟩ := h.left.of_get? hwalks.get?_of_found
  exact h.put (fun n hn => hplain n (List.mem_of_getLast? hn)) hy

/-- The three ways in which a path is followed in both. -/
theorem Same.located (h : Same fs fs') (follow trailing : Bool) (p : Path) :
    (∃ f, fs.locateWith follow trailing p = .error f ∧ fs'.locateWith follow trailing p = .error f) ∨
    (∃ d name, fs.locateWith follow trailing p = .ok (.vacant d name) ∧
      fs'.locateWith follow trailing p = .ok (.vacant d name)) ∨
    ∃ l x y, fs.locateWith follow trailing p = .ok (.found l x) ∧
      fs'.locateWith follow trailing p = .ok (.found l y) ∧ x.Alike y := by
  have hspot := h.locateWith follow trailing p
  generalize fs.locateWith follow trailing p = x, fs'.locateWith follow trailing p = y at hspot
  cases hspot with
  | error f => exact .inl ⟨f, rfl, rfl⟩
  | ok hspot =>
      cases hspot with
      | vacant d name => exact .inr (.inl ⟨d, name, rfl, rfl⟩)
      | found hxy => exact .inr (.inr ⟨_, _, _, rfl, rfl, hxy⟩)

/-- What is put where the name was missing is put alike in both. -/
theorem Same.put_vacant (h : Same fs fs') {follow trailing : Bool} {d : Location} {name : Name}
    (hlocate : fs.locateWith follow trailing p = .ok (.vacant d name)) {y : Option Node}
    (hy : ∀ z, y = some z → z.Tidy) : Same (fs.put (d ++ [name]) y) (fs'.put (d ++ [name]) y) :=
  h.put (plain_last_of_vacant hlocate) hy

/-- Making a directory is the same change in both. -/
theorem Same.makeDirectory (h : Same fs fs') (p : Path) :
    (fs.makeDirectory p).Same (fs'.makeDirectory p) := by
  unfold FileSystem.makeDirectory
  rcases h.located false false p with ⟨f, hf, hf'⟩ | ⟨d, name, hd, hd'⟩ | ⟨l, x, y, hl, hl', -⟩
  · rw [hf, hf']
    exact h.fail f
  · rw [hd, hd']
    exact (h.put_vacant hd tidy_empty).done
  · rw [hl, hl']
    exact h.fail _

theorem tidy_contents {contents : Bytes} : ∀ z, some (Node.file contents) = some z → z.Tidy := by
  rintro z ⟨⟩
  exact .file contents

/-- Writing comes to the same. -/
theorem Same.write (h : Same fs fs') (p : Path) (contents : Bytes) :
    (fs.write p contents).Same (fs'.write p contents) := by
  unfold FileSystem.write FileSystem.locate
  rcases h.located true (isTrailing p) p with
    ⟨f, hf, hf'⟩ | ⟨d, name, hd, hd'⟩ | ⟨l, x, y, hl, hl', hxy⟩
  · rw [hf, hf']
    exact h.fail f
  · rw [hd, hd']
    simp only
    split
    · exact h.fail _
    · exact (h.put_vacant hd tidy_contents).done
  · rw [hl, hl']
    cases x with
    | file old =>
        obtain rfl := hxy.of_file
        exact (h.put_found hl tidy_contents).done
    | link target =>
        obtain rfl := hxy.of_link
        exact h.fail _
    | directory entries =>
        obtain ⟨entries', rfl⟩ := hxy.of_directory
        exact h.fail _

/-- Making several directories is the same change in both. -/
theorem Same.makeAll (h : Same fs fs') (missing : List Path) :
    (makeMissing.makeAll fs missing).Same (makeMissing.makeAll fs' missing) := by
  induction missing generalizing fs fs' with
  | nil => exact h.done
  | cons q rest ih =>
      obtain ⟨fault, files, files', hc, hc', hfiles⟩ := (h.makeDirectory q).parts
      unfold makeMissing.makeAll
      rw [hc, hc', h.isDirectory q]
      cases fault with
      | none => exact ih hfiles
      | some f =>
          simp only
          split
          · exact ih h
          · exact h.fail f

/-- Making the directories that are missing on the way to a path is the same change in both. -/
theorem Same.makeMissing (h : Same fs fs') (above missing : List Path) :
    (fs.makeMissing above missing).Same (fs'.makeMissing above missing) := by
  induction above generalizing missing with
  | nil => exact h.makeAll missing
  | cons q rest ih =>
      obtain ⟨fault, files, files', hc, hc', hfiles⟩ := (h.makeDirectory q).parts
      unfold FileSystem.makeMissing
      rw [hc, hc', h.isDirectory q]
      split
      · exact h.makeAll missing
      cases fault with
      | none => exact hfiles.makeAll missing
      | some f =>
          by_cases hf : f = .notFound
          · subst hf
            exact ih (q :: missing)
          · simp only
            split
            · exact h.makeAll missing
            · exact h.fail f

/-- Making directories comes to the same. -/
theorem Same.makeDirectories (h : Same fs fs') (p : Path) :
    (fs.makeDirectories p).Same (fs'.makeDirectories p) := by
  unfold FileSystem.makeDirectories
  split
  · exact h.done
  · exact h.makeMissing p.ancestors []

/-- Removing a file is the same change in both. -/
theorem Same.removeFile (h : Same fs fs') (p : Path) : (fs.removeFile p).Same (fs'.removeFile p) := by
  unfold FileSystem.removeFile
  rcases h.located false false p with ⟨f, hf, hf'⟩ | ⟨d, name, hd, hd'⟩ | ⟨l, x, y, hl, hl', hxy⟩
  · rw [hf, hf']
    exact h.fail f
  · rw [hd, hd']
    exact h.fail _
  · have hgone : Same (fs.put l none) (fs'.put l none) := h.put_found hl (by rintro z ⟨⟩)
    rw [hl, hl']
    cases x with
    | directory entries =>
        obtain ⟨entries', rfl⟩ := hxy.of_directory
        exact h.fail _
    | file contents =>
        obtain rfl := hxy.of_file
        simp only
        split
        · exact h.fail _
        · exact hgone.done
    | link target =>
        obtain rfl := hxy.of_link
        simp only
        split
        · exact h.fail _
        · exact hgone.done

/-- Of two directories that are alike both are empty, or neither is. -/
theorem empty_of_alike {es es' : List (Name × Node)} (h : (Node.directory es).Alike (.directory es')) :
    es = [] ↔ es' = [] := by
  have hone : ∀ {es es' : List (Name × Node)}, (Node.directory es).Alike (.directory es') → es = [] →
      es' = [] := by
    rintro _ es' h rfl
    cases es' with
    | nil => rfl
    | cons entry rest =>
        have hlookup := h.lookup entry.1
        rw [List.lookup_cons_self] at hlookup
        cases hlookup
  exact ⟨hone h, hone h.symm⟩

/-- Removing an empty directory is the same change in both. -/
theorem Same.removeDirectory (h : Same fs fs') (p : Path) :
    (fs.removeDirectory p).Same (fs'.removeDirectory p) := by
  unfold FileSystem.removeDirectory
  rcases h.located false false p with ⟨f, hf, hf'⟩ | ⟨d, name, hd, hd'⟩ | ⟨l, x, y, hl, hl', hxy⟩
  · rw [hf, hf']
    exact h.fail f
  · rw [hd, hd']
    exact h.fail _
  · have hgone : Same (fs.put l none) (fs'.put l none) := h.put_found hl (by rintro z ⟨⟩)
    rw [hl, hl']
    cases x with
    | file contents =>
        obtain rfl := hxy.of_file
        exact h.fail _
    | link target =>
        obtain rfl := hxy.of_link
        exact h.fail _
    | directory entries =>
        obtain ⟨entries', rfl⟩ := hxy.of_directory
        have hempty := empty_of_alike hxy
        simp only [← hempty]
        split_ifs <;> first | exact h.fail _ | exact hgone.done

/-- Removing a tree comes to the same. -/
theorem Same.removeTree (h : Same fs fs') (p : Path) : (fs.removeTree p).Same (fs'.removeTree p) := by
  unfold FileSystem.removeTree FileSystem.locate
  rcases h.located false (isTrailing p) p with
    ⟨f, hf, hf'⟩ | ⟨d, name, hd, hd'⟩ | ⟨l, x, y, hl, hl', hxy⟩
  · rw [hf, hf']
    exact h.fail f
  · rw [hd, hd']
    exact h.fail _
  · rw [hl, hl']
    cases x with
    | file contents =>
        obtain rfl := hxy.of_file
        exact h.fail _
    | link target =>
        obtain rfl := hxy.of_link
        exact h.removeFile p
    | directory entries =>
        obtain ⟨entries', rfl⟩ := hxy.of_directory
        exact (h.put_found hl tidy_empty).removeDirectory p

/-- Clearing comes to the same if removing does. -/
theorem clear_of_removeTree (h : (fs.removeTree p).Same (fs'.removeTree p)) :
    (fs.clear p).Same (fs'.clear p) := by
  obtain ⟨fault, files, files', hc, hc', hfiles⟩ := h.parts
  unfold FileSystem.clear
  rw [hc, hc']
  cases fault with
  | none => exact hfiles.makeDirectories p
  | some f =>
      simp only
      split
      · exact hfiles.makeDirectories p
      · exact ⟨rfl, hfiles⟩

/-- **Clearing comes to the same.** -/
theorem Same.clear (h : Same fs fs') (p : Path) : (fs.clear p).Same (fs'.clear p) :=
  clear_of_removeTree (h.removeTree p)

/-- **Discarding comes to the same.** -/
theorem Same.discard (h : Same fs fs') (p : Path) : (fs.discard p).Same (fs'.discard p) := by
  have hremoved : (if fs.isDirectory p then fs.removeTree p else fs.removeFile p).Same
      (if fs'.isDirectory p then fs'.removeTree p else fs'.removeFile p) := by
    rw [h.isDirectory p]
    split
    · exact h.removeTree p
    · exact h.removeFile p
  obtain ⟨fault, files, files', hc, hc', hfiles⟩ := hremoved.parts
  unfold FileSystem.discard
  rw [hc, hc']
  cases fault with
  | none => exact ⟨rfl, hfiles⟩
  | some f =>
      simp only
      split
      · exact hfiles.done
      · exact ⟨rfl, hfiles⟩

end FileSystem

end LiveUnits
