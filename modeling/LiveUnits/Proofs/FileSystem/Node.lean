import LiveUnits.Proofs.Path.Joining

/-!
# Looking up and changing nodes

The face of a node is the node as it looks from outside: a file with its contents, a link with its
target, or a directory, whatever is in it.  Putting a node at a location changes the faces at and below
that location only (`Node.face_get?_put`).

A tree is tidy if in every directory the names of the entries are plain and no two are the same, as in
any real file system.  Changes at plain locations keep a tree tidy (`Node.Tidy.put`), and what is
removed from it is gone (`Node.Tidy.get?_put_none`).
-/

namespace LiveUnits

namespace Node

/-- The node without what a directory holds. -/
def face : Node → Node
  | directory _ => directory []
  | x => x

/-- What looks like a directory is one. -/
theorem eq_directory_of_face {x : Node} (h : x.face = directory []) :
    ∃ entries, x = directory entries := by
  cases x with
  | directory entries => exact ⟨entries, rfl⟩
  | file contents => cases h
  | link target => cases h

/-- What looks like a file is this file. -/
theorem eq_file_of_face {x : Node} {contents : Bytes} (h : x.face = (file contents).face) :
    x = file contents := by
  cases x with
  | directory entries => cases h
  | file contents' => exact h
  | link target => cases h

theorem eq_some_file_of_face {x : Option Node} {contents : Bytes}
    (h : x.map face = some (file contents).face) : x = some (file contents) := by
  obtain ⟨y, rfl, hface⟩ := Option.map_eq_some_iff.mp h
  rw [eq_file_of_face hface]

/-- What looks like a link is this link. -/
theorem eq_link_of_face {x : Node} {target : Path} (h : x.face = (link target).face) :
    x = link target := by
  cases x with
  | directory entries => cases h
  | file contents => cases h
  | link target' => exact h

@[simp] theorem child?_directory (entries : List (Name × Node)) (name : Name) :
    (directory entries).child? name = entries.lookup name := rfl

theorem get?_cons (x : Node) (name : Name) (rest : Location) :
    x.get? (name :: rest) = (x.child? name).bind fun y => y.get? rest := rfl

/-- What is at a location is found by way of any part of it. -/
theorem get?_append (x : Node) (l m : Location) :
    x.get? (l ++ m) = (x.get? l).bind fun y => y.get? m := by
  induction l generalizing x with
  | nil => rfl
  | cons name rest ih =>
      rw [List.cons_append, get?_cons, get?_cons, Option.bind_assoc]
      congr 1
      funext y
      exact ih y

/-- Below nothing there is nothing. -/
theorem get?_eq_none_of_prefix {x : Node} {l l' : Location} (h : x.get? l = none)
    (hbegins : l <+: l') : x.get? l' = none := by
  obtain ⟨m, rfl⟩ := hbegins
  rw [get?_append, h]
  rfl

/-- The node of an entry is below its directory. -/
theorem get?_concat {x : Node} {l : Location} {entries : List (Name × Node)}
    (h : x.get? l = some (directory entries)) (name : Name) :
    x.get? (l ++ [name]) = entries.lookup name := by
  rw [get?_append, h, Option.bind_some, get?_cons, child?_directory]
  cases entries.lookup name <;> rfl

/-- What has something below it is a directory. -/
theorem directory_of_get?_concat {x y : Node} {l : Location} {name : Name}
    (h : x.get? (l ++ [name]) = some y) :
    ∃ entries, x.get? l = some (directory entries) ∧ entries.lookup name = some y := by
  rw [get?_append] at h
  obtain ⟨z, hz, hchild⟩ := Option.bind_eq_some_iff.mp h
  rw [get?_cons] at hchild
  obtain ⟨w, hw, hnil⟩ := Option.bind_eq_some_iff.mp hchild
  obtain rfl := Option.some.inj hnil
  cases z with
  | directory entries => exact ⟨entries, hz, hw⟩
  | file contents => cases hw
  | link target => cases hw

/-- Nodes are made of what is below them. -/
theorem induct {P : Node → Prop} (file : ∀ contents, P (.file contents))
    (link : ∀ target, P (.link target))
    (directory : ∀ entries, (∀ name x, (name, x) ∈ entries → P x) → P (.directory entries)) :
    ∀ x, P x
  | .file contents => file contents
  | .link target => link target
  | .directory entries => directory entries fun _ x _ => induct file link directory x
termination_by x => sizeOf x
decreasing_by
  have hsmaller := List.sizeOf_lt_of_mem ‹_ ∈ entries›
  simp only [Prod.mk.sizeOf_spec] at hsmaller
  simp only [Node.directory.sizeOf_spec]
  omega

/-! ## Entries -/

/-- An entry that was set is found. -/
theorem lookup_setEntry_self (name : Name) (y : Node) (entries : List (Name × Node)) :
    (setEntry name (some y) entries).lookup name = some y := by
  induction entries with
  | nil => simp [setEntry]
  | cons entry rest ih =>
      obtain ⟨other, z⟩ := entry
      unfold setEntry
      split
      · simp
      · next hne =>
        rw [List.lookup_cons, beq_false_of_ne (Ne.symm hne)]
        exact ih

/-- The other entries stay. -/
theorem lookup_setEntry_ne {name other : Name} (hne : other ≠ name) (y : Option Node)
    (entries : List (Name × Node)) : (setEntry name y entries).lookup other = entries.lookup other := by
  induction entries with
  | nil =>
      cases y with
      | none => rfl
      | some y =>
          rw [show setEntry name (some y) [] = [(name, y)] from rfl, List.lookup_cons,
            beq_false_of_ne hne]
  | cons entry rest ih =>
      obtain ⟨first, z⟩ := entry
      unfold setEntry
      split
      · next hfirst =>
        subst hfirst
        rw [List.lookup_cons, beq_false_of_ne hne]
        cases y with
        | none => rfl
        | some y =>
            rw [Option.toList_some, List.map_singleton, List.singleton_append, List.lookup_cons,
              beq_false_of_ne hne]
      · rw [List.lookup_cons, List.lookup_cons, ih]

/-- The name of an entry that is removed is free, if no other entry has it. -/
theorem lookup_setEntry_none (name : Name) {entries : List (Name × Node)}
    (h : (entries.map (·.1)).Nodup) : (setEntry name none entries).lookup name = none := by
  induction entries with
  | nil => rfl
  | cons entry rest ih =>
      obtain ⟨other, z⟩ := entry
      obtain ⟨hother, hrest⟩ := List.nodup_cons.mp h
      unfold setEntry
      split
      · next hname =>
        subst hname
        show rest.lookup other = none
        refine List.lookup_eq_none_iff.mpr fun entry hentry => bne_iff_ne.mpr ?_
        rintro rfl
        exact hother (List.mem_map.mpr ⟨entry, hentry, rfl⟩)
      · next hname =>
        rw [List.lookup_cons, beq_false_of_ne (Ne.symm hname)]
        exact ih hrest

/-! ## Putting -/

/-- **Putting a node changes nothing that is neither at nor below its location.** -/
theorem face_get?_put (y : Option Node) {l l' : Location} (h : ¬ l <+: l') (x : Node) :
    ((x.put y l).get? l').map face = (x.get? l').map face := by
  induction l generalizing x l' with
  | nil => exact absurd List.nil_prefix h
  | cons name rest ih =>
      cases x with
      | file contents => rfl
      | link target => rfl
      | directory entries =>
          cases l' with
          | nil =>
              unfold put
              split
              · rfl
              · split <;> rfl
          | cons other rest' =>
              rw [get?_cons, get?_cons, child?_directory]
              by_cases hname : other = name
              · subst hname
                have hrest : ¬ rest <+: rest' := fun hrest => h ((List.prefix_cons_inj _).mpr hrest)
                unfold put
                cases rest with
                | nil => exact absurd List.nil_prefix hrest
                | cons next more =>
                    simp only
                    cases hchild : entries.lookup other with
                    | none => simp only [child?_directory, hchild]
                    | some z =>
                        simp only [child?_directory, lookup_setEntry_self]
                        exact ih hrest z
              · unfold put
                split
                · rw [child?_directory, lookup_setEntry_ne hname]
                · split
                  · rw [child?_directory, lookup_setEntry_ne hname]
                  · rw [child?_directory]

/-- Putting below an entry changes the entry. -/
theorem put_cons {entries : List (Name × Node)} {name : Name} {x : Node}
    (h : entries.lookup name = some x) (y : Option Node) {rest : Location} (hne : rest ≠ []) :
    (directory entries).put y (name :: rest) =
      directory (setEntry name (some (x.put y rest)) entries) := by
  obtain ⟨next, more, rfl⟩ := List.exists_cons_of_ne_nil hne
  conv_lhs => unfold put
  simp only [h]

/-- Putting in an existing directory changes its entries. -/
theorem get?_put {x : Node} {d : Location} {entries : List (Name × Node)}
    (h : x.get? d = some (directory entries)) (name : Name) (y : Option Node) :
    (x.put y (d ++ [name])).get? d = some (directory (setEntry name y entries)) := by
  induction d generalizing x with
  | nil =>
      obtain rfl := Option.some.inj h
      rfl
  | cons first rest ih =>
      rw [get?_cons] at h
      obtain ⟨z, hz, hrest⟩ := Option.bind_eq_some_iff.mp h
      cases x with
      | file contents => cases hz
      | link target => cases hz
      | directory es =>
          rw [child?_directory] at hz
          rw [List.cons_append, put_cons hz y (List.append_ne_nil_of_right_ne_nil rest
            (List.cons_ne_nil name [])), get?_cons, child?_directory, lookup_setEntry_self]
          exact ih hrest

/-- A directory is left below its own location only. -/
theorem get?_put_self {x : Node} {d : Location} {entries : List (Name × Node)}
    (h : x.get? d = some (directory entries)) (name : Name) (y : Node) :
    (x.put (some y) (d ++ [name])).get? (d ++ [name]) = some y := by
  rw [get?_concat (get?_put h name (some y)), lookup_setEntry_self]

/-- What is put where something was is there. -/
theorem get?_put_of_some {x y : Node} {l : Location} (h : x.get? l = some y) (z : Node) :
    (x.put (some z) l).get? l = some z := by
  cases l using List.reverseRecOn with
  | nil =>
      unfold put
      rfl
  | append_singleton d name =>
      obtain ⟨entries, hd, -⟩ := directory_of_get?_concat h
      exact get?_put_self hd name z

/-- An empty directory that is put somewhere is all that comes to exist. -/
theorem get?_put_directory {x : Node} {d : Location} {entries : List (Name × Node)}
    (h : x.get? d = some (directory entries)) (name : Name) {l : Location} {y : Node}
    (hy : (x.put (some (directory [])) (d ++ [name])).get? l = some y) :
    (l = d ++ [name] ∧ y = directory []) ∨ ∃ z, x.get? l = some z ∧ y.face = z.face := by
  by_cases hbegins : d ++ [name] <+: l
  · obtain ⟨more, rfl⟩ := hbegins
    rw [get?_append, get?_put_self h] at hy
    cases more with
    | nil => exact .inl ⟨List.append_nil _, (Option.some.inj hy).symm⟩
    | cons n rest => cases hy
  · have hface := face_get?_put (some (directory [])) hbegins x
    rw [hy] at hface
    obtain ⟨z, hz, hsame⟩ := Option.map_eq_some_iff.mp hface.symm
    exact .inr ⟨z, hz, hsame.symm⟩

/-! ## Tidy trees -/

/-- In every directory the names of the entries are plain, and no two are the same. -/
inductive Tidy : Node → Prop where
  | file (contents : Bytes) : Tidy (file contents)
  | link (target : Path) : Tidy (link target)
  | directory {entries : List (Name × Node)} (plain : ∀ entry ∈ entries, PlainName entry.1)
      (distinct : (entries.map (·.1)).Nodup) (below : ∀ entry ∈ entries, Tidy entry.2) :
      Tidy (directory entries)

/-- An entry is the one that was set, or it was there before. -/
theorem mem_of_mem_setEntry {name : Name} {y : Option Node} {entries : List (Name × Node)}
    {entry : Name × Node} (h : entry ∈ setEntry name y entries) :
    entry ∈ entries ∨ (entry.1 = name ∧ y = some entry.2) := by
  induction entries with
  | nil =>
      obtain ⟨z, hz, rfl⟩ := List.mem_map.mp h
      exact .inr ⟨rfl, Option.mem_toList.mp hz⟩
  | cons first rest ih =>
      obtain ⟨other, x⟩ := first
      unfold setEntry at h
      split at h
      · rcases List.mem_append.mp h with h | h
        · obtain ⟨z, hz, rfl⟩ := List.mem_map.mp h
          exact .inr ⟨rfl, Option.mem_toList.mp hz⟩
        · exact .inl (List.mem_cons_of_mem _ h)
      · rcases List.mem_cons.mp h with rfl | h
        · exact .inl List.mem_cons_self
        · exact (ih h).imp_left (List.mem_cons_of_mem _)

/-- Setting an entry gives no name to two entries. -/
theorem distinct_setEntry (name : Name) (y : Option Node) {entries : List (Name × Node)}
    (h : (entries.map (·.1)).Nodup) : ((setEntry name y entries).map (·.1)).Nodup := by
  induction entries with
  | nil => cases y <;> simp [setEntry]
  | cons first rest ih =>
      obtain ⟨other, x⟩ := first
      obtain ⟨hother, hrest⟩ := List.nodup_cons.mp h
      unfold setEntry
      split
      · next hname =>
        subst hname
        cases y with
        | none => exact hrest
        | some y => exact List.nodup_cons.mpr ⟨hother, hrest⟩
      · next hname =>
        refine List.nodup_cons.mpr ⟨fun hmem => ?_, ih hrest⟩
        obtain ⟨entry, hentry, hsame⟩ := List.mem_map.mp hmem
        rcases mem_of_mem_setEntry hentry with hentry | ⟨hentry, -⟩
        · exact hother (hsame ▸ List.mem_map_of_mem hentry)
        · exact hname (hsame.symm.trans hentry)

/-- A tidy directory stays tidy when a plain name is given to something tidy. -/
theorem Tidy.setEntry {entries : List (Name × Node)} (h : (Node.directory entries).Tidy)
    {name : Name} (hname : PlainName name) {y : Option Node} (hy : ∀ z, y = some z → z.Tidy) :
    (Node.directory (setEntry name y entries)).Tidy := by
  cases h with
  | directory hplain hdistinct hbelow =>
      refine .directory (fun entry hentry => ?_) (distinct_setEntry name y hdistinct)
        fun entry hentry => ?_
      · rcases mem_of_mem_setEntry hentry with hentry | ⟨hentry, -⟩
        · exact hplain entry hentry
        · exact hentry ▸ hname
      · rcases mem_of_mem_setEntry hentry with hentry | ⟨-, hentry⟩
        · exact hbelow entry hentry
        · exact hy entry.2 hentry

/-- A directory with one tidy entry is tidy. -/
theorem Tidy.singleton {name : Name} {x : Node} (hname : PlainName name) (hx : x.Tidy) :
    (Node.directory [(name, x)]).Tidy :=
  .directory (by simpa using hname) (by simp) (by simpa using hx)

/-- What is in a tidy directory is tidy and has a plain name. -/
theorem Tidy.of_lookup {entries : List (Name × Node)} (h : (Node.directory entries).Tidy)
    {name : Name} {x : Node} (hx : entries.lookup name = some x) : PlainName name ∧ x.Tidy := by
  obtain ⟨before, after, rfl, -⟩ := List.lookup_eq_some_iff.mp hx
  have hmem : (name, x) ∈ before ++ (name, x) :: after := by simp
  cases h with
  | directory hplain _ hbelow => exact ⟨hplain _ hmem, hbelow _ hmem⟩

/-- In a tidy directory a name leads to its entry. -/
theorem Tidy.lookup_eq_some {entries : List (Name × Node)} (h : (Node.directory entries).Tidy)
    {name : Name} {x : Node} : entries.lookup name = some x ↔ (name, x) ∈ entries := by
  constructor
  · intro hx
    obtain ⟨before, after, rfl, -⟩ := List.lookup_eq_some_iff.mp hx
    exact List.mem_append_right _ List.mem_cons_self
  · intro hx
    obtain ⟨before, after, rfl⟩ := List.append_of_mem hx
    refine List.lookup_eq_some_iff.mpr ⟨before, after, rfl, fun entry hentry => bne_iff_ne.mpr ?_⟩
    rintro rfl
    cases h with
    | directory _ hdistinct _ =>
        rw [List.map_append, List.map_cons] at hdistinct
        exact (List.nodup_append.mp hdistinct).2.2 _ (List.mem_map_of_mem hentry) _ List.mem_cons_self rfl

/-- The first entry of a tidy directory is tidy, and the others do not have its name. -/
theorem Tidy.of_cons {entries : List (Name × Node)} {name : Name} {x : Node}
    (h : (Node.directory ((name, x) :: entries)).Tidy) :
    PlainName name ∧ x.Tidy ∧ name ∉ entries.map (·.1) ∧ (Node.directory entries).Tidy := by
  cases h with
  | directory hplain hdistinct hbelow =>
      obtain ⟨hname, hrest⟩ := List.nodup_cons.mp hdistinct
      exact ⟨hplain _ List.mem_cons_self, hbelow _ List.mem_cons_self, hname,
        .directory (fun entry h => hplain entry (List.mem_cons_of_mem _ h)) hrest
          fun entry h => hbelow entry (List.mem_cons_of_mem _ h)⟩

/-- Everything below is tidy, and is reached through plain names. -/
theorem Tidy.of_get? {x y : Node} (h : x.Tidy) {l : Location} (hy : x.get? l = some y) :
    (∀ n ∈ l, PlainName n) ∧ y.Tidy := by
  induction l generalizing x with
  | nil =>
      obtain rfl := Option.some.inj hy
      exact ⟨fun _ hn => (List.not_mem_nil hn).elim, h⟩
  | cons name rest ih =>
      rw [get?_cons] at hy
      obtain ⟨z, hz, hrest⟩ := Option.bind_eq_some_iff.mp hy
      cases x with
      | file contents => cases hz
      | link target => cases hz
      | directory entries =>
          obtain ⟨hname, htidy⟩ := h.of_lookup hz
          obtain ⟨hplain, hy⟩ := ih htidy hrest
          exact ⟨List.forall_mem_cons.mpr ⟨hname, hplain⟩, hy⟩

/-- **A tree stays tidy** if a tidy node is put under a plain name. -/
theorem Tidy.put {x : Node} (h : x.Tidy) {l : Location} (hl : ∀ n, l.getLast? = some n → PlainName n)
    {y : Option Node} (hy : ∀ z, y = some z → z.Tidy) : (x.put y l).Tidy := by
  induction l generalizing x with
  | nil =>
      cases y with
      | none => exact h
      | some y => exact hy y rfl
  | cons name rest ih =>
      cases x with
      | file contents => exact h
      | link target => exact h
      | directory entries =>
          cases rest with
          | nil => exact h.setEntry (hl name rfl) hy
          | cons next more =>
              cases hchild : entries.lookup name with
              | none =>
                  unfold Node.put
                  rw [hchild]
                  exact h
              | some z =>
                  obtain ⟨hname, hz⟩ := h.of_lookup hchild
                  rw [put_cons hchild y (List.cons_ne_nil next more)]
                  refine h.setEntry hname fun w hw => ?_
                  obtain rfl := Option.some.inj hw
                  refine ih hz fun n hn => hl n ?_
                  rw [List.getLast?_cons_cons]
                  exact hn

/-- **What is removed from a tidy tree is gone.** -/
theorem Tidy.get?_put_none {x y : Node} (h : x.Tidy) {l : Location} (hne : l ≠ [])
    (hy : x.get? l = some y) : (x.put none l).get? l = none := by
  obtain ⟨d, name, rfl⟩ := (List.eq_nil_or_concat' l).resolve_left hne
  obtain ⟨entries, hd, -⟩ := directory_of_get?_concat hy
  rw [get?_concat (get?_put hd name none)]
  cases (h.of_get? hd).2 with
  | directory _ hdistinct _ => exact lookup_setEntry_none name hdistinct

end Node

end LiveUnits
