import LiveUnits.Container.Medium
import LiveUnits.Proofs.Discovery.Coverage

/-!
# The order of entries

Directories may list their entries in any order.  In file systems that look the same discovery finds the
same (`FileSystem.Same.discover`).  The entries of a directory are the same up to their order
(`Node.Alike.exists_perm`), so what a directory lists as a container is gathered in another order
(`FileSystem.Same.resourcesBelow`).
-/

namespace LiveUnits

/-- Two entries have one name, and what they lead to is alike. -/
def Node.Twins (a b : Name × Node) : Prop := a.1 = b.1 ∧ a.2.Alike b.2

/-- A name that no entry has is not found. -/
theorem lookup_eq_none_of_not_mem {entries : List (Name × Node)} {name : Name}
    (h : name ∉ entries.map (·.1)) : entries.lookup name = none := by
  refine List.lookup_eq_none_iff.mpr fun entry hentry => bne_iff_ne.mpr ?_
  rintro rfl
  exact h (List.mem_map_of_mem hentry)

/-- Without the entries of one name directories that are alike stay alike. -/
theorem Node.Alike.without {name : Name} {x y : Node} {rest before after : List (Name × Node)}
    (h : (directory ((name, x) :: rest)).Alike (directory (before ++ (name, y) :: after)))
    (hrest : name ∉ rest.map (·.1)) (hothers : name ∉ (before ++ after).map (·.1)) :
    (directory rest).Alike (directory (before ++ after)) := by
  refine alike_directory fun other => ?_
  by_cases hother : other = name
  · rw [hother, lookup_eq_none_of_not_mem hrest, lookup_eq_none_of_not_mem hothers]
    exact .none
  · have hlookup := h.lookup other
    have hne : (other == name) = false := beq_false_of_ne hother
    rwa [List.lookup_cons, hne, List.lookup_append, List.lookup_cons, hne, ← List.lookup_append] at hlookup

/-- **The entries of directories that are alike** are the same up to their order. -/
theorem Node.Alike.exists_perm {es es' : List (Name × Node)}
    (h : (directory es).Alike (directory es')) (hes : (es.map (·.1)).Nodup)
    (hes' : (es'.map (·.1)).Nodup) :
    ∃ zs, es'.Perm zs ∧ List.Forall₂ Node.Twins es zs := by
  induction es generalizing es' with
  | nil =>
      obtain rfl := (FileSystem.empty_of_alike h).mp rfl
      exact ⟨[], .refl _, .nil⟩
  | cons entry rest ih =>
      obtain ⟨name, x⟩ := entry
      have hname := h.lookup name
      rw [List.lookup_cons_self] at hname
      generalize hy : es'.lookup name = z at hname
      cases hname with
      | @some _ y hxy =>
          obtain ⟨before, after, rfl, -⟩ := List.lookup_eq_some_iff.mp hy
          have hmiddle : (before ++ (name, y) :: after).Perm ((name, y) :: (before ++ after)) :=
            List.perm_middle
          obtain ⟨hnew, hrest⟩ := List.nodup_cons.mp hes
          obtain ⟨hnew', hrest'⟩ := List.nodup_cons.mp ((hmiddle.map _).nodup_iff.mp hes')
          obtain ⟨zs, hperm, hzs⟩ := ih (h.without hnew hnew') hrest hrest'
          exact ⟨(name, y) :: zs, hmiddle.trans (hperm.cons _), .cons ⟨rfl, hxy⟩ hzs⟩

/-- A directory stays tidy in another order of its entries. -/
theorem Node.Tidy.of_perm {es es' : List (Name × Node)} (h : (Node.directory es).Tidy)
    (hperm : es.Perm es') : (Node.directory es').Tidy := by
  cases h with
  | directory hplain hdistinct hbelow =>
      exact .directory (fun entry hentry => hplain entry (hperm.mem_iff.mpr hentry))
        ((hperm.map _).nodup_iff.mp hdistinct)
        fun entry hentry => hbelow entry (hperm.mem_iff.mpr hentry)

/-- **A directory is listed alike**, up to the order of its entries. -/
theorem FileSystem.Same.list_tidy {fs fs' : FileSystem} (h : Same fs fs') (p : Path) :
    Agree (fun es es' => (Node.directory es).Alike (.directory es') ∧ (Node.directory es).Tidy ∧
      (Node.directory es').Tidy) (fs.list p) (fs'.list p) := by
  have hlist := h.list p
  generalize hes : fs.list p = listed, hes' : fs'.list p = listed' at hlist
  cases hlist with
  | error f => exact .error f
  | ok halike => exact .ok ⟨halike, tidy_of_list h.left hes, tidy_of_list h.right hes'⟩

namespace FileSystem

variable {fs fs' : FileSystem}

/-! ## Searching -/

/-- A search is granted the same. -/
theorem Same.access (h : Same fs fs') : fs'.access = fs.access := by
  refine Access.ext (funext fun p => ?_) (funext h.isFile)
  have hlist := h.list p
  unfold FileSystem.access
  dsimp only
  generalize fs.list p = listed, fs'.list p = listed' at hlist
  cases hlist with
  | error f => rfl
  | ok _ => rfl

/-- **Discovery finds the same units**, and the same issues in some order. -/
theorem Same.discover (h : Same fs fs') (root : Path) (extension : String) :
    Agree (fun f g => f.units = g.units ∧ f.issues.Perm g.issues) (fs.discover root extension)
      (fs'.discover root extension) := by
  refine (h.list_tidy (root.join .empty)).bind fun es es' ⟨halike, hes, hes'⟩ => ?_
  rw [h.access]
  exact fs.access.discover_of_alike ⟨root, extension⟩ halike hes hes'

end FileSystem

/-! ## Listing -/

/-- Two listings: both fail, or both list the same, each in its own order. -/
inductive ListsSame : Except ContainerError (List String) → Except ContainerError (List String) → Prop
  | ok {names names' : List String} (h : names.Perm names') : ListsSame (.ok names) (.ok names')
  | error (e e' : ContainerError) : ListsSame (.error e) (.error e')

namespace ListsSame

variable {r r' s s' t : Except ContainerError (List String)}

theorem refl : ∀ r, ListsSame r r
  | .ok names => .ok (.refl names)
  | .error e => .error e e

theorem trans (h : ListsSame r s) (h' : ListsSame s t) : ListsSame r t := by
  cases h with
  | ok h =>
      cases h' with
      | ok h' => exact .ok (h.trans h')
  | error e e' =>
      cases h' with
      | error _ e'' => exact .error e e''

theorem append (h : ListsSame r r') (h' : ListsSame s s') :
    ListsSame (do pure ((← r) ++ (← s))) (do pure ((← r') ++ (← s'))) := by
  cases h with
  | error e e' => exact .error e e'
  | ok h =>
      cases h' with
      | error e e' => exact .error e e'
      | ok h' => exact .ok (h.append h')

/-- Listings may be put together in another order. -/
theorem append_left_comm (r s t : Except ContainerError (List String)) :
    ListsSame (do pure ((← r) ++ (← (do pure ((← s) ++ (← t))))))
      (do pure ((← s) ++ (← (do pure ((← r) ++ (← t)))))) := by
  cases r <;> cases s <;> cases t <;> first | exact .error _ _ | exact .ok (List.perm_append_comm_assoc _ _ _)

end ListsSame

namespace FileSystem

variable {fs fs' : FileSystem}

/-- Entries in another order are listed in another order. -/
theorem perm_listEntries (fs : FileSystem) (path : Path) (start : String) {es es' : List (Name × Node)}
    (h : es.Perm es') : ListsSame (fs.listEntries path start es) (fs.listEntries path start es') := by
  induction h with
  | nil => exact .refl _
  | cons entry _ ih =>
      obtain ⟨name, x⟩ := entry
      unfold listEntries
      cases Utf8.decode? name with
      | none => exact ih
      | some s => exact (ListsSame.refl _).append ih
  | swap a b rest =>
      obtain ⟨name, x⟩ := a
      obtain ⟨name', y⟩ := b
      simp only [listEntries]
      cases Utf8.decode? name with
      | none => exact .refl _
      | some s =>
          cases Utf8.decode? name' with
          | none => exact .refl _
          | some s' => exact .append_left_comm _ _ _
  | trans _ _ ih ih' => exact ih.trans ih'

mutual

/-- An entry lists the same up to its order. -/
theorem Same.listEntry (h : Same fs fs') (path : Path) (resource : String) :
    ∀ x y : Node, x.Alike y → x.Tidy → y.Tidy →
      ListsSame (fs.listEntry path resource x) (fs'.listEntry path resource y)
  | .file contents, y, hxy, _, _ => by
      obtain rfl := hxy.of_file
      unfold FileSystem.listEntry
      rw [h.isFile]
      exact .refl _
  | .link target, y, hxy, _, _ => by
      obtain rfl := hxy.of_link
      unfold FileSystem.listEntry
      rw [h.isFile]
      exact .refl _
  | .directory es, y, hxy, hx, hy => by
      obtain ⟨es', rfl⟩ := hxy.of_directory
      have hlist := h.list path
      unfold FileSystem.listEntry
      generalize fs.list path = listed, fs'.list path = listed' at hlist
      cases hlist with
      | error f => exact .refl _
      | ok _ =>
          obtain ⟨zs, hperm, hzs⟩ := hxy.exists_perm hx.names_nodup hy.names_nodup
          exact (h.listEntries path (resource ++ "/") es zs hzs hx (hy.of_perm hperm)).trans
            (fs'.perm_listEntries path (resource ++ "/") hperm.symm)

/-- Entries that are alike one by one list the same up to its order. -/
theorem Same.listEntries (h : Same fs fs') (path : Path) (start : String) :
    ∀ es zs : List (Name × Node), List.Forall₂ Node.Twins es zs → (Node.directory es).Tidy →
      (Node.directory zs).Tidy →
        ListsSame (fs.listEntries path start es) (fs'.listEntries path start zs)
  | [], _, .nil, _, _ => by
      unfold FileSystem.listEntries
      exact .refl _
  | (name, x) :: rest, (_, y) :: others, .cons ⟨rfl, hxy⟩ hrest, htidy, htidy' => by
      obtain ⟨-, hx, -, hxs⟩ := htidy.of_cons
      obtain ⟨-, hy, -, hys⟩ := htidy'.of_cons
      have hothers := h.listEntries path start rest others hrest hxs hys
      unfold FileSystem.listEntries
      cases Utf8.decode? name with
      | none => exact hothers
      | some s =>
          exact (h.listEntry (path.joinBytes name) (start ++ s) x y hxy hx hy).append hothers

end

/-- **A directory lists the same resources**, up to their order. -/
theorem Same.resourcesBelow (h : Same fs fs') (root : Path) :
    ListsSame (fs.resourcesBelow root) (fs'.resourcesBelow root) := by
  have hlist := h.list_tidy root
  unfold FileSystem.resourcesBelow
  generalize fs.list root = listed, fs'.list root = listed' at hlist
  cases hlist with
  | error f => exact .refl _
  | ok hentries =>
      obtain ⟨halike, hes, hes'⟩ := hentries
      obtain ⟨zs, hperm, hzs⟩ := halike.exists_perm hes.names_nodup hes'.names_nodup
      exact (h.listEntries root "" _ zs hzs hes (hes'.of_perm hperm)).trans
        (fs'.perm_listEntries root "" hperm.symm)

/-- A directory serves the same bytes. -/
theorem Same.lookupBelow (h : Same fs fs') (root : Path) (name : String) :
    fs'.lookupBelow root name = fs.lookupBelow root name := by
  unfold FileSystem.lookupBelow
  cases resourceParts? name with
  | none => rfl
  | some parts =>
      have hnode := h.node (resourcePath root parts)
      simp only
      generalize fs.node (resourcePath root parts) = x, fs'.node (resourcePath root parts) = y at hnode
      cases hnode with
      | error f => rfl
      | @ok x y hxy =>
          cases x with
          | file contents => rw [hxy.of_file]
          | link target => rw [hxy.of_link]
          | directory es =>
              obtain ⟨es', rfl⟩ := hxy.of_directory
              rfl

/-- The same is opened. -/
theorem Same.openAt (h : Same fs fs') (path : Path) : Medium.openAt fs' path = Medium.openAt fs path := by
  have hnode := h.node path
  unfold Medium.openAt Medium.openDirectory Medium.openArchive
  rw [h.isDirectory]
  generalize fs.node path = x, fs'.node path = y at hnode
  cases hnode with
  | error f => rfl
  | @ok x y hxy =>
      cases x with
      | file contents => rw [hxy.of_file]
      | link target => rw [hxy.of_link]
      | directory es =>
          obtain ⟨es', rfl⟩ := hxy.of_directory
          rfl

end FileSystem

end LiveUnits
