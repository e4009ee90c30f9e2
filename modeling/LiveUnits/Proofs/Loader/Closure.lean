import LiveUnits.Catalog
import LiveUnits.Container.Medium
import LiveUnits.Proofs.Host.Definition
import LiveUnits.Proofs.Loader.Step

/-!
# The registry is closed

A registry holds every unit that its units refer to, unless the host does: a unit is registered only
after its references have been resolved, and nothing is ever taken out again.  While the names on a
path are being linked, none of them is classified, so the unit that is registered in the end is the
first one of its name.  This is the contract `Loader.linking` of a resolution, which every step keeps
(`meets_resolveAt`) and which therefore holds after any sequence of requests (`closed_visit`).

The answers of the containers may change from lookup to lookup; nothing here depends on them.
-/

namespace LiveUnits

open Attempt

/-! ## Numbers -/

/-- Units, the newest first, that were numbered by a loader in the order of their registration. -/
def Numbered (number : Nat) : List LinkedUnit → Prop
  | [] => True
  | u :: rest => u.handle = ⟨.loader number, rest.length⟩ ∧ Numbered number rest

/-- A registered unit has a handle of the loader, below the number of units. -/
theorem Numbered.handle_mem {number : Nat} {units : List LinkedUnit} (h : Numbered number units)
    {u : LinkedUnit} (hu : u ∈ units) :
    u.handle.realm = .loader number ∧ u.handle.serial < units.length := by
  induction units with
  | nil => cases hu
  | cons v rest ih =>
      rcases List.mem_cons.mp hu with rfl | hu
      · rw [h.1]
        exact ⟨rfl, Nat.lt_succ_self _⟩
      · obtain ⟨hrealm, hserial⟩ := ih h.2 hu
        exact ⟨hrealm, Nat.lt_succ_of_lt hserial⟩

/-- No number is given twice. -/
theorem Numbered.nodup {number : Nat} {units : List LinkedUnit} (h : Numbered number units) :
    (units.map (·.handle)).Nodup := by
  induction units with
  | nil => exact .nil
  | cons u rest ih =>
      refine List.nodup_cons.mpr ⟨fun hmem => ?_, ih h.2⟩
      obtain ⟨v, hv, hsame⟩ := List.mem_map.mp hmem
      have hlt := (h.2.handle_mem hv).2
      rw [show v.handle = u.handle from hsame, h.1] at hlt
      exact Nat.lt_irrefl _ hlt

/-! ## Growth -/

/-- Units and unresolvable names are only added. -/
structure Registry.Grows (r r' : Registry) : Prop where
  /-- The units stay, behind those that are added. -/
  units : r.units <:+ r'.units
  /-- The unresolvable names stay, behind those that are added. -/
  unresolvable : r.unresolvable <:+ r'.unresolvable

theorem Registry.Grows.refl (r : Registry) : r.Grows r := ⟨List.suffix_refl _, List.suffix_refl _⟩

/-- Registries that know the same have grown out of each other. -/
theorem Registry.Grows.of_eq {r r' : Registry} (hunits : r'.units = r.units)
    (hunresolvable : r'.unresolvable = r.unresolvable) : r.Grows r' :=
  ⟨hunits ▸ List.suffix_refl _, hunresolvable ▸ List.suffix_refl _⟩

theorem Registry.Grows.trans {r r' r'' : Registry} (h : r.Grows r') (h' : r'.Grows r'') :
    r.Grows r'' :=
  ⟨h.units.trans h'.units, h.unresolvable.trans h'.unresolvable⟩

/-- Registering a unit leaves other names open. -/
theorem Registry.Open.register {r : Registry} {m : Identity} (h : r.Open m)
    {u : LinkedUnit} (hne : u.name ≠ m) : (r.register u).Open m := by
  refine ⟨Registry.unit?_eq_none.mpr fun v hv => ?_, h.2⟩
  rcases List.mem_cons.mp hv with rfl | hv
  · exact hne
  · exact Registry.unit?_eq_none.mp h.1 v hv

/-- Delegating a name leaves other names open. -/
theorem Registry.Open.delegate {r : Registry} {m n : Identity} (h : r.Open m)
    (hne : m ≠ n) : (r.delegate n).Open m :=
  ⟨h.1, fun hm => (List.mem_cons.mp hm).elim hne h.2⟩

namespace Loader

/-- What every registry of a loader satisfies. -/
structure Closed (l : Loader) (r : Registry) : Prop where
  /-- No name is registered twice. -/
  names : (r.units.map (·.name)).Nodup
  /-- Every registered unit comes from a container. -/
  container : ∀ u ∈ r.units, ∃ root, u.origin = .container root
  /-- The registered units are numbered. -/
  numbered : Numbered l.number r.units
  /-- Every reference is registered or belongs to the host. -/
  references : ∀ u ∈ r.units, ∀ v ∈ u.references,
    v ∈ r.units ∨ l.host.lookup v.name.text = some v
  /-- No unresolvable name is registered. -/
  disjoint : ∀ n ∈ r.unresolvable, r.unit? n.text = none

/-- A unit answers a name: it is registered under it, or no container has the name and the host has
the unit. -/
def Answers (l : Loader) (n : Identity) (u : LinkedUnit) (r : Registry) : Prop :=
  u ∈ r.units ∧ u.name = n ∨ n ∈ r.unresolvable ∧ l.host.lookup n.text = some u

/-- What resolving keeps while the names on `path` are being linked: none of them gets classified. -/
def linking (l : Loader) (path : List Identity) : Contract Registry where
  Inv r := l.Closed r ∧ ∀ m ∈ path, r.Open m
  Grows := Registry.Grows
  refl := Registry.Grows.refl
  trans := Registry.Grows.trans

/-- **What answered a name once answers it for good.** -/
theorem lasting_answers (l : Loader) (path : List Identity) (n : Identity) (u : LinkedUnit) :
    Lasting (l.linking path) (l.Answers n u) := by
  intro r r' _ _ hgrows h
  rcases h with ⟨hu, hname⟩ | ⟨hn, hu⟩
  · exact .inl ⟨hgrows.units.subset hu, hname⟩
  · exact .inr ⟨hgrows.unresolvable.subset hn, hu⟩

/-- An answer has the name that was asked for. -/
theorem Answers.name_eq {l : Loader} {n : Identity} {u : LinkedUnit} {r : Registry}
    (h : l.Answers n u r) : u.name = n := by
  rcases h with ⟨-, hname⟩ | ⟨-, hu⟩
  · exact hname
  · exact HostUnits.name_of_lookup hu

/-- The host answers with what it has. -/
theorem lookup_of_hostAnswer {l : Loader} {n : Identity} {u : LinkedUnit}
    (h : l.hostAnswer n = .ok u) : l.host.lookup n.text = some u := by
  unfold hostAnswer at h
  cases hfound : l.host.lookup n.text with
  | none => simp [hfound] at h
  | some v => simpa [hfound] using h

/-! ## One step -/

/-- Counting changes nothing that matters. -/
theorem Closed.of_eq {l : Loader} {r r' : Registry} (h : l.Closed r) (hunits : r'.units = r.units)
    (hunresolvable : r'.unresolvable = r.unresolvable) : l.Closed r' := by
  cases r
  cases r'
  cases hunits
  cases hunresolvable
  exact ⟨h.names, h.container, h.numbered, h.references, h.disjoint⟩

/-- A name that is not registered may become unresolvable. -/
theorem Closed.delegate {l : Loader} {r : Registry} (h : l.Closed r) {n : Identity}
    (hfree : r.unit? n.text = none) : l.Closed (r.delegate n) where
  names := h.names
  container := h.container
  numbered := h.numbered
  references := h.references
  disjoint := by
    intro m hm
    rcases List.mem_cons.mp hm with rfl | hm
    · exact hfree
    · exact h.disjoint m hm

/-- A linked unit may be registered under a name that is still open. -/
theorem Closed.register {l : Loader} {r : Registry} (h : l.Closed r) {n : Identity}
    (hopen : r.Open n) {bytes : Bytes} {root : Path} {u : LinkedUnit}
    (hhandle : u.handle = l.nextHandle r)
    (hlinked : Linkage.Linked (fun m v => l.Answers m v r) n bytes (.container root) u) :
    l.Closed (r.register u) where
  names := by
    refine List.nodup_cons.mpr ⟨fun hmem => ?_, h.names⟩
    obtain ⟨v, hv, hname⟩ := List.mem_map.mp hmem
    exact Registry.unit?_eq_none.mp hopen.1 v hv (hname.trans hlinked.name_eq)
  container := by
    intro v hv
    rcases List.mem_cons.mp hv with rfl | hv
    · exact ⟨root, hlinked.origin_eq⟩
    · exact h.container v hv
  numbered := ⟨hhandle, h.numbered⟩
  references := by
    intro v hv w hw
    rcases List.mem_cons.mp hv with rfl | hv
    · obtain ⟨m, hm⟩ := hlinked.answered w hw
      have hname := hm.name_eq
      rcases hm with ⟨hw, -⟩ | ⟨-, hw⟩
      · exact .inl (List.mem_cons_of_mem _ hw)
      · rw [hname]
        exact .inr hw
    · rcases h.references v hv w hw with hw | hw
      · exact .inl (List.mem_cons_of_mem _ hw)
      · exact .inr hw
  disjoint := by
    intro m hm
    refine Registry.unit?_eq_none.mpr fun v hv => ?_
    rcases List.mem_cons.mp hv with rfl | hv
    · rw [hlinked.name_eq]
      rintro rfl
      exact hopen.2 hm
    · exact Registry.unit?_eq_none.mp (h.disjoint m hm) v hv

/-- The names that are being linked are open, the last one included. -/
theorem open_concat {path : List Identity} {n : Identity} {r : Registry} (hpath : ∀ m ∈ path, r.Open m)
    (hopen : r.Open n) : ∀ m ∈ path ++ [n], r.Open m :=
  List.forall_mem_append.mpr ⟨hpath, List.forall_mem_singleton.mpr hopen⟩

/-- While the bytes found for an open name are linked, the name is being linked as well. -/
theorem inv_linking {l : Loader} {path : List Identity} {n : Identity} {r : Registry}
    (h : (l.linking path).Inv r) (hopen : r.Open n) (lookups : Nat) :
    (l.linking (path ++ [n])).Inv (r.countScan lookups) :=
  ⟨h.1.of_eq rfl rfl, open_concat h.2 hopen⟩

/-- Linking the bytes found for a name keeps what resolving the names below it keeps. -/
theorem inv_linkFound {l : Loader} {C : Contract Registry} {path : List Identity} {n : Identity}
    (hresolve : ∀ m, Meets C (fun _ => True) (l.resolveAt (path ++ [n]) m) fun _ _ => True)
    {r r' : Registry} (hr : C.Inv r) {found : Found} {outcome : Except LinkageError LinkedUnit}
    (hlink : l.linkFound path n found r = (outcome, r')) : C.Inv r' := by
  have hspec := Linkage.meets_materialise hresolve (fun _ _ _ _ _ _ _ h => h) l.nextHandle n
    found.bytes (.container found.root) r hr trivial
  rw [linkFound] at hlink
  rw [hlink] at hspec
  exact hspec.1

/-- Linking the bytes found for an open name keeps the contract of the longer path. -/
theorem meets_linkFound (l : Loader) {path : List Identity} {n : Identity}
    (ih : ∀ m, Meets (l.linking (path ++ [n])) (fun _ => True) (l.resolveAt (path ++ [n]) m)
      (l.Answers m)) {r r' : Registry} (hclosed : l.Closed r) (hpath : ∀ m ∈ path, r.Open m)
    (hopen : r.Open n) {found : Found} {lookups : Nat} {outcome : Except LinkageError LinkedUnit}
    (hlink : l.linkFound path n found (r.countScan lookups) = (outcome, r')) :
    (l.Closed r' ∧ ∀ m ∈ path ++ [n], r'.Open m) ∧ r.Grows r' ∧ ∀ u, outcome = .ok u →
      u.handle = l.nextHandle r' ∧ Linkage.Linked (fun m v => l.Answers m v r') n found.bytes
        (.container found.root) u := by
  have hspec := Linkage.meets_materialise ih (l.lasting_answers (path ++ [n])) l.nextHandle n
    found.bytes (.container found.root) (r.countScan lookups)
    (inv_linking ⟨hclosed, hpath⟩ hopen lookups) trivial
  rw [linkFound] at hlink
  rw [hlink] at hspec
  obtain ⟨hinv, hgrows, hunit⟩ := hspec
  exact ⟨hinv, ⟨hgrows.units, hgrows.unresolvable⟩, hunit⟩

/-- **Every resolution keeps the contract**, and a unit it returns answers the name. -/
theorem meets_resolveAt (l : Loader) (path : List Identity) (n : Identity) :
    Meets (l.linking path) (fun _ => True) (l.resolveAt path n) (l.Answers n) := by
  induction path using l.byPath generalizing n with
  | step path ih =>
  intro r hinv _
  obtain ⟨hclosed, hpath⟩ := hinv
  have hstep := l.resolveAt_step path n r
  generalize l.resolveAt path n r = result at hstep ⊢
  cases hstep with
  | registered hu =>
      refine ⟨⟨hclosed.of_eq rfl rfl, hpath⟩, .of_eq rfl rfl, fun v hv => ?_⟩
      obtain rfl := Except.ok.inj hv
      exact .inl ⟨Registry.mem_of_unit? hu, Registry.name_of_unit? hu⟩
  | delegated hfree hn =>
      refine ⟨⟨hclosed.of_eq rfl rfl, hpath⟩, .of_eq rfl rfl, fun v hv => ?_⟩
      exact .inr ⟨hn, lookup_of_hostAnswer hv⟩
  | loop hopen hn =>
      exact ⟨⟨hclosed, hpath⟩, .refl r, fun v hv => by cases hv⟩
  | unreadable hopen hn hscan =>
      exact ⟨⟨hclosed.of_eq rfl rfl, hpath⟩, .of_eq rfl rfl, fun v hv => by cases hv⟩
  | @absent lookups hopen hn hscan =>
      have hcounted : l.Closed (r.countScan lookups) := hclosed.of_eq rfl rfl
      refine ⟨⟨hcounted.delegate hopen.1, fun m hm => ?_⟩,
        ⟨List.suffix_refl _, List.suffix_cons _ _⟩, fun v hv => ?_⟩
      -- the name is not on the path, or the request would have ended as a loop
      · have hm' : (r.countScan lookups).Open m := hpath m hm
        exact hm'.delegate fun hmn => hn (hmn ▸ hm)
      · exact .inr ⟨List.mem_cons_self, lookup_of_hostAnswer hv⟩
  | @broken found lookups e r' hopen hn hscan hlink =>
      obtain ⟨⟨hclosed', hpath'⟩, hgrows, -⟩ :=
        l.meets_linkFound (ih n found _ _ hn hscan) hclosed hpath hopen hlink
      refine ⟨⟨hclosed', fun m hm => hpath' m (List.mem_append_left _ hm)⟩, hgrows, ?_⟩
      exact fun v hv => by cases hv
  | @linked found lookups u r' hopen hn hscan hlink =>
      obtain ⟨⟨hclosed', hpath'⟩, hgrows, hunit⟩ :=
        l.meets_linkFound (ih n found _ _ hn hscan) hclosed hpath hopen hlink
      obtain ⟨hhandle, hlinked⟩ := hunit u rfl
      have hopen' : r'.Open n := hpath' n (by simp)
      refine ⟨⟨hclosed'.register hopen' hhandle hlinked, fun m hm => ?_⟩,
        ⟨hgrows.units.trans (List.suffix_cons _ _), hgrows.unresolvable⟩, fun v hv => ?_⟩
      · refine (hpath' m (List.mem_append_left _ hm)).register fun hname => hn ?_
        rwa [← hlinked.name_eq, hname]
      · obtain rfl := Except.ok.inj hv
        exact .inl ⟨List.mem_cons_self, hlinked.name_eq⟩

/-! ## Requests -/

theorem closed_start (l : Loader) : l.Closed {} where
  names := .nil
  container := fun _ hu => by cases hu
  numbered := trivial
  references := fun _ hu => by cases hu
  disjoint := fun _ hn => by cases hn

/-- A request keeps the registry closed, and a unit it returns answers the name. -/
theorem closed_resolve {l : Loader} {r : Registry} (h : l.Closed r) (n : Identity) :
    l.Closed (l.resolve n r).2 ∧ r.Grows (l.resolve n r).2 ∧
      ∀ u, (l.resolve n r).1 = .ok u → l.Answers n u (l.resolve n r).2 := by
  obtain ⟨⟨hclosed, -⟩, hgrows, hanswers⟩ :=
    l.meets_resolveAt [] n r ⟨h, fun m hm => by cases hm⟩ trivial
  exact ⟨hclosed, hgrows, hanswers⟩

/-- **After any requests, in any order, the registry is closed.** -/
theorem closed_visit {l : Loader} (ns : List Identity) {r : Registry} (h : l.Closed r) :
    l.Closed (l.visit ns r) ∧ r.Grows (l.visit ns r) := by
  induction ns generalizing r with
  | nil => exact ⟨h, .refl r⟩
  | cons n rest ih =>
      obtain ⟨hclosed, hgrows, -⟩ := closed_resolve h n
      obtain ⟨hclosed', hgrows'⟩ := ih hclosed
      exact ⟨hclosed', hgrows.trans hgrows'⟩

theorem visit_append (l : Loader) (before after : List Identity) (r : Registry) :
    l.visit (before ++ after) r = l.visit after (l.visit before r) := by
  induction before generalizing r with
  | nil => rfl
  | cons n rest ih => exact ih _

/-- A registered unit is the one that is found under its name. -/
theorem Closed.unit?_name {l : Loader} {r : Registry} (h : l.Closed r) {u : LinkedUnit}
    (hu : u ∈ r.units) : r.unit? u.name.text = some u := by
  cases hfound : r.unit? u.name.text with
  | none => exact absurd rfl (Registry.unit?_eq_none.mp hfound u hu)
  | some v =>
      have hname := Registry.name_of_unit? hfound
      rw [List.inj_on_of_nodup_map h.names (Registry.mem_of_unit? hfound) hu hname]

/-- A loader over one container in memory. -/
def overMemory (number : Nat) (contents : List (String × Bytes)) (host : HostUnits) : Loader :=
  let m : Memory := ⟨.empty, .all, contents.map fun (name, bytes) => (name, .bytes bytes)⟩
  ⟨number, [Medium.container .blank (.memory m)], host, "wasm"⟩

end Loader

end LiveUnits
