import LiveUnits.Proofs.Identity.Reading
import LiveUnits.Proofs.Linkage.Requests

/-!
# Units are linked completely

A unit that is made has everything that its bytes declare: the supertype, one dependency for each
module it imports from, and for every import an export of the same kind (`fullyLinked_materialise`).
Where linking fails, one of these could not be had (`obstacle_materialise`).

The check of an import passes if no dependency bears the name of the module.  Nothing in linking itself
excludes that: it rests on resolving that gives a unit of the
name asked for (`Named`).
-/

namespace LiveUnits

/-! ## Each once, in the order of the first -/

/-- What comes first among the elements that are kept comes first among all. -/
theorem idxOf_lt_of_filter {α : Type} [DecidableEq α] {p : α → Bool} {a b : α} (ha : p a = true)
    (hb : p b = true) {l : List α} (h : (l.filter p).idxOf a < (l.filter p).idxOf b) :
    l.idxOf a < l.idxOf b := by
  induction l with
  | nil => exact h
  | cons x l ih =>
      by_cases hxa : x = a
      · subst hxa
        rw [List.filter_cons_of_pos ha, List.idxOf_cons_self] at h
        rw [List.idxOf_cons_self]
        by_cases hxb : x = b
        · subst hxb
          rw [List.idxOf_cons_self] at h
          exact absurd h (Nat.lt_irrefl 0)
        · rw [List.idxOf_cons_ne _ hxb]
          exact Nat.succ_pos _
      · by_cases hxb : x = b
        · subst hxb
          rw [List.filter_cons_of_pos hb, List.idxOf_cons_self] at h
          exact absurd h (Nat.not_lt_zero _)
        · rw [List.idxOf_cons_ne _ hxa, List.idxOf_cons_ne _ hxb]
          refine Nat.succ_lt_succ (ih ?_)
          cases hx : p x with
          | false => rwa [List.filter_cons_of_neg (by simp [hx])] at h
          | true =>
              rw [List.filter_cons_of_pos hx, List.idxOf_cons_ne _ hxa, List.idxOf_cons_ne _ hxb] at h
              exact Nat.lt_of_succ_lt_succ h

/-- Without repetitions, the elements of a list stand in the order in which they first occur. -/
theorem pairwise_eraseDups {α : Type} [DecidableEq α] (l : List α) :
    l.eraseDups.Pairwise fun a b => l.idxOf a < l.idxOf b := by
  induction hn : l.length using Nat.strongRecOn generalizing l with
  | ind n ih =>
      subst hn
      cases l with
      | nil => exact .nil
      | cons a l =>
          have hne : ∀ b ∈ (l.filter fun b => !b == a).eraseDups, a ≠ b := by
            intro b hb
            rintro rfl
            simpa using (List.mem_filter.mp (List.mem_eraseDups.mp hb)).2
          rw [List.eraseDups_cons]
          refine List.pairwise_cons.mpr ⟨fun b hb => ?_, ?_⟩
          · rw [List.idxOf_cons_self, List.idxOf_cons_ne _ (hne b hb)]
            exact Nat.succ_pos _
          · have hrest := ih (l.filter fun b => !b == a).length
              (Nat.lt_succ_of_le (List.length_filter_le _ l)) _ rfl
            refine hrest.imp_of_mem fun {b c} hb hc hlt => ?_
            rw [List.idxOf_cons_ne _ (hne b hb), List.idxOf_cons_ne _ (hne c hc)]
            refine Nat.succ_lt_succ (idxOf_lt_of_filter ?_ ?_ hlt)
            · simpa using (hne b hb).symm
            · simpa using (hne c hc).symm

namespace Linkage

open Attempt

variable {σ : Type} {f : Resolving σ}

/-- Resolving gives a unit of the name asked for. -/
def Named (f : Resolving σ) : Prop := ∀ n s u s', f n s = (.ok u, s') → u.name = n

/-- The bytes of a unit refer to a name: as the supertype, or as a module that they import from. -/
def Declared.RefersTo (d : Declared) (n : Identity) : Prop :=
  d.metadata.supertype = some n ∨ ∃ i ∈ d.interface.imports, i.moduleName = n.text

/-- A unit has everything that its bytes declare. -/
structure FullyLinked (d : Declared) (u : LinkedUnit) : Prop where
  interface_eq : u.interface = d.interface
  markers_eq : u.markers = d.metadata.markers
  /-- It has a supertype if one is declared, and that bears the name declared. -/
  supertype : u.supertype.map (·.name) = d.metadata.supertype
  /-- The modules that it imports from are the names of its dependencies. -/
  modules : ∀ m, (∃ v ∈ u.dependencies, v.name.text = m) ↔ ∃ i ∈ u.interface.imports, i.moduleName = m
  /-- There is one dependency for each, in the order of the first import from it. -/
  ordered : u.dependencies.Pairwise fun v w =>
    (u.interface.imports.map (·.moduleName)).idxOf v.name.text <
      (u.interface.imports.map (·.moduleName)).idxOf w.name.text
  /-- The dependency that an import names exports the item, with its kind. -/
  imports : ∀ i ∈ u.interface.imports, ∃ v,
    u.dependencies.find? (fun v => v.name.text == i.moduleName) = some v ∧
      v.interface.exportKind? i.item = some i.kind

/-- A unit that has everything it declares refers to what its bytes refer to. -/
theorem FullyLinked.exists_reference {d : Declared} {u : LinkedUnit}
    (h : FullyLinked d u) {n : Identity} (hn : d.RefersTo n) :
    ∃ v ∈ u.references, v.name = n := by
  rcases hn with hn | ⟨i, hi, hn⟩
  · have hname := h.supertype
    rw [hn] at hname
    obtain ⟨v, hv, hname⟩ := Option.map_eq_some_iff.mp hname
    exact ⟨v, LinkedUnit.mem_references.mpr (.inl hv), hname⟩
  · rw [← h.interface_eq] at hi
    obtain ⟨v, hv, hname⟩ := (h.modules n.text).mpr ⟨i, hi, hn⟩
    exact ⟨v, LinkedUnit.mem_references.mpr (.inr hv), Identity.text_inj hname⟩

/-! ## What each part of linking gives -/

theorem lift_eq {α : Type} {r outcome : Except LinkageError α} {s s' : σ}
    (h : lift r s = (outcome, s')) : r = outcome ∧ s = s' := Prod.mk.inj h

/-- A reference is followed to the unit that the request returns. -/
theorem ok_of_follow {n : Identity} {wrap : ResolveError → LinkageError} {s s' : σ} {u : LinkedUnit}
    (h : follow f n wrap s = (.ok u, s')) : f n s = (.ok u, s') := by
  unfold follow at h
  cases hn : f n s with
  | mk outcome t =>
      rw [hn] at h
      cases outcome with
      | ok v => cases h; rfl
      | error e => cases h

/-- The supertype of a unit has the declared name. -/
theorem name_of_supertype (hf : Named f) {name : Identity} {declared : Option Identity}
    {above : Option LinkedUnit} {s s' : σ} (h : supertype f name declared s = (.ok above, s')) :
    above.map (·.name) = declared := by
  cases declared with
  | none => cases h; rfl
  | some n =>
      obtain ⟨u, t, hu, hpure⟩ := ok_of_bind h
      cases hpure
      exact congrArg some (hf _ _ _ _ (ok_of_follow hu))

/-- Dependencies have the declared names, in the same order. -/
theorem names_of_dependencies (hf : Named f) {name : Identity} {names : List Identity}
    {units : List LinkedUnit} {s s' : σ} (h : dependencies f name names s = (.ok units, s')) :
    units.map (·.name) = names := by
  induction names generalizing units s with
  | nil => cases h; rfl
  | cons n rest ih =>
      obtain ⟨u, t, hu, hrest⟩ := ok_of_bind h
      obtain ⟨others, t', hothers, hpure⟩ := ok_of_bind hrest
      cases hpure
      rw [List.map_cons, ih hothers, hf _ _ _ _ (ok_of_follow hu)]

/-- The identities of modules are spelt like their names. -/
theorem text_of_moduleIdentities {name : Identity} {ms : List String} {names : List Identity}
    (h : moduleIdentities name ms = .ok names) : names.map Identity.text = ms := by
  induction ms generalizing names with
  | nil => cases h; rfl
  | cons m rest ih =>
      unfold moduleIdentities at h
      split at h
      · cases h
      · next n hn =>
        cases hrest : moduleIdentities name rest with
        | error e => rw [hrest] at h; cases h
        | ok others =>
            rw [hrest] at h
            cases h
            rw [List.map_cons, ih hrest, Identity.text_of_parse hn]

/-- **No import goes unchecked**: as soon as the dependencies have been resolved, one of them bears the
name of its module. -/
theorem exists_dependency (hf : Named f) {name : Identity} {i : Wasm.Interface}
    {names : List Identity} (hnames : moduleIdentities name (moduleNames i) = .ok names)
    {units : List LinkedUnit} {s s' : σ} (h : dependencies f name names s = (.ok units, s')) :
    ∀ x ∈ i.imports, ∃ v, units.find? (fun u => u.name.text == x.moduleName) = some v := by
  intro x hx
  have htexts : (units.map (·.name)).map Identity.text = moduleNames i := by
    rw [names_of_dependencies hf h, text_of_moduleIdentities hnames]
  have hmem : x.moduleName ∈ moduleNames i :=
    List.mem_eraseDups.mpr (List.mem_map.mpr ⟨x, hx, rfl⟩)
  rw [← htexts, List.map_map] at hmem
  obtain ⟨v, hv, hname⟩ := List.mem_map.mp hmem
  refine Option.isSome_iff_exists.mp (List.find?_isSome.mpr ⟨v, hv, ?_⟩)
  exact beq_iff_eq.mpr hname

/-- The check of an import whose dependency has been found. -/
theorem checkImport_eq {name : Identity} {units : List LinkedUnit} {i : Wasm.Import} {v : LinkedUnit}
    (hv : units.find? (fun u => u.name.text == i.moduleName) = some v) :
    checkImport name units i = if v.interface.exportKind? i.item = some i.kind then .ok ⟨⟩
      else .error (.missingImport name v.name i.item i.kind) := by
  rw [checkImport, hv]

/-- If all checks pass, each of them does. -/
theorem of_forM_ok {α ε : Type} {g : α → Except ε PUnit} {l : List α} (h : l.forM g = .ok ⟨⟩) :
    ∀ a ∈ l, g a = .ok ⟨⟩ := by
  induction l with
  | nil => exact fun a ha => (List.not_mem_nil ha).elim
  | cons b l ih =>
      rw [List.forM_eq_forM, List.forM_cons] at h
      cases hb : g b with
      | error e => rw [hb] at h; cases h
      | ok v =>
          rw [hb] at h
          intro a ha
          rcases List.mem_cons.mp ha with rfl | ha
          · exact hb
          · exact ih h a ha

/-! ## What is made -/

/-- **What linking makes is fully linked.** -/
theorem fullyLinked_materialise (hf : Named f) {handle : σ → Handle} {name : Identity}
    {bytes : Bytes} {origin : Origin} {u : LinkedUnit} {s s' : σ}
    (h : materialise f handle name bytes origin s = (.ok u, s')) :
    u.name = name ∧ u.origin = origin ∧ ∃ d, declared name bytes = .ok d ∧ FullyLinked d u := by
  obtain ⟨d, s₁, hread, h⟩ := ok_of_bind h
  obtain ⟨above, s₂, habove, h⟩ := ok_of_bind h
  obtain ⟨names, s₃, hparse, h⟩ := ok_of_bind h
  obtain ⟨units, s₄, hunits, h⟩ := ok_of_bind h
  obtain ⟨⟨⟩, s₅, hcheck, h⟩ := ok_of_bind h
  have hnames := (lift_eq hparse).1
  have htexts : units.map (·.name.text) = moduleNames d.interface := by
    rw [← text_of_moduleIdentities hnames, ← names_of_dependencies hf hunits, List.map_map]
    rfl
  cases h
  refine ⟨rfl, rfl, d, (lift_eq hread).1, rfl, rfl, name_of_supertype hf habove, fun m => ?_, ?_,
    fun i hi => ?_⟩
  · have hm : (∃ v ∈ units, v.name.text = m) ↔ m ∈ moduleNames d.interface := by
      rw [← htexts, List.mem_map]
    exact hm.trans (List.mem_eraseDups.trans List.mem_map)
  · have hordered := pairwise_eraseDups (d.interface.imports.map (·.moduleName))
    rw [← moduleNames, ← htexts, List.pairwise_map] at hordered
    exact hordered
  · obtain ⟨v, hv⟩ := exists_dependency hf hnames hunits i hi
    refine ⟨v, hv, ?_⟩
    have hpass := of_forM_ok (lift_eq hcheck).1 i hi
    by_contra hkind
    rw [checkImport_eq hv, if_neg hkind] at hpass
    cases hpass

/-! ## What stands in the way -/

/-- What linking can fail for once the bytes have been read: each constructor gives the error, and the
request among those that linking made which shows it. -/
inductive Obstacle (f : Resolving σ) (name : Identity) (d : Declared)
    (asked : List (Identity × σ)) : LinkageError → Prop
  /-- The supertype does not resolve. -/
  | supertype {n : Identity} {s : σ} {e : ResolveError} (hn : d.metadata.supertype = some n)
      (hasked : (n, s) ∈ asked) (hfails : (f n s).1 = .error e) :
      Obstacle f name d asked (blame (.unresolvedSupertype name n) e)
  /-- A module that is imported from is no identity. -/
  | notIdentity {i : Wasm.Import} {e : IdentityError} (hi : i ∈ d.interface.imports)
      (hparse : Identity.parse i.moduleName = .error e) :
      Obstacle f name d asked (.invalidDependency name i.moduleName)
  /-- A dependency does not resolve. -/
  | dependency {i : Wasm.Import} {n : Identity} {s : σ} {e : ResolveError}
      (hi : i ∈ d.interface.imports) (hn : n.text = i.moduleName) (hasked : (n, s) ∈ asked)
      (hfails : (f n s).1 = .error e) :
      Obstacle f name d asked (blame (.unresolvedDependency name n) e)
  /-- A dependency exports nothing of the name and kind of an import. -/
  | missing {i : Wasm.Import} {n : Identity} {s : σ} {v : LinkedUnit}
      (hi : i ∈ d.interface.imports) (hn : n.text = i.moduleName) (hasked : (n, s) ∈ asked)
      (hv : (f n s).1 = .ok v) (hkind : v.interface.exportKind? i.item ≠ some i.kind) :
      Obstacle f name d asked (.missingImport name n i.item i.kind)

/-- A reference that cannot be followed is blamed for the error of the request. -/
theorem error_of_follow {n : Identity} {wrap : ResolveError → LinkageError} {s s' : σ}
    {e : LinkageError} (h : follow f n wrap s = (.error e, s')) :
    ∃ e', (f n s).1 = .error e' ∧ e = blame wrap e' := by
  unfold follow at h
  cases hn : f n s with
  | mk outcome t =>
      rw [hn] at h
      cases outcome with
      | ok v => cases h
      | error e' => cases h; exact ⟨e', rfl, rfl⟩

/-- Dependencies fail with the first request that fails. -/
theorem error_of_dependencies {name : Identity} {names : List Identity} {s s' : σ} {e : LinkageError}
    (h : dependencies f name names s = (.error e, s')) :
    ∃ n t e', n ∈ names ∧ (n, t) ∈ requests f names s ∧ (f n t).1 = .error e' ∧
      e = blame (.unresolvedDependency name n) e' := by
  induction names generalizing s with
  | nil => cases h
  | cons n rest ih =>
      rcases error_of_bind h with h | ⟨u, t, hu, h⟩
      · obtain ⟨e', hfails, rfl⟩ := error_of_follow h
        exact ⟨n, s, e', List.mem_cons_self, List.mem_cons_self, hfails, rfl⟩
      · rcases error_of_bind h with h | ⟨others, t', -, h⟩
        · obtain ⟨m, t', e', hm, hasked, hfails, he⟩ := ih h
          refine ⟨m, t', e', List.mem_cons_of_mem _ hm, List.mem_cons_of_mem _ ?_, hfails, he⟩
          rw [ok_of_follow hu]
          exact hasked
        · cases h

/-- Every dependency answered a request. -/
theorem asked_of_mem_dependencies (hf : Named f) {name : Identity} {names : List Identity}
    {units : List LinkedUnit} {s s' : σ} (h : dependencies f name names s = (.ok units, s')) :
    ∀ v ∈ units, ∃ t, (v.name, t) ∈ requests f names s ∧ (f v.name t).1 = .ok v := by
  induction names generalizing units s with
  | nil => cases h; exact fun v hv => (List.not_mem_nil hv).elim
  | cons n rest ih =>
      obtain ⟨u, t, hu, hrest⟩ := ok_of_bind h
      obtain ⟨others, t', hothers, hpure⟩ := ok_of_bind hrest
      cases hpure
      have hu := ok_of_follow hu
      have hname := hf _ _ _ _ hu
      intro v hv
      unfold requests
      rw [hu]
      rcases List.mem_cons.mp hv with rfl | hv
      · exact ⟨s, by rw [hname]; exact List.mem_cons_self, by rw [hname, hu]⟩
      · obtain ⟨t'', hasked, hv⟩ := ih hothers v hv
        exact ⟨t'', List.mem_cons_of_mem _ hasked, hv⟩

/-- A module is blamed if its name is no identity. -/
theorem error_of_moduleIdentities {name : Identity} {ms : List String} {e : LinkageError}
    (h : moduleIdentities name ms = .error e) :
    ∃ m ∈ ms, (∃ e', Identity.parse m = .error e') ∧ e = .invalidDependency name m := by
  induction ms with
  | nil => cases h
  | cons m rest ih =>
      unfold moduleIdentities at h
      split at h
      · next e' hm => cases h; exact ⟨m, List.mem_cons_self, ⟨e', hm⟩, rfl⟩
      · cases hrest : moduleIdentities name rest with
        | ok others => rw [hrest] at h; cases h
        | error e' =>
            rw [hrest] at h
            cases h
            obtain ⟨m', hm', hfault⟩ := ih hrest
            exact ⟨m', List.mem_cons_of_mem _ hm', hfault⟩

/-- If not all checks pass, one of them gives the error. -/
theorem error_of_forM {α ε : Type} {g : α → Except ε PUnit} {l : List α} {e : ε}
    (h : l.forM g = .error e) : ∃ a ∈ l, g a = .error e := by
  induction l with
  | nil => cases h
  | cons b l ih =>
      rw [List.forM_eq_forM, List.forM_cons] at h
      cases hb : g b with
      | error e' => rw [hb] at h; cases h; exact ⟨b, List.mem_cons_self, hb⟩
      | ok v =>
          rw [hb] at h
          obtain ⟨a, ha, hfails⟩ := ih h
          exact ⟨a, List.mem_cons_of_mem _ ha, hfails⟩

/-- Requests after that for the supertype. -/
theorem requests_of_supertype {name : Identity} {declared : Option Identity}
    {above : Option LinkedUnit} {s t : σ} (h : supertype f name declared s = (.ok above, t))
    (names : List Identity) : ∀ p ∈ requests f names t, p ∈ requests f (declared.toList ++ names) s := by
  intro p hp
  cases declared with
  | none => cases h; exact hp
  | some n =>
      obtain ⟨u, t', hu, hpure⟩ := ok_of_bind h
      cases hpure
      refine List.mem_cons_of_mem _ ?_
      rw [ok_of_follow hu]
      exact hp

/-- **Linking bytes that can be read fails for an obstacle only.** -/
theorem obstacle_materialise (hf : Named f) {handle : σ → Handle} {name : Identity} {bytes : Bytes}
    {origin : Origin} {d : Declared} (hd : declared name bytes = .ok d) {e : LinkageError} {s s' : σ}
    (h : materialise f handle name bytes origin s = (.error e, s')) :
    Obstacle f name d (asked f handle name bytes origin s) e := by
  rw [asked_eq, referenced, hd]
  dsimp only
  rcases error_of_bind h with h | ⟨d', s₁, hread, h⟩
  · rw [lift, hd] at h
    cases h
  obtain ⟨hd', rfl⟩ := lift_eq hread
  obtain rfl : d = d' := Except.ok.inj (hd.symm.trans hd')
  rcases error_of_bind h with h | ⟨above, s₂, habove, h⟩
  -- the supertype
  · cases hn : d.metadata.supertype with
    | none => rw [hn] at h; cases h
    | some n =>
        rw [hn] at h
        rcases error_of_bind h with h | ⟨u, t, -, h⟩
        · obtain ⟨e', hfails, rfl⟩ := error_of_follow h
          exact .supertype hn List.mem_cons_self hfails
        · cases h
  rcases error_of_bind h with h | ⟨names, s₃, hparse, h⟩
  -- the names of the modules
  · obtain ⟨m, hm, ⟨e', hparse⟩, rfl⟩ := error_of_moduleIdentities (lift_eq h).1
    obtain ⟨i, hi, rfl⟩ := List.mem_map.mp (List.mem_eraseDups.mp hm)
    exact .notIdentity hi hparse
  obtain ⟨hnames, rfl⟩ := lift_eq hparse
  have hlater := requests_of_supertype habove names
  have htexts := text_of_moduleIdentities hnames
  rw [hnames]
  dsimp only
  rcases error_of_bind h with h | ⟨units, s₄, hunits, h⟩
  -- the dependencies
  · obtain ⟨n, t, e', hn, hasked, hfails, rfl⟩ := error_of_dependencies h
    have hmem : n.text ∈ moduleNames d.interface := htexts ▸ List.mem_map_of_mem hn
    obtain ⟨i, hi, htext⟩ := List.mem_map.mp (List.mem_eraseDups.mp hmem)
    exact .dependency hi htext.symm (hlater _ hasked) hfails
  rcases error_of_bind h with h | ⟨v, s₅, -, h⟩
  -- the imports
  · obtain ⟨i, hi, hfails⟩ := error_of_forM (lift_eq h).1
    obtain ⟨v, hv⟩ := exists_dependency hf hnames hunits i hi
    rw [checkImport_eq hv] at hfails
    split at hfails
    · cases hfails
    · next hkind =>
      cases hfails
      obtain ⟨t, hasked, hanswer⟩ := asked_of_mem_dependencies hf hunits v (List.mem_of_find?_eq_some hv)
      have hname : v.name.text = i.moduleName := eq_of_beq (List.find?_some hv :)
      exact .missing hi hname (hlater _ hasked) hanswer hkind
  · cases h

end Linkage

end LiveUnits
