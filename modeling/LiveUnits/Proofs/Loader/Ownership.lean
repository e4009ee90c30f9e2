import LiveUnits.Proofs.Loader.Closure

/-!
# Who owns the units that can be reached

Every unit that can be reached from a registered unit, or from one that a request returned, is owned
in one of two ways: it comes from a container and is the very unit that the registry holds under its
name, or it comes from the host and is the very unit that the host holds under its name.  Host units
refer to host units only, so a lineage is a stretch of container units followed by a stretch of host
units, and since a unit is never part of its own lineage, no name occurs twice in a stretch.
-/

namespace LiveUnits

namespace Loader

/-- A unit is the very one that the registry or the host holds under its name. -/
def Owns (l : Loader) (r : Registry) (u : LinkedUnit) : Prop :=
  (∃ root, u.origin = .container root) ∧ r.unit? u.name.text = some u ∨
    u.origin = .host ∧ l.host.lookup u.name.text = some u

/-- One of the requests for `ns`, made one after the other, returned a unit. -/
def Returned (l : Loader) (ns : List Identity) (u : LinkedUnit) : Prop :=
  ∃ before n after, ns = before ++ n :: after ∧ (l.resolve n (l.visit before {})).1 = .ok u

variable {l : Loader} {r : Registry}

/-- A loader owns its registered units. -/
theorem Closed.owns_of_mem (h : l.Closed r) {u : LinkedUnit} (hu : u ∈ r.units) : l.Owns r u :=
  .inl ⟨h.container u hu, h.unit?_name hu⟩

/-- A loader owns the units of its host. -/
theorem owns_of_lookup (hhost : l.host.Closed) {u : LinkedUnit} {n : Identity}
    (hu : l.host.lookup n.text = some u) : l.Owns r u := by
  have hmem := HostUnits.mem_of_lookup hu
  exact .inr ⟨hhost.host u hmem, hhost.lookup_name hmem⟩

/-- What answers a name is owned. -/
theorem Closed.owns_of_answers (h : l.Closed r) (hhost : l.host.Closed) {n : Identity}
    {u : LinkedUnit} (hu : l.Answers n u r) : l.Owns r u := by
  rcases hu with ⟨hu, -⟩ | ⟨-, hu⟩
  · exact h.owns_of_mem hu
  · exact owns_of_lookup hhost hu

/-- The references of an owned unit are owned. -/
theorem Closed.owns_references (h : l.Closed r) (hhost : l.host.Closed) {u : LinkedUnit}
    (hu : l.Owns r u) {v : LinkedUnit} (hv : v ∈ u.references) : l.Owns r v := by
  rcases hu with ⟨-, hu⟩ | ⟨-, hu⟩
  · rcases h.references u (Registry.mem_of_unit? hu) v hv with hv | hv
    · exact h.owns_of_mem hv
    · exact owns_of_lookup hhost hv
  · have hmem := hhost.references u (HostUnits.mem_of_lookup hu) v hv
    exact .inr ⟨hhost.host v hmem, hhost.lookup_name hmem⟩

/-- A loader owns everything that a unit of its own reaches. -/
theorem Closed.owns_of_reaches (h : l.Closed r) (hhost : l.host.Closed) {u v : LinkedUnit}
    (hu : l.Owns r u) (huv : u.Reaches v) : l.Owns r v :=
  huv.closed (fun _ hw _ hx => h.owns_references hhost hw hx) hu

/-- Owned units of one name are one unit, unless one comes from a container and one from the host. -/
theorem Owns.eq_of_name_eq {u v : LinkedUnit} (hu : l.Owns r u) (hv : l.Owns r v)
    (hname : u.name.text = v.name.text) (horigin : u.origin = .host ↔ v.origin = .host) : u = v := by
  rcases hu with ⟨⟨root, hroot⟩, hu⟩ | ⟨hhost, hu⟩ <;>
    rcases hv with ⟨⟨root', hroot'⟩, hv⟩ | ⟨hhost', hv⟩
  · rw [hname, hv] at hu
    exact (Option.some.inj hu).symm
  · rw [horigin.mpr hhost'] at hroot
    cases hroot
  · rw [horigin.mp hhost] at hroot'
    cases hroot'
  · rw [hname, hv] at hu
    exact (Option.some.inj hu).symm

/-- What a request returned answers its name ever after. -/
theorem answers_of_returned {ns : List Identity} {u : LinkedUnit} (hu : l.Returned ns u) :
    l.Answers u.name u (l.visit ns {}) := by
  obtain ⟨before, n, after, rfl, hresolve⟩ := hu
  obtain ⟨hclosed, -⟩ := closed_visit before l.closed_start
  obtain ⟨hclosed', -, hanswers⟩ := closed_resolve hclosed n
  obtain ⟨hlater, hgrows⟩ := closed_visit after hclosed'
  have hanswer := l.lasting_answers [] n u _ _ ⟨hclosed', fun m hm => by cases hm⟩
    ⟨hlater, fun m hm => by cases hm⟩ hgrows (hanswers u hresolve)
  rw [visit_append, hanswer.name_eq]
  exact hanswer

/-- What a request returned is owned ever after. -/
theorem owns_of_returned (hhost : l.host.Closed) {ns : List Identity} {u : LinkedUnit}
    (hu : l.Returned ns u) : l.Owns (l.visit ns {}) u :=
  (closed_visit ns l.closed_start).1.owns_of_answers hhost (answers_of_returned hu)

/-! ## Handles -/

/-- The realm of an owned unit's handle tells where the unit comes from. -/
theorem Closed.realm_of_owns (h : l.Closed r) (hhost : l.host.Closed) {u : LinkedUnit}
    (hu : l.Owns r u) :
    u.handle.realm = .loader l.number ∧ r.unit? u.name.text = some u ∨
      u.handle.realm = .host ∧ l.host.lookup u.name.text = some u := by
  rcases hu with ⟨-, hu⟩ | ⟨-, hu⟩
  · exact .inl ⟨(h.numbered.handle_mem (Registry.mem_of_unit? hu)).1, hu⟩
  · exact .inr ⟨hhost.realm u (HostUnits.mem_of_lookup hu), hu⟩

/-- Owned units with one handle are one unit. -/
theorem Closed.eq_of_handle_eq (h : l.Closed r) (hhost : l.host.Closed) {u v : LinkedUnit}
    (hu : l.Owns r u) (hv : l.Owns r v) (hhandle : u.handle = v.handle) : u = v := by
  rcases h.realm_of_owns hhost hu with ⟨hru, hu⟩ | ⟨hru, hu⟩ <;>
    rcases h.realm_of_owns hhost hv with ⟨hrv, hv⟩ | ⟨hrv, hv⟩
  · exact List.inj_on_of_nodup_map h.numbered.nodup (Registry.mem_of_unit? hu)
      (Registry.mem_of_unit? hv) hhandle
  · rw [hhandle, hrv] at hru
    cases hru
  · rw [hhandle, hrv] at hru
    cases hru
  · exact List.inj_on_of_nodup_map hhost.handles (HostUnits.mem_of_lookup hu)
      (HostUnits.mem_of_lookup hv) hhandle

/-- Among owned units, descent is a matter of lineages. -/
theorem Closed.descendsFrom_iff (h : l.Closed r) (hhost : l.host.Closed) {u v : LinkedUnit}
    (hu : l.Owns r u) (hv : l.Owns r v) : u.descendsFrom v = true ↔ v ∈ u.lineage := by
  unfold LinkedUnit.descendsFrom
  rw [List.any_eq_true]
  constructor
  · rintro ⟨w, hw, hhandle⟩
    have howned := h.owns_of_reaches hhost hu (LinkedUnit.reaches_of_mem_lineage hw)
    rwa [← h.eq_of_handle_eq hhost howned hv (eq_of_beq hhandle)]
  · exact fun hmem => ⟨v, hmem, beq_self_eq_true _⟩

/-! ## Lineages -/

/-- A lineage in two stretches: container units, then host units, and no name twice in either. -/
def Stretches (lineage : List LinkedUnit) : Prop :=
  ∃ fresh inherited, lineage = fresh ++ inherited ∧
    (∀ u ∈ fresh, ∃ root, u.origin = .container root) ∧ (∀ u ∈ inherited, u.origin = .host) ∧
    (fresh.map (·.name)).Nodup ∧ (inherited.map (·.name)).Nodup

/-- The lineage of an owned unit splits where the host begins. -/
theorem Closed.split_lineage (h : l.Closed r) (hhost : l.host.Closed) {u : LinkedUnit}
    (hu : l.Owns r u) : ∃ fresh inherited, u.lineage = fresh ++ inherited ∧
      (∀ v ∈ fresh, (∃ root, v.origin = .container root) ∧ r.unit? v.name.text = some v) ∧
      ∀ v ∈ inherited, v.origin = .host ∧ l.host.lookup v.name.text = some v := by
  induction u using LinkedUnit.byReferences with
  | step u ih =>
      rcases hu with hu | hu
      · cases hs : u.supertype with
        | none =>
            refine ⟨[u], [], by rw [LinkedUnit.lineage_eq, hs]; rfl, fun v hv => ?_,
              fun v hv => by cases hv⟩
            obtain rfl := List.mem_singleton.mp hv
            exact hu
        | some v =>
            have hv : v ∈ u.references := LinkedUnit.mem_references.mpr (.inl hs)
            obtain ⟨fresh, inherited, hsplit, hfresh, hinherited⟩ :=
              ih v hv (h.owns_references hhost (.inl hu) hv)
            refine ⟨u :: fresh, inherited, ?_, fun w hw => ?_, hinherited⟩
            · rw [LinkedUnit.lineage_eq, hs, Option.map_some, Option.getD_some, hsplit,
                List.cons_append]
            · rcases List.mem_cons.mp hw with rfl | hw
              · exact hu
              · exact hfresh w hw
      -- from the first host unit on, the lineage stays with the host
      · refine ⟨[], u.lineage, rfl, fun _ hv => (List.not_mem_nil hv).elim, fun v hv => ?_⟩
        have hmem := hhost.mem_of_reaches (LinkedUnit.reaches_of_mem_lineage hv)
          (HostUnits.mem_of_lookup hu.2)
        exact ⟨hhost.host v hmem, hhost.lookup_name hmem⟩

/-- In a part of a lineage where a name determines the unit, no name occurs twice: the same unit
cannot be above itself. -/
theorem nodup_names_of_lineage {units : List LinkedUnit} {find : String → Option LinkedUnit}
    (hsize : units.Pairwise fun v w => sizeOf w < sizeOf v)
    (hfind : ∀ v ∈ units, find v.name.text = some v) : (units.map (·.name)).Nodup := by
  refine List.pairwise_map.mpr (hsize.imp_of_mem fun {v w} hv hw hlt hname => ?_)
  have hsame := hfind w hw
  rw [← show v.name = w.name from hname, hfind v hv] at hsame
  obtain rfl := Option.some.inj hsame
  exact Nat.lt_irrefl _ hlt

/-- **A lineage has two stretches**, since host units refer to host units only. -/
theorem Closed.stretches (h : l.Closed r) (hhost : l.host.Closed) {u : LinkedUnit}
    (hu : l.Owns r u) : Stretches u.lineage := by
  obtain ⟨fresh, inherited, hsplit, hfresh, hinherited⟩ := h.split_lineage hhost hu
  have hsize := u.pairwise_sizeOf_lineage
  rw [hsplit, List.pairwise_append] at hsize
  exact ⟨fresh, inherited, hsplit, fun v hv => (hfresh v hv).1, fun v hv => (hinherited v hv).1,
    nodup_names_of_lineage hsize.1 fun v hv => (hfresh v hv).2,
    nodup_names_of_lineage hsize.2.1 fun v hv => (hinherited v hv).2⟩

/-! ## All requests -/

/-- What holds of the units of a loader after the requests for `ns`, made one after the other. -/
structure WellOwned (l : Loader) (ns : List Identity) : Prop where
  /-- Whatever can be reached from a registered or returned unit is owned. -/
  owned : ∀ u v, u ∈ (l.visit ns {}).units ∨ l.Returned ns u → u.Reaches v →
    l.Owns (l.visit ns {}) v
  /-- Its lineage is a stretch of container units and then one of host units. -/
  stretches : ∀ u v, u ∈ (l.visit ns {}).units ∨ l.Returned ns u → u.Reaches v →
    Stretches v.lineage
  /-- Whatever can be reached from a host unit belongs to the host. -/
  hostOnly : ∀ u v, u ∈ l.host.units → u.Reaches v → v ∈ l.host.units ∧ v.origin = .host
  /-- Handles tell owned units apart. -/
  handles : ∀ u v, l.Owns (l.visit ns {}) u → l.Owns (l.visit ns {}) v → u.handle = v.handle → u = v
  /-- A request returns a unit of the name asked for. -/
  named : ∀ n u, (l.resolve n (l.visit ns {})).1 = .ok u → u.name = n
  /-- Another loader has none of the container units, whatever was asked of it. -/
  apart : ∀ (other : Loader) (ms : List Identity), other.host.Defined → other.number ≠ l.number →
    ∀ u v, l.Owns (l.visit ns {}) u → other.Owns (other.visit ms {}) v → u.origin ≠ .host →
      u.handle ≠ v.handle

/-- **The registry is closed and holds no unit twice**, after any requests and whatever the containers
answer. -/
theorem wellOwned_visit (l : Loader) (hhost : l.host.Defined) (ns : List Identity) :
    l.WellOwned ns := by
  have hclosed := (closed_visit ns l.closed_start).1
  have hhost := hhost.closed
  have howned : ∀ u v, u ∈ (l.visit ns {}).units ∨ l.Returned ns u → u.Reaches v →
      l.Owns (l.visit ns {}) v := by
    intro u v hu huv
    refine huv.closed (fun w hw x hx => hclosed.owns_references hhost hw hx) ?_
    rcases hu with hu | hu
    · exact hclosed.owns_of_mem hu
    · exact owns_of_returned hhost hu
  refine ⟨howned, fun u v hu huv => hclosed.stretches hhost (howned u v hu huv),
    fun u v hu huv => ?_, fun u v => hclosed.eq_of_handle_eq hhost,
    fun n u hu => ((closed_resolve hclosed n).2.2 u hu).name_eq,
    fun other ms hother hne u v hu hv horigin hhandle => ?_⟩
  · have hv := hhost.mem_of_reaches huv hu
    exact ⟨hv, hhost.host v hv⟩
  · have hu' : u.handle.realm = .loader l.number := by
      rcases hu with ⟨-, hu⟩ | ⟨hu, -⟩
      · exact (hclosed.numbered.handle_mem (Registry.mem_of_unit? hu)).1
      · exact absurd hu horigin
    have hclosed' := (closed_visit ms other.closed_start).1
    rcases hclosed'.realm_of_owns hother.closed hv with ⟨hv, -⟩ | ⟨hv, -⟩
    · rw [hhandle, hv] at hu'
      exact hne (Realm.loader.inj hu')
    · rw [hhandle, hv] at hu'
      cases hu'

/-- A unit in memory in front of a host with a unit of the same name. -/
theorem wellOwned_visit_memory :
    ∃ h : HostUnits, h.Defined ∧ (h.lookup "a.Foo").isSome ∧
      (overMemory 1 [("a/Foo.wasm", [0, 0x61, 0x73, 0x6D, 1, 0, 0, 0])] h).WellOwned
        [⟨["a", "Foo"], by decide, by decide⟩] := by
  obtain ⟨h, hdefined, hfound⟩ := HostUnits.exists_defined
  exact ⟨h, hdefined, hfound, wellOwned_visit _ hdefined _⟩

end Loader

end LiveUnits
