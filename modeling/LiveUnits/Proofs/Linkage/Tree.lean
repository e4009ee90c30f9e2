import LiveUnits.Linkage.LinkedUnit

/-!
# Units as trees

A linked unit refers to its supertype and to its dependencies.  What can be reached from it through
references is a finite tree, so proofs about units go by `LinkedUnit.byReferences`: what holds of a
unit as soon as it holds of its references holds of every unit.

The shape of a unit is the unit without what a loader adds to tell its units apart.  Two units with
the same shape agree in name, interface, markers, origin, supertype chain and dependency tree, and
they end in the same host units.  More generally, `relabel` changes nothing but handles, all the way
down; a shape is a unit with other handles (`shape_eq_relabel`).
-/

namespace LiveUnits

/-- A handle without the number that a loader gave the unit. -/
def Handle.shape (h : Handle) : Handle :=
  match h.realm with
  | .host => h
  | .loader number => ⟨.loader number, 0⟩

namespace LinkedUnit

/-! ## References -/

/-- The units that a unit refers to: its supertype, then its dependencies. -/
def references (u : LinkedUnit) : List LinkedUnit := u.supertype.toList ++ u.dependencies

/-- A unit refers to its supertype and to its dependencies. -/
theorem mem_references {u v : LinkedUnit} :
    v ∈ u.references ↔ u.supertype = some v ∨ v ∈ u.dependencies := by
  simp [references]

/-- A reference is a smaller tree. -/
theorem sizeOf_lt_of_mem_references {u v : LinkedUnit} (h : v ∈ u.references) :
    sizeOf v < sizeOf u := by
  obtain ⟨handle, name, interface, markers, origin, supertype, dependencies⟩ := u
  rcases mem_references.mp h with h | h
  · simp only at h
    subst h
    simp only [mk.sizeOf_spec, Option.some.sizeOf_spec]
    omega
  · have hlt := List.sizeOf_lt_of_mem h
    simp only [mk.sizeOf_spec] at hlt ⊢
    omega

/-- Induction over the references of a unit. -/
theorem byReferences {P : LinkedUnit → Prop} (step : ∀ u, (∀ v ∈ u.references, P v) → P u) :
    ∀ u, P u := by
  intro u
  induction hn : sizeOf u using Nat.strongRecOn generalizing u with
  | ind n ih =>
      subst hn
      exact step u fun v hv => ih (sizeOf v) (sizeOf_lt_of_mem_references hv) v rfl

/-- What can be reached from a unit through references. -/
inductive Reaches : LinkedUnit → LinkedUnit → Prop
  | refl (u : LinkedUnit) : Reaches u u
  | step {u v w : LinkedUnit} (h : v ∈ u.references) (tail : Reaches v w) : Reaches u w

/-- What is closed under references holds of everything that can be reached. -/
theorem Reaches.closed {P : LinkedUnit → Prop} (hstep : ∀ u, P u → ∀ v ∈ u.references, P v)
    {u v : LinkedUnit} (h : u.Reaches v) (hu : P u) : P v := by
  induction h with
  | refl => exact hu
  | step hv _ ih => exact ih (hstep _ hu _ hv)

/-! ## Lineages -/

/-- A lineage is a unit followed by the lineage of its supertype. -/
theorem lineage_eq (u : LinkedUnit) : u.lineage = u :: (u.supertype.map lineage).getD [] := by
  obtain ⟨handle, name, interface, markers, origin, supertype, dependencies⟩ := u
  cases supertype <;> simp [lineage, lineageAbove]

/-- A unit reaches everything in its lineage. -/
theorem reaches_of_mem_lineage {u v : LinkedUnit} (h : v ∈ u.lineage) : u.Reaches v := by
  induction u using byReferences with
  | step u ih =>
      rw [lineage_eq, List.mem_cons] at h
      rcases h with rfl | h
      · exact .refl _
      · cases hs : u.supertype with
        | none => simp [hs] at h
        | some w =>
            have hw : w ∈ u.references := mem_references.mpr (.inl hs)
            exact .step hw (ih w hw (by simpa [hs] using h))

/-- Going up a lineage, the trees get smaller. -/
theorem pairwise_sizeOf_lineage (u : LinkedUnit) :
    u.lineage.Pairwise fun v w => sizeOf w < sizeOf v := by
  induction u using byReferences with
  | step u ih =>
      rw [lineage_eq]
      cases hs : u.supertype with
      | none => simp
      | some w =>
          have hw : w ∈ u.references := mem_references.mpr (.inl hs)
          simp only [Option.map_some, Option.getD_some, List.pairwise_cons]
          refine ⟨fun x hx => ?_, ih w hw⟩
          have hlt := sizeOf_lt_of_mem_references hw
          have hpairs := ih w hw
          rw [lineage_eq] at hx hpairs
          rcases List.mem_cons.mp hx with rfl | hx
          · exact hlt
          · exact Nat.lt_trans ((List.pairwise_cons.mp hpairs).1 x hx) hlt

theorem mem_lineage_self (u : LinkedUnit) : u ∈ u.lineage := by
  rw [lineage_eq]
  exact List.mem_cons_self

/-- From any of its units on, a lineage is the lineage of that unit. -/
theorem lineage_suffix {u v : LinkedUnit} (h : v ∈ u.lineage) : v.lineage <:+ u.lineage := by
  induction u using byReferences with
  | step u ih =>
      rw [lineage_eq, List.mem_cons] at h
      rcases h with rfl | h
      · exact List.suffix_refl _
      · cases hs : u.supertype with
        | none => simp [hs] at h
        | some w =>
            have hw : w ∈ u.references := mem_references.mpr (.inl hs)
            have habove : v.lineage <:+ w.lineage := ih w hw (by simpa [hs] using h)
            rw [lineage_eq u, hs]
            exact habove.trans (List.suffix_cons _ _)

/-- What is in the lineage of an ancestor is in that of the unit. -/
theorem mem_lineage_trans {u v w : LinkedUnit} (h : v ∈ u.lineage) (h' : w ∈ v.lineage) :
    w ∈ u.lineage :=
  (lineage_suffix h).subset h'

/-- Two units are not above each other. -/
theorem eq_of_mem_lineage {u v : LinkedUnit} (h : v ∈ u.lineage) (h' : u ∈ v.lineage) : u = v := by
  have hsame : v.lineage = u.lineage :=
    (lineage_suffix h).eq_of_length_le (lineage_suffix h').length_le
  rw [lineage_eq, lineage_eq u] at hsame
  exact (List.cons.inj hsame).1.symm

/-- Of two units of a lineage, one is above the other. -/
theorem mem_lineage_total {u v w : LinkedUnit} (hv : v ∈ u.lineage) (hw : w ∈ u.lineage) :
    w ∈ v.lineage ∨ v ∈ w.lineage := by
  rcases List.suffix_or_suffix_of_suffix (lineage_suffix hv) (lineage_suffix hw) with h | h
  · exact .inr (h.subset v.mem_lineage_self)
  · exact .inl (h.subset w.mem_lineage_self)

/-- A unit is a subtype of the names in its lineage. -/
theorem isSubtypeOf_iff {u : LinkedUnit} {name : String} :
    u.isSubtypeOf name = true ↔ ∃ v ∈ u.lineage, v.name.text = name := by
  simp [isSubtypeOf]

/-! ## Shapes -/

mutual

/-- The unit without what its loader adds to tell it from others. -/
def shape : LinkedUnit → LinkedUnit
  | ⟨handle, name, interface, markers, origin, supertype, dependencies⟩ =>
    ⟨handle.shape, name, interface, markers, origin, shapeAbove supertype, shapes dependencies⟩

/-- The shape of a supertype, if there is one. -/
def shapeAbove : Option LinkedUnit → Option LinkedUnit
  | none => none
  | some u => some u.shape

/-- The shapes of dependencies. -/
def shapes : List LinkedUnit → List LinkedUnit
  | [] => []
  | u :: rest => u.shape :: shapes rest

end

theorem shapes_eq_map (l : List LinkedUnit) : shapes l = l.map shape := by
  induction l with
  | nil => rfl
  | cons u rest ih => simp [shapes, ih]

/-- The shape of a unit is made of the shapes of what it refers to. -/
theorem shape_mk (handle : Handle) (name : Identity) (interface : Wasm.Interface)
    (markers : List String) (origin : Origin) (supertype : Option LinkedUnit)
    (dependencies : List LinkedUnit) :
    shape ⟨handle, name, interface, markers, origin, supertype, dependencies⟩ =
      ⟨handle.shape, name, interface, markers, origin, supertype.map shape,
        dependencies.map shape⟩ := by
  cases supertype <;> simp [shape, shapeAbove, shapes_eq_map]

@[simp] theorem shape_name (u : LinkedUnit) : u.shape.name = u.name := by
  cases u
  rw [shape_mk]

@[simp] theorem shape_origin (u : LinkedUnit) : u.shape.origin = u.origin := by
  cases u
  rw [shape_mk]

/-! ## Relabelling -/

mutual

/-- The unit with other handles, all the way down. -/
def relabel (f : Handle → Handle) : LinkedUnit → LinkedUnit
  | ⟨handle, name, interface, markers, origin, supertype, dependencies⟩ =>
    ⟨f handle, name, interface, markers, origin, relabelAbove f supertype, relabelAll f dependencies⟩

/-- A supertype with other handles, if there is one. -/
def relabelAbove (f : Handle → Handle) : Option LinkedUnit → Option LinkedUnit
  | none => none
  | some u => some (u.relabel f)

/-- Dependencies with other handles. -/
def relabelAll (f : Handle → Handle) : List LinkedUnit → List LinkedUnit
  | [] => []
  | u :: rest => u.relabel f :: relabelAll f rest

end

theorem relabelAll_eq_map (f : Handle → Handle) (l : List LinkedUnit) :
    relabelAll f l = l.map (relabel f) := by
  induction l with
  | nil => rfl
  | cons u rest ih => simp [relabelAll, ih]

/-- Relabelling a unit relabels what it refers to. -/
theorem relabel_mk (f : Handle → Handle) (handle : Handle) (name : Identity) (interface : Wasm.Interface)
    (markers : List String) (origin : Origin) (supertype : Option LinkedUnit)
    (dependencies : List LinkedUnit) :
    relabel f ⟨handle, name, interface, markers, origin, supertype, dependencies⟩ =
      ⟨f handle, name, interface, markers, origin, supertype.map (relabel f),
        dependencies.map (relabel f)⟩ := by
  cases supertype <;> simp [relabel, relabelAbove, relabelAll_eq_map]

variable (f : Handle → Handle) (u : LinkedUnit)

@[simp] theorem relabel_handle : (u.relabel f).handle = f u.handle := by
  cases u
  rw [relabel_mk]

@[simp] theorem relabel_name : (u.relabel f).name = u.name := by
  cases u
  rw [relabel_mk]

@[simp] theorem relabel_interface : (u.relabel f).interface = u.interface := by
  cases u
  rw [relabel_mk]

@[simp] theorem relabel_markers : (u.relabel f).markers = u.markers := by
  cases u
  rw [relabel_mk]

@[simp] theorem relabel_origin : (u.relabel f).origin = u.origin := by
  cases u
  rw [relabel_mk]

@[simp] theorem relabel_supertype : (u.relabel f).supertype = u.supertype.map (relabel f) := by
  cases u
  rw [relabel_mk]

@[simp] theorem relabel_dependencies : (u.relabel f).dependencies = u.dependencies.map (relabel f) := by
  cases u
  rw [relabel_mk]

/-- **A shape is a unit with other handles.** -/
theorem shape_eq_relabel : u.shape = u.relabel Handle.shape := by
  induction u using byReferences with
  | step u ih =>
      obtain ⟨handle, name, interface, markers, origin, supertype, dependencies⟩ := u
      rw [shape_mk, relabel_mk]
      congr 1
      · exact Option.map_congr fun v hv => ih v (mem_references.mpr (.inl hv))
      · exact List.map_congr_left fun v hv => ih v (mem_references.mpr (.inr hv))

/-- Units keep their handles if everything they reach keeps its handle. -/
theorem relabel_eq_self {P : LinkedUnit → Prop} (hstep : ∀ u, P u → ∀ v ∈ u.references, P v)
    (hf : ∀ u, P u → f u.handle = u.handle) (hu : P u) : u.relabel f = u := by
  induction u using byReferences with
  | step u ih =>
      have hsupertype : ∀ v, u.supertype = some v → v.relabel f = v := fun v hv =>
        have hmem := mem_references.mpr (.inl hv)
        ih v hmem (hstep u hu v hmem)
      have hdependencies : ∀ v ∈ u.dependencies, v.relabel f = v := fun v hv =>
        have hmem := mem_references.mpr (.inr hv)
        ih v hmem (hstep u hu v hmem)
      have hhandle := hf u hu
      obtain ⟨handle, name, interface, markers, origin, supertype, dependencies⟩ := u
      rw [relabel_mk, hhandle]
      congr 1
      · exact (Option.map_congr hsupertype).trans Option.map_id'
      · exact (List.map_congr_left hdependencies).trans (List.map_id' _)

theorem relabel_id : u.relabel id = u :=
  relabel_eq_self id u (P := fun _ => True) (fun _ _ _ _ => trivial) (fun _ _ => rfl) trivial

/-- The lineage of a relabelled unit is relabelled. -/
theorem lineage_relabel : (u.relabel f).lineage = u.lineage.map (relabel f) := by
  induction u using byReferences with
  | step u ih =>
      rw [lineage_eq, u.lineage_eq, relabel_supertype]
      cases hs : u.supertype with
      | none => rfl
      | some v =>
          have hv := ih v (mem_references.mpr (.inl hs))
          simp only [Option.map_some, Option.getD_some, List.map_cons, hv]

/-- Different handles that stay different tell the same units apart. -/
theorem descendsFrom_relabel (hf : Function.Injective f) (v : LinkedUnit) :
    (u.relabel f).descendsFrom (v.relabel f) = u.descendsFrom v := by
  unfold descendsFrom
  rw [lineage_relabel, List.any_map]
  congr 1
  funext w
  simp only [Function.comp_apply, relabel_handle]
  exact Bool.eq_iff_iff.mpr (by simp [hf.eq_iff])

end LinkedUnit

end LiveUnits
