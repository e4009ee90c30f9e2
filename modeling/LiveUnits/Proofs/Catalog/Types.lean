import LiveUnits.Proofs.Catalog.Agreement

/-!
# Types of a catalog

A query for a type compares units, while whoever asks thinks in names.  The two come to the same
because every unit of a catalog is owned: it is the very unit that the registry or the host holds under
its name.  So what is of a type has in its lineage the unit of that name which comes from a container,
or from the host, as the unit of the type does (`exact_make`), and where no container bears the name of
a host unit the names decide alone.

Whatever is shadowed, the types form a forest (`forest_make`).  Names alone would not do: a unit may
extend a host unit that extends the host unit of its own name.  But lineages are lists without
repetitions, and from any unit on a lineage is the lineage of that unit.
-/

namespace LiveUnits

namespace Catalog

open Loader

variable {c : Catalog} {l : Loader} {r : Registry}

/-! ## Entries -/

/-- An entry is that of a compiled unit or of a foreign one. -/
theorem mem_entries {e : CatalogEntry} : e ∈ c.entries ↔ e ∈ c.compiled ∨ e ∈ c.foreign :=
  List.mem_merge

/-- Whether one entry may stand before another one, by their names. -/
theorem not_precedes_iff (a b : CatalogEntry) :
    (!b.name.precedes a.name) = true ↔ (compare a.text b.text).isLE = true := by
  have hgt : compare b.text a.text = .lt ↔ compare a.text b.text = .gt :=
    Std.OrientedCmp.gt_iff_lt.symm
  show (!(compare b.text a.text == .lt)) = true ↔ _
  cases h : compare a.text b.text <;> simp_all

/-- Two ascending lists without a common name are merged into an ascending one. -/
theorem ascending_entries (hcompiled : Ascending CatalogEntry.text c.compiled)
    (hforeign : Ascending CatalogEntry.text c.foreign)
    (hapart : ∀ e ∈ c.compiled, ∀ e' ∈ c.foreign, e.text ≠ e'.text) :
    Ascending CatalogEntry.text c.entries := by
  have hweak {a b : CatalogEntry} (h : compare a.text b.text = .lt) :
      (!b.name.precedes a.name) = true := by
    rw [not_precedes_iff, h]
    rfl
  have hsorted : c.entries.Pairwise fun a b => (!b.name.precedes a.name) = true := by
    refine List.pairwise_merge (fun a b d hab hbd => ?_) (fun a b => ?_) _ _ (hcompiled.imp hweak)
      (hforeign.imp hweak)
    · rw [not_precedes_iff] at hab hbd ⊢
      exact Std.TransCmp.isLE_trans hab hbd
    · rw [Bool.or_eq_true, not_precedes_iff, not_precedes_iff]
      cases h : compare a.text b.text with
      | lt => exact .inl rfl
      | eq => exact .inl rfl
      | gt =>
          right
          rw [Std.OrientedCmp.gt_iff_lt.mp h]
          rfl
  have hnames : (c.entries.map CatalogEntry.text).Nodup := by
    refine (((List.merge_perm_append _).map _).nodup_iff).mpr ?_
    rw [List.map_append, List.nodup_append]
    refine ⟨hcompiled.nodup, hforeign.nodup, fun a ha b hb => ?_⟩
    obtain ⟨e, he, rfl⟩ := List.mem_map.mp ha
    obtain ⟨e', he', rfl⟩ := List.mem_map.mp hb
    exact hapart e he e' he'
  refine (hsorted.and (List.pairwise_map.mp hnames)).imp fun {a b} ⟨hle, hne⟩ => ?_
  rw [not_precedes_iff] at hle
  cases h : compare a.text b.text with
  | lt => rfl
  | eq => exact absurd (Std.compare_eq_iff_eq.mp h) hne
  | gt =>
      rw [h] at hle
      cases hle

/-- What a catalog has under a name is an entry with this name. -/
theorem mem_of_get? {name : String} {e : CatalogEntry} (h : c.get? name = some e) :
    e ∈ c.entries ∧ e.text = name := by
  unfold get? at h
  rw [mem_entries]
  cases hfound : find? c.compiled name with
  | some e' =>
      simp only [hfound, Option.some.injEq] at h
      obtain rfl := h
      exact ⟨.inl (List.mem_of_find?_eq_some hfound), key_eq_of_find? hfound⟩
  | none =>
      simp only [hfound] at h
      exact ⟨.inr (List.mem_of_find?_eq_some h), key_eq_of_find? h⟩

/-! ## What queries rest on -/

/-- A catalog over a registry: the names ascend, and every unit is owned. -/
structure Settled (c : Catalog) (l : Loader) (r : Registry) : Prop where
  host : l.host.Closed
  registry : l.Closed r
  /-- The names ascend, so no name occurs twice. -/
  ascending : Ascending CatalogEntry.text c.entries
  /-- Every unit is the very one that the registry or the host holds under its name. -/
  owned : ∀ e ∈ c.entries, l.Owns r e.unit

/-- **A catalog that is made over a loader is settled**, if the compiled units were returned by earlier
requests. -/
theorem settled_make (hhost : l.host.Closed) {ns : List Identity} {compiled : List CatalogEntry}
    (hcompiled : ∀ e ∈ compiled, l.Returned ns e.unit) :
    (make l compiled (l.visit ns {})).1.Settled l (make l compiled (l.visit ns {})).2 := by
  have hvisited := (closed_visit ns l.closed_start).1
  obtain ⟨hclosed, hgrows⟩ := closed_visit (uncompiled l (sortByKey CatalogEntry.text compiled)) hvisited
  refine ⟨hhost, hclosed, ascending_entries (ascending_sortByKey compiled) ?_ ?_, fun e he => ?_⟩
  · exact List.pairwise_map.mpr ((ascending_sortByKey _).filter _)
  · intro e he e' he' hname
    obtain ⟨u, hu, rfl⟩ := List.mem_map.mp he'
    have hfree : find? (sortByKey CatalogEntry.text compiled) u.name.text = none := by
      simpa using (List.mem_filter.mp hu).2
    exact List.find?_eq_none.mp hfree e he (beq_iff_eq.mpr hname)
  · rcases mem_entries.mp he with he | he
    · have hanswer := answers_of_returned (hcompiled e (mem_of_mem_sortByKey he))
      have hlater := l.lasting_answers [] _ _ _ _ ⟨hvisited, fun _ hm => (List.not_mem_nil hm).elim⟩
        ⟨hclosed, fun _ hm => (List.not_mem_nil hm).elim⟩ hgrows hanswer
      exact hclosed.owns_of_answers hhost hlater
    · obtain ⟨u, hu, rfl⟩ := List.mem_map.mp he
      have hmem : u ∈ foreignUnits l.host _ l.available.1 := (List.mem_filter.mp hu).1
      rcases List.mem_append.mp (mem_of_mem_sortByKey hmem) with hu | hu
      · have hu := List.mem_of_mem_filter hu
        exact .inr ⟨hhost.host u hu, hhost.lookup_name hu⟩
      · exact hclosed.owns_of_mem hu

namespace Settled

variable (h : c.Settled l r)

include h

/-- Whatever is above a unit of the catalog is owned. -/
theorem owns_of_mem_lineage {e : CatalogEntry} (he : e ∈ c.entries) {u : LinkedUnit}
    (hu : u ∈ e.unit.lineage) : l.Owns r u :=
  h.registry.owns_of_reaches h.host (h.owned e he) (LinkedUnit.reaches_of_mem_lineage hu)

/-- An entry whose unit has the name of another one, and comes from a container or from the host as that
one does, has that unit. -/
theorem eq_unit {target : CatalogEntry} (htarget : target ∈ c.entries) {u : LinkedUnit}
    (hu : l.Owns r u) (hname : u.name.text = target.text)
    (horigin : u.origin = .host ↔ target.unit.origin = .host) : u = target.unit :=
  hu.eq_of_name_eq (h.owned target htarget) hname horigin

/-- What is of a type has the unit of the type in its lineage. -/
theorem mem_byType {type : String} {e : CatalogEntry} : e ∈ c.byType type ↔
    e ∈ c.entries ∧ ∃ target, c.get? type = some target ∧ target.unit ∈ e.unit.lineage := by
  unfold byType
  cases htarget : c.get? type with
  | none => simp
  | some target =>
      simp only [List.mem_filter, Option.some.injEq, exists_eq_left']
      exact and_congr_right fun he =>
        h.registry.descendsFrom_iff h.host (h.owned e he) (h.owned target (mem_of_get? htarget).1)

/-- An entry is of its own type. -/
theorem mem_byType_self {type : String} {e : CatalogEntry} (he : c.get? type = some e) :
    e ∈ c.byType type :=
  h.mem_byType.mpr ⟨(mem_of_get? he).1, e, he, e.unit.mem_lineage_self⟩

/-- A name without an entry is no type, and every other name is one. -/
theorem byType_eq_nil_iff {type : String} : c.byType type = [] ↔ c.get? type = none := by
  constructor
  · intro hnil
    cases htarget : c.get? type with
    | none => rfl
    | some target =>
        have hself := h.mem_byType_self htarget
        rw [hnil] at hself
        cases hself
  · intro hnone
    unfold byType
    rw [hnone]

/-- What is of a type is known by a name and by where the unit of that name comes from. -/
theorem mem_byType_of_get? {type : String} {target : CatalogEntry} (htarget : c.get? type = some target)
    {e : CatalogEntry} : e ∈ c.byType type ↔ e ∈ c.entries ∧
      ∃ u ∈ e.unit.lineage, u.name.text = type ∧ (u.origin = .host ↔ target.unit.origin = .host) := by
  obtain ⟨hmem, hname⟩ := mem_of_get? htarget
  rw [h.mem_byType, htarget]
  refine and_congr_right fun he => ⟨?_, ?_⟩
  · rintro ⟨target', hsame, hlineage⟩
    obtain rfl := Option.some.inj hsame
    exact ⟨target.unit, hlineage, hname, Iff.rfl⟩
  · rintro ⟨u, hu, hsame, horigin⟩
    have heq := h.eq_unit hmem (h.owns_of_mem_lineage he hu) (hsame.trans hname.symm) horigin
    exact ⟨target, rfl, heq ▸ hu⟩

/-- The units that extend a type are in the order of their names. -/
theorem ascending_byType (type : String) : Ascending CatalogEntry.text (c.byType type) := by
  unfold byType
  cases c.get? type with
  | none => exact .nil
  | some target => exact h.ascending.filter _

end Settled

/-! ## Shadowed names -/

/-- A container bears the name of a host unit: it lists the name, even if what it lists cannot be linked,
or a unit that it served is registered under the name. -/
def Shadowed (l : Loader) (r : Registry) (name : String) : Prop :=
  (l.host.lookup name).isSome ∧ ((r.unit? name).isSome ∨ ∃ n ∈ l.available.1, n.text = name)

/-- Owned units of one name are one unit if the name is not shadowed. -/
theorem eq_of_not_shadowed {u v : LinkedUnit} (hu : l.Owns r u) (hv : l.Owns r v)
    (hname : u.name.text = v.name.text) (hplain : ¬ Shadowed l r v.name.text) : u = v := by
  have hboth {x y : LinkedUnit} (hx : r.unit? v.name.text = some x)
      (hy : l.host.lookup v.name.text = some y) : False :=
    hplain ⟨by rw [hy]; rfl, .inl (by rw [hx]; rfl)⟩
  rcases hu with ⟨-, hu⟩ | ⟨-, hu⟩ <;> rcases hv with ⟨-, hv⟩ | ⟨-, hv⟩ <;> rw [hname] at hu
  · exact Option.some.inj (hu.symm.trans hv)
  · exact (hboth hu hv).elim
  · exact (hboth hv hu).elim
  · exact Option.some.inj (hu.symm.trans hv)

/-- An owned unit whose name is not shadowed is the unit of an entry. -/
theorem exists_get?_of_owns {compiled : List CatalogEntry}
    (h : (make l compiled r).1.Settled l (make l compiled r).2) {u : LinkedUnit}
    (hu : l.Owns (make l compiled r).2 u) (hplain : ¬ Shadowed l (make l compiled r).2 u.name.text) :
    ∃ target, (make l compiled r).1.get? u.name.text = some target ∧ target.unit = u := by
  have hunit := unit_get?_make h.host h.registry u.name
  cases htarget : (make l compiled r).1.get? u.name.text with
  | some target =>
      obtain ⟨hmem, hname⟩ := mem_of_get? htarget
      exact ⟨target, rfl, eq_of_not_shadowed (h.owned target hmem) hu hname hplain⟩
  | none =>
      -- nothing is registered, so the host has the unit, and only a listed name would hide it
      rw [htarget, Option.map_none, eq_comm, Option.or_eq_none_iff, Option.or_eq_none_iff] at hunit
      obtain ⟨-, hfree, hhidden⟩ := hunit
      rcases hu with ⟨-, hu⟩ | ⟨-, hu⟩
      · rw [hfree] at hu
        cases hu
      · split at hhidden
        · next hn => exact absurd ⟨by rw [hu]; rfl, .inr ⟨u.name, hn, rfl⟩⟩ hplain
        · rw [hu] at hhidden
          cases hhidden

/-- Where a name is not shadowed, it tells alone what is of its type. -/
theorem mem_byType_of_not_shadowed {compiled : List CatalogEntry}
    (h : (make l compiled r).1.Settled l (make l compiled r).2) {type : String}
    (hplain : ¬ Shadowed l (make l compiled r).2 type) {e : CatalogEntry} :
    e ∈ (make l compiled r).1.byType type ↔
      e ∈ (make l compiled r).1.entries ∧ e.unit.isSubtypeOf type = true := by
  rw [h.mem_byType, LinkedUnit.isSubtypeOf_iff]
  refine and_congr_right fun he => ⟨?_, ?_⟩
  · rintro ⟨target, htarget, hlineage⟩
    exact ⟨target.unit, hlineage, (mem_of_get? htarget).2⟩
  · rintro ⟨u, hu, rfl⟩
    obtain ⟨target, htarget, rfl⟩ := exists_get?_of_owns h (h.owns_of_mem_lineage he hu) hplain
    exact ⟨target, htarget, hu⟩

/-! ## Exact answers -/

/-- What the queries for types and markers tell. -/
structure Exact (c : Catalog) (l : Loader) (r : Registry) : Prop where
  /-- A name without an entry is no type, and every other name is one. -/
  unknown : ∀ type, c.byType type = [] ↔ c.get? type = none
  /-- What is of a type has a unit of its name in its lineage that comes from a container, or from the
  host, as the unit of the type does. -/
  known : ∀ type target, c.get? type = some target → ∀ e, e ∈ c.byType type ↔
    (e ∈ c.compiled ∨ e ∈ c.foreign) ∧
      ∃ u ∈ e.unit.lineage, u.name.text = type ∧ (u.origin = .host ↔ target.unit.origin = .host)
  /-- The names ascend, and every entry is there once. -/
  ascending : ∀ type, Ascending CatalogEntry.text (c.byType type)
  /-- Where no container bears the name of a host unit, names decide alone. -/
  plain : ∀ type, ¬ Shadowed l r type → ∀ e, e ∈ c.byType type ↔
    (e ∈ c.compiled ∨ e ∈ c.foreign) ∧ e.unit.isSubtypeOf type = true
  /-- The marked entries that descend from a type are the compiled ones of the type that are marked. -/
  marked : ∀ marker type target, c.get? type = some target → ∀ e,
    e ∈ c.byMarker marker ∧ e.unit.descendsFrom target.unit = true ↔
      e ∈ c.byType type ∧ e ∈ c.compiled ∧ e.unit.hasMarker marker = true

/-- **Queries for types are exact**, whatever the containers answer and whichever names they shadow, if
the compiled units were returned by earlier requests. -/
theorem exact_make (l : Loader) (hhost : l.host.Defined) (ns : List Identity)
    (compiled : List CatalogEntry) (hcompiled : ∀ e ∈ compiled, l.Returned ns e.unit) :
    (make l compiled (l.visit ns {})).1.Exact l (make l compiled (l.visit ns {})).2 := by
  have hsettled := settled_make hhost.closed hcompiled
  constructor
  case unknown => exact fun type => hsettled.byType_eq_nil_iff
  case known =>
    intro type target htarget e
    rw [← mem_entries]
    exact hsettled.mem_byType_of_get? htarget
  case ascending => exact hsettled.ascending_byType
  case plain =>
    intro type hplain e
    rw [← mem_entries]
    exact mem_byType_of_not_shadowed hsettled hplain
  case marked =>
    intro marker type target htarget e
    have hmem := mem_entries (c := (make l compiled (l.visit ns {})).1) (e := e)
    unfold byType byMarker
    rw [htarget, List.mem_filter, List.mem_filter, hmem]
    constructor
    · rintro ⟨⟨hc, hmarker⟩, hdescends⟩
      exact ⟨⟨.inl hc, hdescends⟩, hc, hmarker⟩
    · rintro ⟨⟨-, hdescends⟩, hc, hmarker⟩
      exact ⟨⟨hc, hmarker⟩, hdescends⟩

namespace Shadowing

/-- A unit that extends another one and has nothing else. -/
def extending (type : String) : Bytes :=
  let payload := 15 :: Utf8.encode extendsSection ++ Utf8.encode type
  [0, 0x61, 0x73, 0x6D, 1, 0, 0, 0, 0, UInt8.ofNat payload.length] ++ payload

def base : Identity := ⟨["kit", "Base"], by decide, by decide⟩

def derived : Identity := ⟨["kit", "Derived"], by decide, by decide⟩

/-- A unit in memory that has the name of a host unit. -/
def loader (h : HostUnits) : Loader := overMemory 1 [("kit/Base.wasm", extending "kit.Derived")] h

/-- The second module declares the first one as its supertype and nothing else. -/
theorem declared_extending : ∃ d, Linkage.declared base (extending "kit.Derived") = .ok d ∧
    d.metadata.supertype = some derived ∧ d.interface.imports = [] := by
  have hdeclared : (Linkage.declared base (extending "kit.Derived")).toOption.any (fun d =>
      d.metadata.supertype = some derived && d.interface.imports.isEmpty) = true := by decide +kernel
  cases h : Linkage.declared base (extending "kit.Derived") with
  | error e => simp [h, Except.toOption] at hdeclared
  | ok d => simpa [h, Except.toOption] using hdeclared

/-- A host with a unit and a subtype of it. -/
theorem exists_host : ∃ h : HostUnits, h.Defined ∧ ∃ above, h.lookup "kit.Derived" = some above ∧
    above.lineage.map (·.name.text) = ["kit.Derived", "kit.Base"] := by
  have hdefine : ((HostUnits.empty.define "kit.Base" [0, 0x61, 0x73, 0x6D, 1, 0, 0, 0]).toOption.bind
      fun h => (h.define "kit.Derived" (extending "kit.Base")).toOption).any (fun h =>
        (h.lookup "kit.Derived").any fun above =>
          above.lineage.map (·.name.text) = ["kit.Derived", "kit.Base"]) = true := by decide +kernel
  cases hbase : HostUnits.empty.define "kit.Base" [0, 0x61, 0x73, 0x6D, 1, 0, 0, 0] with
  | error e => rw [hbase] at hdefine; cases hdefine
  | ok before =>
      cases hderived : before.define "kit.Derived" (extending "kit.Base") with
      | error e => rw [hbase, Except.toOption, Option.bind_some, hderived] at hdefine; cases hdefine
      | ok h =>
          rw [hbase, Except.toOption, Option.bind_some, hderived, Except.toOption, Option.any_some,
            Option.any_eq_true] at hdefine
          obtain ⟨above, habove, hlineage⟩ := hdefine
          exact ⟨h, .define (.define .empty hbase) hderived, above, habove, of_decide_eq_true hlineage⟩

/-- A unit extends a subtype of the host unit that it shadows. -/
theorem exists_shadowing : ∃ h : HostUnits, h.Defined ∧ ∃ u, (loader h).Returned [base] u ∧
    u.lineage.map (·.name.text) = ["kit.Base", "kit.Derived", "kit.Base"] := by
  obtain ⟨h, hdefined, above, habove, hlineage⟩ := exists_host
  obtain ⟨d, hd, hsupertype, himports⟩ := declared_extending
  have hderived : (loader h).resolveAt ([] ++ [base]) derived (Registry.countScan {} 1) =
      (.ok above, ((Registry.countScan {} 1).countScan 2).delegate derived) := by
    have hlookup : (loader h).host.lookup derived.text = some above := habove
    have hhost : (loader h).hostAnswer derived = .ok above := by rw [hostAnswer, hlookup]
    rw [← hhost, resolveAt_eq]
    rfl
  have hscan : (loader h).scanFor base 0 = (.ok (some ⟨.empty, extending "kit.Derived"⟩), 1) := rfl
  have hlink : (loader h).linkFound [] base ⟨.empty, extending "kit.Derived"⟩
      (Registry.countScan {} 1) = _ := Linkage.materialise_above _ _ hd hsupertype himports hderived
  have hbase : ∃ u, ((loader h).resolve base {}).1 = .ok u ∧ u.lineage = u :: above.lineage ∧
      u.name = base := by
    rw [resolve, resolveAt_eq]
    simp only [Registry.unit?, List.find?_nil, List.not_mem_nil, if_false, hscan, hlink]
    exact ⟨_, rfl, rfl, rfl⟩
  obtain ⟨u, hu, hsupertypes, hname⟩ := hbase
  refine ⟨h, hdefined, u, ⟨[], base, [], rfl, hu⟩, ?_⟩
  rw [hsupertypes, List.map_cons, hlineage, hname]
  rfl

/-- The queries are exact over a unit that extends a subtype of what it shadows. -/
theorem exact_make_shadowing : ∃ h : HostUnits, h.Defined ∧ ∃ u, (loader h).Returned [base] u ∧
    u.lineage.map (·.name.text) = ["kit.Base", "kit.Derived", "kit.Base"] ∧
      (make (loader h) [⟨u, none⟩] ((loader h).visit [base] {})).1.Exact (loader h)
        (make (loader h) [⟨u, none⟩] ((loader h).visit [base] {})).2 := by
  obtain ⟨h, hdefined, u, hu, hlineage⟩ := exists_shadowing
  refine ⟨h, hdefined, u, hu, hlineage, exact_make _ hdefined [base] [⟨u, none⟩] fun e he => ?_⟩
  obtain rfl := List.mem_singleton.mp he
  exact hu

end Shadowing

/-! ## The forest of types -/

/-- The entry of one name is of the type of another name. -/
def IsA (c : Catalog) (name type : String) : Prop := ∃ e, c.get? name = some e ∧ e ∈ c.byType type

/-- Types are ordered like the trees of a forest. -/
structure Forest (c : Catalog) : Prop where
  /-- Every entry is of its own type. -/
  refl : ∀ name, c.get? name ≠ none → c.IsA name name
  trans : ∀ {name type above}, c.IsA name type → c.IsA type above → c.IsA name above
  antisymm : ∀ {name type}, c.IsA name type → c.IsA type name → name = type
  /-- What is of a type is of every type that the type is of. -/
  subset : ∀ {type above}, c.IsA type above → c.byType type ⊆ c.byType above
  /-- Of two types of one entry, one is of the other. -/
  linear : ∀ {e type type'}, e ∈ c.byType type → e ∈ c.byType type' →
    c.IsA type type' ∨ c.IsA type' type

/-- One name is of the type of another one if the unit of that one is above its own. -/
theorem Settled.isA_iff (h : c.Settled l r) {name type : String} : c.IsA name type ↔
    ∃ e target, c.get? name = some e ∧ c.get? type = some target ∧ target.unit ∈ e.unit.lineage := by
  constructor
  · rintro ⟨e, he, hmem⟩
    obtain ⟨-, target, htarget, hlineage⟩ := h.mem_byType.mp hmem
    exact ⟨e, target, he, htarget, hlineage⟩
  · rintro ⟨e, target, he, htarget, hlineage⟩
    exact ⟨e, he, h.mem_byType.mpr ⟨(mem_of_get? he).1, target, htarget, hlineage⟩⟩

/-- **The types of a catalog form a forest**, also where units shadow host types, extend them, or extend
subtypes of the very types that they shadow. -/
theorem forest_make (l : Loader) (hhost : l.host.Defined) (ns : List Identity)
    (compiled : List CatalogEntry) (hcompiled : ∀ e ∈ compiled, l.Returned ns e.unit) :
    (make l compiled (l.visit ns {})).1.Forest := by
  have h := settled_make hhost.closed hcompiled
  constructor
  case refl =>
    intro name hname
    obtain ⟨e, he⟩ := Option.ne_none_iff_exists'.mp hname
    exact ⟨e, he, h.mem_byType_self he⟩
  case trans =>
    intro name type above hlower hupper
    obtain ⟨e, target, he, htarget, hlineage⟩ := h.isA_iff.mp hlower
    obtain ⟨target', top, htarget', htop, hlineage'⟩ := h.isA_iff.mp hupper
    obtain rfl := Option.some.inj (htarget.symm.trans htarget')
    exact h.isA_iff.mpr ⟨e, top, he, htop, LinkedUnit.mem_lineage_trans hlineage hlineage'⟩
  case antisymm =>
    intro name type hlower hupper
    obtain ⟨e, target, he, htarget, hlineage⟩ := h.isA_iff.mp hlower
    obtain ⟨target', e', htarget', he', hlineage'⟩ := h.isA_iff.mp hupper
    obtain rfl := Option.some.inj (htarget.symm.trans htarget')
    obtain rfl := Option.some.inj (he.symm.trans he')
    have hsame : e.unit = target.unit := LinkedUnit.eq_of_mem_lineage hlineage hlineage'
    calc name = e.text := (mem_of_get? he).2.symm
      _ = target.text := congrArg (·.name.text) hsame
      _ = type := (mem_of_get? htarget).2
  case subset =>
    intro type above hupper e hmem
    obtain ⟨target, top, htarget, htop, hlineage⟩ := h.isA_iff.mp hupper
    obtain ⟨he, target', htarget', hlineage'⟩ := h.mem_byType.mp hmem
    obtain rfl := Option.some.inj (htarget.symm.trans htarget')
    exact h.mem_byType.mpr ⟨he, top, htop, LinkedUnit.mem_lineage_trans hlineage' hlineage⟩
  case linear =>
    intro e type type' hmem hmem'
    obtain ⟨-, target, htarget, hlineage⟩ := h.mem_byType.mp hmem
    obtain ⟨-, target', htarget', hlineage'⟩ := h.mem_byType.mp hmem'
    rcases LinkedUnit.mem_lineage_total hlineage hlineage' with habove | habove
    · exact .inl (h.isA_iff.mpr ⟨target, target', htarget, htarget', habove⟩)
    · exact .inr (h.isA_iff.mpr ⟨target', target, htarget', htarget, habove⟩)

/-- The types are a forest over a unit that extends a subtype of what it shadows. -/
theorem Shadowing.forest_make_shadowing : ∃ h : HostUnits, h.Defined ∧ ∃ u,
    (loader h).Returned [base] u ∧ u.lineage.map (·.name.text) = ["kit.Base", "kit.Derived", "kit.Base"] ∧
      (make (loader h) [⟨u, none⟩] ((loader h).visit [base] {})).1.Forest := by
  obtain ⟨h, hdefined, u, hu, hlineage⟩ := exists_shadowing
  refine ⟨h, hdefined, u, hu, hlineage, forest_make _ hdefined [base] [⟨u, none⟩] fun e he => ?_⟩
  obtain rfl := List.mem_singleton.mp he
  exact hu

end Catalog

end LiveUnits
