import LiveUnits.Host
import LiveUnits.Identity.Spelling
import LiveUnits.Proofs.Linkage.Materialise
import LiveUnits.Proofs.Text.Ascending

/-!
# What definitions make of the host

The units of the host come from definitions, each linked against the ones before it.  So every
reference of a host unit is a host unit, no name is defined twice, and every host unit is found under
its own name (`Defined.closed`).
-/

namespace LiveUnits

namespace HostUnits

open Attempt

/-- The units that definitions lead to, from none at all. -/
inductive Defined : HostUnits → Prop
  | empty : Defined HostUnits.empty
  | define {h h' : HostUnits} {name : String} {bytes : Bytes} (hh : Defined h)
      (hdefine : h.define name bytes = .ok h') : Defined h'

/-- There are hosts with units. -/
theorem exists_defined : ∃ h : HostUnits, h.Defined ∧ (h.lookup "a.Foo").isSome := by
  have hfound : ((HostUnits.empty.define "a.Foo" [0, 0x61, 0x73, 0x6D, 1, 0, 0, 0]).toOption.bind
      fun h => h.lookup "a.Foo").isSome := by decide
  cases hdefine : HostUnits.empty.define "a.Foo" [0, 0x61, 0x73, 0x6D, 1, 0, 0, 0] with
  | error e =>
      rw [hdefine] at hfound
      cases hfound
  | ok h =>
      rw [hdefine] at hfound
      exact ⟨h, .define .empty hdefine, hfound⟩

/-- What definitions keep. -/
structure Closed (h : HostUnits) : Prop where
  /-- The names ascend. -/
  ascending : Ascending (fun u : LinkedUnit => u.name.text) h.units
  /-- Every unit comes from the host. -/
  host : ∀ u ∈ h.units, u.origin = .host
  /-- Every handle was given by the host. -/
  realm : ∀ u ∈ h.units, u.handle.realm = .host
  /-- Every handle was given before the next one. -/
  serial : ∀ u ∈ h.units, u.handle.serial < h.units.length
  /-- No handle was given twice. -/
  handles : (h.units.map (·.handle)).Nodup
  /-- Every reference is a unit of the host. -/
  references : ∀ u ∈ h.units, ∀ v ∈ u.references, v ∈ h.units

/-- Only units of the host are found in it. -/
theorem mem_of_lookup {h : HostUnits} {name : String} {u : LinkedUnit}
    (hu : h.lookup name = some u) : u ∈ h.units :=
  List.mem_of_find?_eq_some hu

/-- A unit is found under its own name. -/
theorem name_of_lookup {h : HostUnits} {n : Identity} {u : LinkedUnit}
    (hu : h.lookup n.text = some u) : u.name = n := by
  have hkey := key_eq_of_find? hu
  exact Identity.text_inj hkey

/-- A name that the host does not have belongs to none of its units. -/
theorem not_mem_of_lookup {h : HostUnits} {name : String} (hu : h.lookup name = none) :
    name ∉ h.units.map fun u => u.name.text := by
  intro hmem
  obtain ⟨u, hu', rfl⟩ := List.mem_map.mp hmem
  exact absurd (beq_self_eq_true _) (List.find?_eq_none.mp hu u hu')

/-- A definition that succeeds adds one unit, under a name that was free. -/
theorem define_eq_ok {h h' : HostUnits} {name : String} {bytes : Bytes}
    (hdefine : h.define name bytes = .ok h') :
    ∃ n u, Identity.parse name = .ok n ∧ h.lookup n.text = none ∧ h.link n bytes = .ok u ∧
      h' = ⟨insertByKey (fun u : LinkedUnit => u.name.text) u h.units⟩ := by
  unfold define at hdefine
  split at hdefine
  · cases hdefine
  · next n hn =>
    split at hdefine
    · cases hdefine
    · next hfree =>
      split at hdefine
      · cases hdefine
      · next u hu =>
        exact ⟨n, u, hn, by simpa using hfree, hu, (Except.ok.inj hdefine).symm⟩

/-- Resolving among the host units changes nothing and answers with the unit of the name. -/
theorem meets_resolve (h : HostUnits) (n : Identity) :
    Meets ⟨fun _ : PUnit => True, fun _ _ => True, fun _ => trivial, fun _ _ => trivial⟩
      (fun _ => True) (h.resolve n) fun u _ => h.lookup n.text = some u := by
  intro s _ _
  refine ⟨trivial, trivial, fun u hu => ?_⟩
  unfold resolve at hu
  cases hfound : h.lookup n.text with
  | none => simp [hfound] at hu
  | some v => simpa [hfound] using hu

/-- A host unit refers to host units only. -/
theorem linked_of_link {h : HostUnits} {n : Identity} {bytes : Bytes} {u : LinkedUnit}
    (hu : h.link n bytes = .ok u) :
    u.handle = ⟨.host, h.units.length⟩ ∧
      Linkage.Linked (fun m v => h.lookup m.text = some v) n bytes .host u := by
  have hspec := Linkage.meets_materialise (meets_resolve h) (fun _ _ _ _ _ _ _ hv => hv)
    (fun _ => ⟨.host, h.units.length⟩) n bytes .host ⟨⟩ trivial trivial
  exact hspec.2.2 u hu

theorem closed_empty : Closed HostUnits.empty where
  ascending := .nil
  host := fun _ hu => by cases hu
  realm := fun _ hu => by cases hu
  serial := fun _ hu => by cases hu
  handles := .nil
  references := fun _ hu => by cases hu

/-- **A definition keeps a host closed**: whatever the new unit refers to was there. -/
theorem Closed.define {h h' : HostUnits} (hh : h.Closed) {name : String} {bytes : Bytes}
    (hdefine : h.define name bytes = .ok h') : h'.Closed := by
  obtain ⟨n, u, -, hfree, hlink, rfl⟩ := define_eq_ok hdefine
  obtain ⟨hhandle, hlinked⟩ := linked_of_link hlink
  have hnew : u.name.text ∉ h.units.map fun v => v.name.text := by
    rw [hlinked.name_eq]
    exact not_mem_of_lookup hfree
  have hperm : (insertByKey (fun v : LinkedUnit => v.name.text) u h.units).Perm (u :: h.units) :=
    perm_insertByKey hnew
  have hmem : ∀ v, v ∈ insertByKey (fun v : LinkedUnit => v.name.text) u h.units ↔
      v = u ∨ v ∈ h.units := fun v => by rw [hperm.mem_iff, List.mem_cons]
  have hlength := hperm.length_eq
  refine ⟨hh.ascending.insertByKey u, fun v hv => ?_, fun v hv => ?_, fun v hv => ?_, ?_,
    fun v hv w hw => ?_⟩
  · rcases (hmem v).mp hv with rfl | hv
    · exact hlinked.origin_eq
    · exact hh.host v hv
  · rcases (hmem v).mp hv with rfl | hv
    · rw [hhandle]
    · exact hh.realm v hv
  · rw [hlength, List.length_cons]
    rcases (hmem v).mp hv with rfl | hv
    · rw [hhandle]
      exact Nat.lt_succ_self _
    · exact Nat.lt_succ_of_lt (hh.serial v hv)
  · refine ((hperm.map _).nodup_iff).mpr (List.nodup_cons.mpr ⟨fun hmem => ?_, hh.handles⟩)
    obtain ⟨v, hv, hsame⟩ := List.mem_map.mp hmem
    have hlt := hh.serial v hv
    rw [show v.handle = u.handle from hsame, hhandle] at hlt
    exact Nat.lt_irrefl _ hlt
  · rcases (hmem v).mp hv with rfl | hv
    · obtain ⟨m, hm⟩ := hlinked.answered w hw
      exact (hmem w).mpr (.inr (mem_of_lookup hm))
    · exact (hmem w).mpr (.inr (hh.references v hv w hw))

/-- **Whatever is defined, the host is closed**: its units refer to each other only. -/
theorem Defined.closed {h : HostUnits} (hh : h.Defined) : h.Closed := by
  induction hh with
  | empty => exact closed_empty
  | define _ hdefine ih => exact ih.define hdefine

/-- Every unit of the host is found under its own name. -/
theorem Closed.lookup_name {h : HostUnits} (hh : h.Closed) {u : LinkedUnit} (hu : u ∈ h.units) :
    h.lookup u.name.text = some u :=
  find?_of_mem_ascending hh.ascending hu rfl

/-- What can be reached from a host unit belongs to the host. -/
theorem Closed.mem_of_reaches {h : HostUnits} (hh : h.Closed) {u v : LinkedUnit}
    (huv : u.Reaches v) (hu : u ∈ h.units) : v ∈ h.units :=
  huv.closed hh.references hu

end HostUnits

end LiveUnits
