import LiveUnits.Proofs.Host.Linking
import LiveUnits.Proofs.Linkage.Complete
import LiveUnits.Proofs.Loader.History

/-!
# Loaders and hosts link completely

Whatever a loader answers with bears the name asked for: a registered unit is found under its name, a host
unit as well (`HostUnits.named_resolve`), and a unit that is made gets the name under which it was asked for
(`Loader.named_resolveAt`).  So every unit that a loader registers and every
unit that the host defines is fully linked (`Loader.complete_visit`).
-/

namespace LiveUnits

open Attempt Linkage

/-! ## Names -/

namespace Loader

/-- What resolving returns bears the name asked for, whatever has been registered before. -/
theorem named_resolveAt (l : Loader) (path : List Identity) :
    Named fun n => l.resolveAt path n := by
  induction path using l.byPath with
  | step path ih =>
  intro n r u r' hu
  have hstep := l.resolveAt_step path n r
  rw [show l.resolveAt path n r = (.ok u, r') from hu] at hstep
  generalize hresult : ((.ok u, r') : Except ResolveError LinkedUnit × Registry) = result at hstep
  cases hstep with
  | registered hfound =>
      cases hresult
      exact Registry.name_of_unit? hfound
  | delegated _ _ => exact HostUnits.name_of_lookup (lookup_of_hostAnswer (Prod.mk.inj hresult).1.symm)
  | loop _ _ => cases hresult
  | unreadable _ _ _ => cases hresult
  | absent _ _ _ => exact HostUnits.name_of_lookup (lookup_of_hostAnswer (Prod.mk.inj hresult).1.symm)
  | broken _ _ _ _ => cases hresult
  | linked _ hn hscan hlink =>
      cases hresult
      exact (fullyLinked_materialise (ih n _ _ _ hn hscan) hlink).1

/-! ## Registered units -/

/-- A unit comes from bytes that a container of the loader gave, and has everything they declare. -/
def Supplied (l : Loader) (u : LinkedUnit) : Prop :=
  ∃ c ∈ l.containers, ∃ clock bytes d,
    c.lookup clock (u.name.resourceName l.artifactExtension) = .ok (some bytes) ∧
      u.origin = .container c.root ∧ declared u.name bytes = .ok d ∧ FullyLinked d u

/-- What is kept true of every registered unit. -/
def keeping (P : LinkedUnit → Prop) : Contract Registry where
  Inv r := ∀ u ∈ r.units, P u
  Grows _ _ := True
  refl _ := trivial
  trans _ _ := trivial

/-- **Every resolution registers supplied units only.** -/
theorem supplied_resolveAt (l : Loader) (path : List Identity) (n : Identity) :
    Meets (keeping l.Supplied) (fun _ => True) (l.resolveAt path n) fun _ _ => True := by
  induction path using l.byPath generalizing n with
  | step path ih =>
  intro r hr _
  have hcounted : ∀ lookups, (keeping l.Supplied).Inv (r.countScan lookups) := fun _ => hr
  have hstep := l.resolveAt_step path n r
  generalize l.resolveAt path n r = result at hstep ⊢
  refine ⟨?_, trivial, fun _ _ => trivial⟩
  cases hstep with
  | registered _ => exact hr
  | delegated _ _ => exact hr
  | loop _ _ => exact hr
  | unreadable _ _ _ => exact hr
  | absent _ _ _ => exact hr
  | broken _ hn hscan hfails => exact inv_linkFound (ih n _ _ _ hn hscan) (hcounted _) hfails
  | @linked found _ _ _ _ hn hscan hlinked =>
      intro u hu
      rcases List.mem_cons.mp hu with rfl | hu
      · obtain ⟨hname, horigin, d, hd, hfull⟩ :=
          fullyLinked_materialise (l.named_resolveAt (path ++ [n])) hlinked
        obtain ⟨c, hc, t, hlookup, hroot⟩ := exists_lookup_of_scan hscan
        rw [← hname] at hlookup hd
        exact ⟨c, hc, t, found.bytes, d, hlookup, by rw [horigin, hroot], hd, hfull⟩
      · exact inv_linkFound (ih n _ _ _ hn hscan) (hcounted _) hlinked u hu

/-- **Every registered unit was supplied by a container**, with everything it declares. -/
theorem supplied_visit (l : Loader) (ns : List Identity) {r : Registry}
    (hr : ∀ u ∈ r.units, l.Supplied u) : ∀ u ∈ (l.visit ns r).units, l.Supplied u := by
  induction ns generalizing r with
  | nil => exact hr
  | cons n rest ih => exact ih (l.supplied_resolveAt [] n r hr trivial).1

end Loader

/-! ## Host units -/

/-- A unit was linked against the units that the host had before it, and has everything that its bytes
declare. -/
def HostUnits.Made (u : LinkedUnit) : Prop :=
  ∃ before : HostUnits, before.Defined ∧ ∃ bytes d, before.link u.name bytes = .ok u ∧
    declared u.name bytes = .ok d ∧ FullyLinked d u

/-- Every host unit was made from the bytes of its definition. -/
theorem HostUnits.Defined.made {h : HostUnits} (hh : h.Defined) : ∀ u ∈ h.units, Made u := by
  induction hh with
  | empty => exact fun u hu => (List.not_mem_nil hu).elim
  | @define before _ _ bytes hbefore hdefine ih =>
      obtain ⟨n, u, -, -, hlink, rfl⟩ := define_eq_ok hdefine
      intro v hv
      rcases (mem_insertByKey hbefore.closed.ascending).mp hv with rfl | ⟨hv, -⟩
      · obtain ⟨rfl, -, d, hd, hfull⟩ := fullyLinked_materialise before.named_resolve
          (Prod.ext hlink rfl)
        exact ⟨before, hbefore, bytes, d, hlink, hd, hfull⟩
      · exact ih v hv

namespace Loader

/-! ## Everything that is linked -/

/-- What holds of everything that a loader links over the requests for `ns`, and of everything that its
host has linked. -/
structure Complete (l : Loader) (ns : List Identity) : Prop where
  /-- Every registered unit has everything that its bytes declare. -/
  registered : ∀ u ∈ (l.visit ns {}).units, l.Supplied u
  /-- So has every unit of the host. -/
  host : ∀ u ∈ l.host.units, HostUnits.Made u
  /-- While a loader links a unit, no import goes unchecked. -/
  checked : ∀ path name i names, moduleIdentities name (moduleNames i) = .ok names →
    ∀ r units r', dependencies (fun m => l.resolveAt path m) name names r = (.ok units, r') →
      ∀ x ∈ i.imports, ∃ v, units.find? (fun u => u.name.text == x.moduleName) = some v
  /-- Nor while the host does. -/
  checkedByHost : ∀ name i names, moduleIdentities name (moduleNames i) = .ok names →
    ∀ s units s', dependencies l.host.resolve name names s = (.ok units, s') →
      ∀ x ∈ i.imports, ∃ v, units.find? (fun u => u.name.text == x.moduleName) = some v
  /-- A loader fails to link bytes that can be read for an obstacle only. -/
  obstacle : ∀ path n found d, declared n found.bytes = .ok d →
    ∀ r e r', l.linkFound path n found r = (.error e, r') →
      Obstacle (fun m => l.resolveAt (path ++ [n]) m) n d (l.nested path n found r) e
  /-- And so does the host. -/
  obstacleOfHost : ∀ n bytes d, declared n bytes = .ok d → ∀ e, l.host.link n bytes = .error e →
    Obstacle l.host.resolve n d
      (asked l.host.resolve (fun _ => ⟨.host, l.host.units.length⟩) n bytes .host ⟨⟩) e

/-- **Every unit is fully linked**, whatever is requested and whatever the containers answer. -/
theorem complete_visit (l : Loader) (hhost : l.host.Defined) (ns : List Identity) : l.Complete ns where
  registered := l.supplied_visit ns fun _ hu => (List.not_mem_nil hu).elim
  host := hhost.made
  checked path _ _ _ hnames _ _ _ h := exists_dependency (l.named_resolveAt path) hnames h
  checkedByHost _ _ _ hnames _ _ _ h := exists_dependency l.host.named_resolve hnames h
  obstacle path n _ _ hd _ _ _ h := obstacle_materialise (l.named_resolveAt (path ++ [n])) hd h
  obstacleOfHost _ _ _ hd _ h := obstacle_materialise l.host.named_resolve hd (Prod.ext h rfl)

/-- A unit that exports a function. -/
def exporting : Bytes :=
  [0, 0x61, 0x73, 0x6D, 1, 0, 0, 0, 1, 4, 1, 0x60, 0, 0, 3, 2, 1, 0, 7, 5, 1, 1, 0x66, 0, 0,
    10, 4, 1, 2, 0, 0x0B]

/-- A unit that imports it from `a.Foo`. -/
def importing : Bytes :=
  [0, 0x61, 0x73, 0x6D, 1, 0, 0, 0, 1, 4, 1, 0x60, 0, 0,
    2, 11, 1, 5, 0x61, 0x2E, 0x46, 0x6F, 0x6F, 1, 0x66, 0, 0]

/-- A unit in memory that imports from a host unit, in front of a host with another such unit. -/
theorem complete_visit_memory : ∃ h : HostUnits, h.Defined ∧
    (h.units.any fun u => !u.interface.imports.isEmpty) = true ∧
      (overMemory 1 [("c/Baz.wasm", importing)] h).Complete [⟨["c", "Baz"], by decide, by decide⟩] := by
  have hdefine : ((HostUnits.empty.define "a.Foo" exporting).toOption.bind fun h =>
      (h.define "b.Bar" importing).toOption).any (fun h => h.units.any fun u =>
        !u.interface.imports.isEmpty) = true := by decide
  cases hfoo : HostUnits.empty.define "a.Foo" exporting with
  | error e => rw [hfoo] at hdefine; cases hdefine
  | ok before =>
      cases hbar : before.define "b.Bar" importing with
      | error e => rw [hfoo, Except.toOption, Option.bind_some, hbar] at hdefine; cases hdefine
      | ok h =>
          rw [hfoo, Except.toOption, Option.bind_some, hbar] at hdefine
          have hdefined : h.Defined := .define (.define .empty hfoo) hbar
          exact ⟨h, hdefined, hdefine, complete_visit _ hdefined _⟩

end Loader

end LiveUnits
