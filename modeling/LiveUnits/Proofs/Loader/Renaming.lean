import Mathlib.Logic.Equiv.Basic
import LiveUnits.Proofs.FileSystem.Enumeration
import LiveUnits.Proofs.Loader.Listing

/-!
# Loaders that differ in number and order

Loaders tell their units apart by handles in which their own number occurs, and containers list their
resources in some order.  Neither shows in anything else.  If the containers of one loader serve and
list what those of another one do, and a function on handles takes the handles of the one to those of
the other (`Loader.Renamed`), then the second loader does with renamed registries what the first one
does: outcomes, registries and listings differ by the function alone (`Loader.Renamed.resolve_eq`,
`Loader.Renamed.visit_eq`, `Loader.Renamed.available_eq`).
-/

namespace LiveUnits

open Attempt

/-! ## Numbers of loaders -/

/-- The handle with another number in place of the loader's. -/
def Handle.swap (m n : Nat) (h : Handle) : Handle :=
  match h.realm with
  | .host => h
  | .loader k => ⟨.loader (Equiv.swap m n k), h.serial⟩

/-- Swapping numbers keeps handles distinct. -/
theorem Handle.swap_injective (m n : Nat) : Function.Injective (swap m n) := by
  rintro ⟨realm, serial⟩ ⟨realm', serial'⟩ h
  cases realm <;> cases realm' <;> simp_all [swap]

/-- A handle of the one loader becomes a handle of the other one. -/
theorem Handle.swap_loader (m n serial : Nat) : swap m n ⟨.loader m, serial⟩ = ⟨.loader n, serial⟩ := by
  show (⟨.loader (Equiv.swap m n m), serial⟩ : Handle) = ⟨.loader n, serial⟩
  rw [Equiv.swap_apply_left]

/-- The units of the host have no number of a loader. -/
theorem HostUnits.Closed.relabel_swap {h : HostUnits} (hh : h.Closed) {u : LinkedUnit}
    (hu : u ∈ h.units) (m n : Nat) : u.relabel (Handle.swap m n) = u := by
  refine LinkedUnit.relabel_eq_self _ u (P := (· ∈ h.units)) hh.references (fun v hv => ?_) hu
  have hrealm := hh.realm v hv
  generalize v.handle = handle at hrealm
  obtain ⟨realm, serial⟩ := handle
  obtain rfl : realm = .host := hrealm
  rfl

/-! ## What loaders may differ in -/

/-- Two containers serve the same bytes and list the same resources. -/
structure Container.Twins (c c' : Container) : Prop where
  root : c'.root = c.root
  lookup : c'.lookup = c.lookup
  resources : ListsSame c.resources c'.resources

theorem Container.Twins.refl (c : Container) : c.Twins c := ⟨rfl, rfl, .refl _⟩

/-- **A medium makes such containers** over file systems that look the same. -/
theorem Medium.twins {fs fs' : FileSystem} (h : fs.Same fs') (m : Medium) :
    (m.container fs).Twins (m.container fs') := by
  cases m with
  | directory root =>
      refine ⟨rfl, ?_, h.resourcesBelow root⟩
      funext _ name
      exact h.lookupBelow root name
  | archive path contents down => cases down <;> exact .refl _
  | memory contents => exact .refl _

/-- A registry with other handles. -/
def Registry.relabel (f : Handle → Handle) (r : Registry) : Registry :=
  { r with units := r.units.map (LinkedUnit.relabel f) }

/-- A name has the same unit but for its handle. -/
theorem Registry.unit?_relabel (f : Handle → Handle) (r : Registry) (name : String) :
    (r.relabel f).unit? name = (r.unit? name).map (LinkedUnit.relabel f) := by
  unfold unit? relabel
  rw [List.find?_map]
  congr 2
  funext u
  simp

/-- An outcome agrees with the one that has other handles. -/
theorem agree_iff_relabel {ε : Type} {f : Handle → Handle} {x y : Except ε LinkedUnit} :
    Agree (LinkedUnit.Agrees f id) x y ↔ y = x.map (LinkedUnit.relabel f) := by
  have hid : y.map (LinkedUnit.relabel id) = y := by
    cases y with
    | error e => rfl
    | ok u => exact congrArg Except.ok u.relabel_id
  exact agree_iff_map_eq.trans (hid.symm ▸ eq_comm)

namespace Loader

/-- A loader that differs from another one in the order in which its containers list resources, and in
the handles of its units. -/
structure Renamed (f : Handle → Handle) (l l' : Loader) : Prop where
  /-- The containers serve and list the same. -/
  containers : List.Forall₂ Container.Twins l.containers l'.containers
  host : l'.host = l.host
  extension : l'.artifactExtension = l.artifactExtension
  /-- Units of the host keep their handles. -/
  fixed : ∀ u ∈ l.host.units, u.relabel f = u
  /-- Handles that the one loader gives become those that the other one gives. -/
  numbered : ∀ serial, f ⟨.loader l.number, serial⟩ = ⟨.loader l'.number, serial⟩

namespace Renamed

variable {f : Handle → Handle} {l l' : Loader} (h : l.Renamed f l')

include h

/-! ## Resolving -/

/-- The next unit gets the corresponding handle. -/
theorem nextHandle_eq (r : Registry) : l'.nextHandle (r.relabel f) = f (l.nextHandle r) := by
  unfold nextHandle Registry.relabel
  rw [h.numbered, List.length_map]

/-- The host answers the same but for handles. -/
theorem hostAnswer_eq (n : Identity) : l'.hostAnswer n = (l.hostAnswer n).map (LinkedUnit.relabel f) := by
  unfold hostAnswer
  rw [h.host]
  cases hu : l.host.lookup n.text with
  | none => rfl
  | some u => exact congrArg Except.ok (h.fixed u (HostUnits.mem_of_lookup hu)).symm

/-- Both loaders find the same bytes. -/
theorem scanFor_eq (n : Identity) (clock : Nat) : l'.scanFor n clock = l.scanFor n clock := by
  have hscan {cs cs' : List Container} (hcs : List.Forall₂ Container.Twins cs cs') (resource : String)
      (clock : Nat) : scan resource cs' clock = scan resource cs clock := by
    induction hcs generalizing clock with
    | nil => rfl
    | cons hc _ ih =>
        unfold scan
        simp only [hc.lookup, hc.root, ih]
  unfold scanFor
  rw [h.extension]
  exact hscan h.containers _ clock

/-- The state of the second loader is the state of the first one with other handles. -/
abbrev Follows (f : Handle → Handle) (r r' : Registry) : Prop := r' = r.relabel f

/-- Bytes that were found are linked alike if the names they refer to are resolved alike. -/
theorem alike_linkFound {path : List Identity} {n : Identity} {found : Found}
    (hresolve : ∀ m, Alike (Follows f) (LinkedUnit.Agrees f id) (l.resolveAt (path ++ [n]) m)
      (l'.resolveAt (path ++ [n]) m)) :
    Alike (Follows f) (LinkedUnit.Agrees f id) (l.linkFound path n found) (l'.linkFound path n found) := by
  refine Linkage.alike_materialise ?_ fun m _ => hresolve m
  rintro r _ rfl
  exact (h.nextHandle_eq r).symm

/-- **The second loader runs like the first one** on renamed registries. -/
theorem alike_resolveAt (path : List Identity) (n : Identity) :
    Alike (Follows f) (LinkedUnit.Agrees f id) (l.resolveAt path n) (l'.resolveAt path n) := by
  -- a longer path leaves less room for names that may still be linked
  induction path using l.byPath generalizing n with
  | step path ih =>
  rintro r _ rfl
  have hhost : Agree (LinkedUnit.Agrees f id) (l.hostAnswer n) (l'.hostAnswer n) :=
    agree_iff_relabel.mpr (h.hostAnswer_eq n)
  have hscan' : l'.scanFor n (r.relabel f).counters.lookups = l.scanFor n r.counters.lookups :=
    h.scanFor_eq n _
  have hknown : (r.relabel f).unresolvable = r.unresolvable := rfl
  rw [resolveAt_eq, resolveAt_eq, Registry.unit?_relabel, hscan', hknown]
  cases r.unit? n.text with
  | some u => exact ⟨rfl, agree_iff_relabel.mpr rfl⟩
  | none =>
      simp only [Option.map_none]
      split
      · exact ⟨rfl, hhost⟩
      split
      · exact ⟨rfl, .error _⟩
      next hn =>
      cases hscan : l.scanFor n r.counters.lookups with
      | mk answer lookups =>
      cases answer with
      | error e => exact ⟨rfl, .error _⟩
      | ok answer =>
      cases answer with
      | none => exact ⟨rfl, hhost⟩
      | some found =>
          have hstart : Follows f (r.countScan lookups) ((r.relabel f).countScan lookups) := rfl
          obtain ⟨hend, hagree⟩ := h.alike_linkFound (ih n found _ _ hn hscan) _ _ hstart
          simp only
          generalize l.linkFound path n found (r.countScan lookups) = result at hend hagree ⊢
          generalize l'.linkFound path n found ((r.relabel f).countScan lookups) = result' at hend hagree ⊢
          obtain ⟨outcome, s⟩ := result
          obtain ⟨outcome', s'⟩ := result'
          obtain rfl : s' = s.relabel f := hend
          cases hagree with
          | error e => exact ⟨rfl, .error _⟩
          | @ok u v huv =>
              obtain rfl : u.relabel f = v := huv.trans v.relabel_id
              exact ⟨rfl, .ok huv⟩

/-- **Resolving gives the same outcome** with other handles, and leaves the same registry. -/
theorem resolve_eq (n : Identity) (r : Registry) :
    l'.resolve n (r.relabel f) =
      ((l.resolve n r).1.map (LinkedUnit.relabel f), (l.resolve n r).2.relabel f) := by
  obtain ⟨hend, hagree⟩ := h.alike_resolveAt [] n r _ rfl
  exact Prod.ext (agree_iff_relabel.mp hagree) hend

/-- Both loaders come to the same registries but for handles. -/
theorem visit_eq (ns : List Identity) (r : Registry) :
    l'.visit ns (r.relabel f) = (l.visit ns r).relabel f := by
  induction ns generalizing r with
  | nil => rfl
  | cons n rest ih =>
      unfold visit
      rw [h.resolve_eq, ih]

/-- The same requests bring both down. -/
theorem breaksDown_eq (ns : List Identity) (r : Registry) :
    l'.breaksDown ns (r.relabel f) = l.breaksDown ns r := by
  induction ns generalizing r with
  | nil => rfl
  | cons n rest ih =>
      unfold breaksDown
      rw [h.resolve_eq]
      cases l.resolve n r with
      | mk outcome r' =>
          cases outcome with
          | ok u => exact ih r'
          | error e =>
              show (e.crash?.isSome || l'.breaksDown rest (r'.relabel f)) = _
              rw [ih]

/-! ## Listing -/

omit h in
/-- Of two listings that are the same up to their order, both have a resource or none has. -/
theorem listed_iff {r r' : Except ContainerError (List String)} (hr : ListsSame r r') (resource : String) :
    (∃ names, r' = .ok names ∧ resource ∈ names) ↔ ∃ names, r = .ok names ∧ resource ∈ names := by
  cases hr with
  | ok hperm => simp [hperm.mem_iff]
  | error e e' => simp

/-- **The names that are listed do not depend on the order of resources.** -/
theorem available_eq : l'.available.1 = l.available.1 := by
  have hlisted {cs cs' : List Container} (hcs : List.Forall₂ Container.Twins cs cs') (resource : String) :
      (∃ c ∈ cs', ∃ names, c.resources = .ok names ∧ resource ∈ names) ↔
        ∃ c ∈ cs, ∃ names, c.resources = .ok names ∧ resource ∈ names := by
    induction hcs with
    | nil => rfl
    | cons hc _ ih => simp only [List.exists_mem_cons_iff, ih, listed_iff hc.resources]
  have hleft : Ascending Identity.text l'.available.1 := ascending_sortByKey _
  have hright : Ascending Identity.text l.available.1 := ascending_sortByKey _
  refine hleft.eq_of_mem hright fun n => ?_
  show n ∈ l'.available.1 ↔ n ∈ l.available.1
  rw [mem_available, mem_available, h.extension]
  exact hlisted h.containers _

end Renamed

end Loader

end LiveUnits
