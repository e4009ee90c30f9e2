import LiveUnits.Proofs.Linkage.Alike
import LiveUnits.Proofs.Loader.Closure

/-!
# Classifications are invisible

`Loader.resolveAfresh` resolves a name without remembering anything: it keeps the path of the names
that are being linked, asks the containers again for every reference, and leaves a name to the host
if no container has it.  If the containers never change their answers, a loader that remembers its
classifications gives the same outcomes, errors included (`resolve_eq_resolveAfresh`).

The reason is the invariant `Loader.Sound`.  A registered unit is what resolving afresh makes of its
name, not only on the path on which it was linked but on every path of open names: everything that
the unit refers to was classified before it, so no reference can lead back to such a path.
-/

namespace LiveUnits

open Attempt

/-- A name that is open after a registry has grown was open before. -/
theorem Registry.Grows.open_of_open {r r' : Registry} (h : r.Grows r') {n : Identity}
    (hopen : r'.Open n) : r.Open n := by
  refine ⟨Registry.unit?_eq_none.mpr fun u hu => ?_, fun hn => hopen.2 (h.unresolvable.subset hn)⟩
  exact Registry.unit?_eq_none.mp hopen.1 u (h.units.subset hu)

namespace Loader

/-- Every container gives the same answer whenever it is asked for a name. -/
def Steady (l : Loader) : Prop :=
  ∀ c ∈ l.containers, ∀ clock name, c.lookup clock name = c.lookup 0 name

/-- Resolves a name without remembering anything, while the units on `path` are being linked. -/
def resolveAfresh (l : Loader) (path : List Identity) (n : Identity) :
    Except ResolveError LinkedUnit :=
  if _ : n ∈ path then .error (.linkage (.loopDetected (path ++ [n])))
  else
    match _ : scan (n.resourceName l.artifactExtension) l.containers 0 with
    | (.error e, _) => .error (.container e)
    | (.ok none, _) => l.hostAnswer n
    | (.ok (some found), _) =>
      (Linkage.materialise (fun m (s : PUnit) => (l.resolveAfresh (path ++ [n]) m, s))
        (fun _ => ⟨.loader l.number, 0⟩) n found.bytes (.container found.root) ⟨⟩).1.mapError
          .linkage
termination_by l.room path
decreasing_by exact l.room_lt ‹_› ‹_›

/-- Resolving afresh as an attempt that has nothing to change. -/
def afresh (l : Loader) (path : List Identity) : Resolving PUnit :=
  fun n s => (l.resolveAfresh path n, s)

/-- Linking the bytes found for a name when every reference is resolved afresh. -/
def linkAfresh (l : Loader) (path : List Identity) (n : Identity) (found : Found) :
    Attempt PUnit LinkageError LinkedUnit :=
  Linkage.materialise (l.afresh (path ++ [n])) (fun _ => ⟨.loader l.number, 0⟩) n found.bytes
    (.container found.root)

/-! ## Asking the containers -/

/-- A scan of steady containers finds the same at any time. -/
theorem scan_steady {cs : List Container} {resource : String}
    (h : ∀ c ∈ cs, ∀ clock name, c.lookup clock name = c.lookup 0 name) (clock clock' : Nat) :
    (scan resource cs clock).1 = (scan resource cs clock').1 := by
  induction cs generalizing clock clock' with
  | nil => rfl
  | cons c rest ih =>
      have hhead := h c List.mem_cons_self
      unfold scan
      rw [hhead clock resource, hhead clock' resource]
      cases c.lookup 0 resource with
      | error e => rfl
      | ok answer =>
          cases answer with
          | some bytes => rfl
          | none =>
              exact ih (fun d hd => h d (List.mem_cons_of_mem _ hd)) _ _

/-- A scan finds nothing if no container has anything. -/
theorem scan_absent {resource : String} {cs : List Container}
    (h : ∀ c ∈ cs, ∀ clock, c.lookup clock resource = .ok none) (clock : Nat) :
    (scan resource cs clock).1 = .ok none := by
  induction cs generalizing clock with
  | nil => rfl
  | cons c rest ih =>
      rw [scan, h c List.mem_cons_self]
      exact ih (fun d hd => h d (List.mem_cons_of_mem _ hd)) _

/-- What the containers say about a name does not depend on when they are asked. -/
theorem Steady.scanFor_eq {l : Loader} (h : l.Steady) {n : Identity} {clock lookups : Nat}
    {answer : Except ContainerError (Option Found)} (hscan : l.scanFor n clock = (answer, lookups)) :
    (l.scanFor n 0).1 = answer := by
  have hsame : (l.scanFor n 0).1 = (l.scanFor n clock).1 := scan_steady h 0 clock
  rw [hsame, hscan]

/-- A name that is being linked is a loop. -/
theorem resolveAfresh_loop {l : Loader} {path : List Identity} {n : Identity} (hn : n ∈ path) :
    l.resolveAfresh path n = .error (.linkage (.loopDetected (path ++ [n]))) := by
  rw [resolveAfresh, dif_pos hn]

/-- A container that fails ends the resolution. -/
theorem resolveAfresh_unreadable {l : Loader} {path : List Identity} {n : Identity} (hn : n ∉ path)
    {e : ContainerError} (hscan : (l.scanFor n 0).1 = .error e) :
    l.resolveAfresh path n = .error (.container e) := by
  rw [resolveAfresh, dif_neg hn]
  split <;> simp_all [scanFor]

/-- A name that no container has is left to the host. -/
theorem resolveAfresh_absent {l : Loader} {path : List Identity} {n : Identity} (hn : n ∉ path)
    (hscan : (l.scanFor n 0).1 = .ok none) : l.resolveAfresh path n = l.hostAnswer n := by
  rw [resolveAfresh, dif_neg hn]
  split <;> simp_all [scanFor]

/-- Bytes that are found are linked. -/
theorem resolveAfresh_found {l : Loader} {path : List Identity} {n : Identity} (hn : n ∉ path)
    {found : Found} (hscan : (l.scanFor n 0).1 = .ok (some found)) :
    l.resolveAfresh path n = (l.linkAfresh path n found ⟨⟩).1.mapError .linkage := by
  rw [resolveAfresh, dif_neg hn]
  split <;> simp_all [scanFor]
  rfl

/-! ## What a registry knows -/

/-- What a registry knows is what resolving afresh finds out. -/
structure Sound (l : Loader) (r : Registry) : Prop where
  /-- A registered unit is found afresh on every path of open names. -/
  units : ∀ u ∈ r.units, ∀ path : List Identity, (∀ m ∈ path, r.Open m) →
    (l.resolveAfresh path u.name).map LinkedUnit.shape = .ok u.shape
  /-- No container has an unresolvable name. -/
  unresolvable : ∀ n ∈ r.unresolvable, (l.scanFor n 0).1 = .ok none

theorem sound_start (l : Loader) : l.Sound {} where
  units := fun _ hu => by cases hu
  unresolvable := fun _ hn => by cases hn

/-- Counting makes no difference to what a registry knows. -/
theorem Sound.of_eq {l : Loader} {r r' : Registry} (h : l.Sound r) (hunits : r'.units = r.units)
    (hunresolvable : r'.unresolvable = r.unresolvable) : l.Sound r' := by
  cases r
  cases r'
  cases hunits
  cases hunresolvable
  exact ⟨h.units, h.unresolvable⟩

/-- Delegating a name that no container has keeps the registry sound. -/
theorem Sound.delegate {l : Loader} {r : Registry} (h : l.Sound r) {n : Identity}
    (hscan : (l.scanFor n 0).1 = .ok none) : l.Sound (r.delegate n) where
  units := by
    intro u hu path hpath
    have hgrows : r.Grows (r.delegate n) := ⟨List.suffix_refl _, List.suffix_cons _ _⟩
    exact h.units u hu path fun m hm => hgrows.open_of_open (hpath m hm)
  unresolvable := by
    intro m hm
    rcases List.mem_cons.mp hm with rfl | hm
    · exact hscan
    · exact h.unresolvable m hm

/-- What the host says about an unresolvable name is found afresh. -/
theorem Sound.hostAnswer {l : Loader} {r : Registry} (h : l.Sound r) {n : Identity}
    (hn : n ∈ r.unresolvable) {path : List Identity} (hpath : ∀ m ∈ path, r.Open m) :
    l.resolveAfresh path n = l.hostAnswer n :=
  resolveAfresh_absent (fun hmem => (hpath n hmem).2 hn) (h.unresolvable n hn)

/-- What answers a name is found afresh on every path of open names. -/
theorem Sound.answers {l : Loader} {r : Registry} (h : l.Sound r) {n : Identity} {u : LinkedUnit}
    (hu : l.Answers n u r) {path : List Identity} (hpath : ∀ m ∈ path, r.Open m) :
    (l.resolveAfresh path n).map LinkedUnit.shape = .ok u.shape := by
  rcases hu with ⟨hu, rfl⟩ | ⟨hn, hu⟩
  · exact h.units u hu path hpath
  · rw [h.hostAnswer hn hpath, Loader.hostAnswer, hu]
    rfl

/-- Linking afresh comes to the same on all paths of open names, once every reference is answered. -/
theorem Sound.linkAfresh_eq {l : Loader} {r : Registry} (h : l.Sound r) {n : Identity}
    (hopen : r.Open n) {found : Found} {origin : Origin} {u : LinkedUnit}
    (hlinked : Linkage.Linked (fun m v => l.Answers m v r) n found.bytes origin u)
    {path path' : List Identity} (hpath : ∀ m ∈ path, r.Open m) (hpath' : ∀ m ∈ path', r.Open m) :
    (l.linkAfresh path n found ⟨⟩).1.map LinkedUnit.shape =
      (l.linkAfresh path' n found ⟨⟩).1.map LinkedUnit.shape := by
  have halike : Alike (fun _ _ : PUnit => True) LinkedUnit.SameShape (l.linkAfresh path n found)
      (l.linkAfresh path' n found) := by
    refine Linkage.alike_materialise_shape (fun _ _ _ => rfl) fun m hm => ?_
    intro _ _ _
    refine ⟨trivial, agree_iff_map_eq.mpr ?_⟩
    obtain ⟨v, -, hv⟩ := hlinked.complete m hm
    have hleft := h.answers hv (open_concat hpath hopen)
    have hright := h.answers hv (open_concat hpath' hopen)
    exact hleft.trans hright.symm
  exact agree_iff_map_eq.mp (halike ⟨⟩ ⟨⟩ trivial).2

theorem map_shape_mapError {x : Except LinkageError LinkedUnit} :
    (x.mapError ResolveError.linkage).map LinkedUnit.shape =
      (x.map LinkedUnit.shape).mapError ResolveError.linkage := by
  cases x <;> rfl

/-- Registering a unit that was linked on one path of open names keeps the registry sound. -/
theorem Sound.register {l : Loader} {r : Registry} (h : l.Sound r) {n : Identity}
    (hopen : r.Open n) {found : Found} (hscan : (l.scanFor n 0).1 = .ok (some found))
    {origin : Origin} {u : LinkedUnit}
    (hlinked : Linkage.Linked (fun m v => l.Answers m v r) n found.bytes origin u)
    {path : List Identity} (hpath : ∀ m ∈ path, r.Open m)
    (hlink : (l.linkAfresh path n found ⟨⟩).1.map LinkedUnit.shape = .ok u.shape) :
    l.Sound (r.register u) where
  units := by
    intro v hv path' hpath'
    have hgrows : r.Grows (r.register u) := ⟨List.suffix_cons _ _, List.suffix_refl _⟩
    have hbefore : ∀ m ∈ path', r.Open m := fun m hm => hgrows.open_of_open (hpath' m hm)
    rcases List.mem_cons.mp hv with rfl | hv
    · have hn : n ∉ path' := by
        intro hmem
        exact Registry.unit?_eq_none.mp (hpath' n hmem).1 v List.mem_cons_self hlinked.name_eq
      rw [hlinked.name_eq, resolveAfresh_found hn hscan, map_shape_mapError,
        h.linkAfresh_eq hopen hlinked hbefore hpath, hlink]
      rfl
    · exact h.units v hv path' hbefore
  unresolvable := h.unresolvable

/-! ## One step -/

/-- What holds while the names on a path are being linked, when the containers do not change their
answers. -/
def Reliable (l : Loader) (path : List Identity) (r : Registry) : Prop :=
  (l.linking path).Inv r ∧ l.Sound r

/-- Counting keeps a registry reliable. -/
theorem Reliable.of_counts {l : Loader} {path : List Identity} {r r' : Registry}
    (h : l.Reliable path r) (hunits : r'.units = r.units)
    (hunresolvable : r'.unresolvable = r.unresolvable) : l.Reliable path r' := by
  obtain ⟨⟨hclosed, hpath⟩, hsound⟩ := h
  have hgrows : r'.Grows r := .of_eq hunits.symm hunresolvable.symm
  exact ⟨⟨hclosed.of_eq hunits hunresolvable, fun m hm => hgrows.open_of_open (hpath m hm)⟩,
    hsound.of_eq hunits hunresolvable⟩

/-- Linking the bytes found for an open name agrees with linking them afresh. -/
theorem Reliable.linkFound {l : Loader} {path : List Identity} {n : Identity} {r : Registry}
    (h : l.Reliable path r) (hopen : r.Open n)
    (ih : ∀ m, Alike (fun r (_ : PUnit) => l.Reliable (path ++ [n]) r) LinkedUnit.SameShape
      (l.resolveAt (path ++ [n]) m) (l.afresh (path ++ [n]) m)) {found : Found} {lookups : Nat}
    {outcome : Except LinkageError LinkedUnit} {r' : Registry}
    (hlink : l.linkFound path n found (r.countScan lookups) = (outcome, r')) :
    l.Sound r' ∧ Agree LinkedUnit.SameShape outcome (l.linkAfresh path n found ⟨⟩).1 := by
  obtain ⟨hinv, hsound⟩ := h
  have halike : Alike (fun r (_ : PUnit) => l.Reliable (path ++ [n]) r) LinkedUnit.SameShape
      (l.linkFound path n found) (l.linkAfresh path n found) :=
    Linkage.alike_materialise_shape (fun _ _ _ => rfl) fun m _ => ih m
  have hstart : l.Reliable (path ++ [n]) (r.countScan lookups) :=
    ⟨inv_linking hinv hopen lookups, hsound.of_eq rfl rfl⟩
  obtain ⟨hend, hagree⟩ := halike (r.countScan lookups) ⟨⟩ hstart
  rw [hlink] at hend hagree
  exact ⟨hend.2, hagree⟩

/-- **A loader that remembers runs like one that does not**: the outcomes agree, and what is
remembered stays sound. -/
theorem alike_resolveAt {l : Loader} (hsteady : l.Steady) (path : List Identity) (n : Identity) :
    Alike (fun r (_ : PUnit) => l.Reliable path r) LinkedUnit.SameShape (l.resolveAt path n)
      (l.afresh path n) := by
  -- a longer path leaves less room for names that may still be linked
  induction path using l.byPath generalizing n with
  | step path ih =>
  intro r _ hr
  have hkept := (l.meets_resolveAt path n r hr.1 trivial).1
  obtain ⟨⟨hclosed, hpath⟩, hsound⟩ := id hr
  show l.Reliable path (l.resolveAt path n r).2 ∧
    Agree LinkedUnit.SameShape (l.resolveAt path n r).1 (l.resolveAfresh path n)
  have hstep := l.resolveAt_step path n r
  generalize l.resolveAt path n r = result at hstep hkept ⊢
  cases hstep with
  | registered hu =>
      refine ⟨hr.of_counts rfl rfl, agree_iff_map_eq.mpr ?_⟩
      have hanswer : l.Answers n _ r := .inl ⟨Registry.mem_of_unit? hu, Registry.name_of_unit? hu⟩
      exact (hsound.answers hanswer hpath).symm
  | delegated hfree hn =>
      refine ⟨hr.of_counts rfl rfl, ?_⟩
      rw [hsound.hostAnswer hn hpath]
      exact agree_iff_map_eq.mpr rfl
  | loop hopen hn =>
      rw [resolveAfresh_loop hn]
      exact ⟨hr, .error _⟩
  | unreadable hopen hn hscan =>
      rw [resolveAfresh_unreadable hn (hsteady.scanFor_eq hscan)]
      exact ⟨hr.of_counts rfl rfl, .error _⟩
  | @absent lookups hopen hn hscan =>
      have habsent := hsteady.scanFor_eq hscan
      have hcounted : l.Sound (r.countScan lookups) := hsound.of_eq rfl rfl
      rw [resolveAfresh_absent hn habsent]
      exact ⟨⟨hkept, hcounted.delegate habsent⟩, agree_iff_map_eq.mpr rfl⟩
  | @broken found lookups e r' hopen hn hscan hlink =>
      obtain ⟨hsound', hagree⟩ := hr.linkFound hopen (ih n found _ _ hn hscan) hlink
      rw [resolveAfresh_found hn (hsteady.scanFor_eq hscan)]
      refine ⟨⟨hkept, hsound'⟩, ?_⟩
      generalize (l.linkAfresh path n found ⟨⟩).1 = outcome at hagree ⊢
      cases hagree with
      | error => exact .error _
  | @linked found lookups u r' hopen hn hscan hlink =>
      obtain ⟨hsound', hagree⟩ := hr.linkFound hopen (ih n found _ _ hn hscan) hlink
      have hfound := hsteady.scanFor_eq hscan
      obtain ⟨⟨hclosed', hpath'⟩, -, hunit⟩ :=
        l.meets_linkFound (fun m => l.meets_resolveAt (path ++ [n]) m) hclosed hpath hopen hlink
      obtain ⟨-, hlinked⟩ := hunit u rfl
      have hshape := agree_iff_map_eq.mp hagree
      refine ⟨⟨hkept, ?_⟩, agree_iff_map_eq.mpr ?_⟩
      -- the name stayed open while it was linked, so nothing the unit refers to depends on it
      · exact hsound'.register (hpath' n (by simp)) hfound hlinked
          (fun m hm => hpath' m (List.mem_append_left _ hm)) hshape.symm
      · rw [resolveAfresh_found hn hfound, map_shape_mapError, ← hshape]
        rfl

/-! ## Requests -/

/-- Requests keep the registry sound if the containers do not change their answers. -/
theorem reliable_visit {l : Loader} (hsteady : l.Steady) (ns : List Identity) {r : Registry}
    (h : l.Reliable [] r) : l.Reliable [] (l.visit ns r) := by
  induction ns generalizing r with
  | nil => exact h
  | cons n rest ih => exact ih (alike_resolveAt hsteady [] n r ⟨⟩ h).1

theorem reliable_start (l : Loader) : l.Reliable [] {} :=
  ⟨⟨l.closed_start, fun _ hm => by cases hm⟩, l.sound_start⟩

/-- A request of a reliable registry has the outcome of resolving afresh. -/
theorem Reliable.resolve_eq {l : Loader} (hsteady : l.Steady) {r : Registry} (h : l.Reliable [] r)
    (n : Identity) :
    (l.resolve n r).1.map LinkedUnit.shape = (l.resolveAfresh [] n).map LinkedUnit.shape :=
  agree_iff_map_eq.mp (alike_resolveAt hsteady [] n r ⟨⟩ h).2

/-- A registered unit has bytes in a container. -/
theorem Reliable.found_of_mem {l : Loader} (hhost : l.host.Closed) {r : Registry} (h : l.Reliable [] r)
    {u : LinkedUnit} (hu : u ∈ r.units) : (l.scanFor u.name 0).1 ≠ .ok none := by
  intro hscan
  have hshape := h.2.units u hu [] fun _ hm => by cases hm
  rw [resolveAfresh_absent List.not_mem_nil hscan] at hshape
  obtain ⟨root, hroot⟩ := h.1.1.container u hu
  unfold Loader.hostAnswer at hshape
  cases hfound : l.host.lookup u.name.text with
  | none => simp [hfound, Except.map] at hshape
  | some v =>
      simp only [hfound, Except.map, Except.ok.injEq] at hshape
      have horigin : v.origin = u.origin := by
        rw [← v.shape_origin, ← u.shape_origin, hshape]
      rw [hroot, hhost.host v (HostUnits.mem_of_lookup hfound)] at horigin
      cases horigin

/-- A name that no container has is left to the host. -/
theorem Reliable.resolve_of_absent {l : Loader} (hhost : l.host.Closed) (hsteady : l.Steady) {r : Registry}
    (h : l.Reliable [] r) {n : Identity} (hscan : (l.scanFor n 0).1 = .ok none) :
    (l.resolve n r).1 = l.hostAnswer n := by
  have hstep := l.resolveAt_step [] n r
  unfold resolve
  generalize l.resolveAt [] n r = result at hstep ⊢
  cases hstep with
  | registered hu =>
      rw [← Registry.name_of_unit? hu] at hscan
      exact absurd hscan (h.found_of_mem hhost (Registry.mem_of_unit? hu))
  | delegated => rfl
  | loop _ hn => cases hn
  | unreadable _ _ hread =>
      rw [hsteady.scanFor_eq hread] at hscan
      cases hscan
  | absent => rfl
  | broken _ _ hfound =>
      rw [hsteady.scanFor_eq hfound] at hscan
      cases hscan
  | linked _ _ hfound =>
      rw [hsteady.scanFor_eq hfound] at hscan
      cases hscan

/-- **Classifications are invisible.**  If the containers do not change their answers, a request has
the outcome of resolving afresh, whatever was requested before and whatever came of it; so the order
of requests decides nothing. -/
theorem resolve_eq_resolveAfresh (l : Loader) (hsteady : l.Steady) (earlier : List Identity)
    (n : Identity) :
    (l.resolve n (l.visit earlier {})).1.map LinkedUnit.shape =
        (l.resolveAfresh [] n).map LinkedUnit.shape ∧
      ∀ earlier' : List Identity, (l.resolve n (l.visit earlier' {})).1.map LinkedUnit.shape =
        (l.resolve n (l.visit earlier {})).1.map LinkedUnit.shape := by
  have hsame : ∀ ns : List Identity, (l.resolve n (l.visit ns {})).1.map LinkedUnit.shape =
      (l.resolveAfresh [] n).map LinkedUnit.shape := fun ns =>
    (reliable_visit hsteady ns l.reliable_start).resolve_eq hsteady n
  exact ⟨hsame earlier, fun earlier' => (hsame earlier').trans (hsame earlier).symm⟩

/-- A container in memory gives the same bytes every time. -/
theorem steady_overMemory (number : Nat) (contents : List (String × Bytes)) (host : HostUnits) :
    (overMemory number contents host).Steady := by
  intro c hc clock name
  obtain rfl := List.mem_singleton.mp hc
  rfl

/-- A unit in memory that has been requested before. -/
theorem resolve_eq_resolveAfresh_memory :
    let l := overMemory 1 [("a/Foo.wasm", [0, 0x61, 0x73, 0x6D, 1, 0, 0, 0])] .empty
    let foo : Identity := ⟨["a", "Foo"], by decide, by decide⟩
    l.Steady ∧ (l.resolve foo (l.visit [foo] {})).1.map LinkedUnit.shape =
      (l.resolveAfresh [] foo).map LinkedUnit.shape :=
  ⟨steady_overMemory _ _ _, (resolve_eq_resolveAfresh _ (steady_overMemory _ _ _) _ _).1⟩

end Loader

end LiveUnits
