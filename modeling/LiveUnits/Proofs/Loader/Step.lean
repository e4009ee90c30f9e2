import LiveUnits.Loader.Basic

/-!
# What one resolution can do

`Loader.Step` says once what resolving a name can do, one constructor for each way out, with all the
conditions under which it is taken.  Everything that is proved about resolutions goes by these cases
and by induction over the path (`Loader.byPath`): the names that a unit refers to are resolved on a
path that is longer by the name of the unit, and a path cannot grow without end.
-/

namespace LiveUnits

namespace Registry

/-- A name that was not classified yet. -/
def Open (r : Registry) (n : Identity) : Prop := r.unit? n.text = none ∧ n ∉ r.unresolvable

/-- A unit that is found is registered. -/
theorem mem_of_unit? {r : Registry} {name : String} {u : LinkedUnit} (h : r.unit? name = some u) :
    u ∈ r.units :=
  List.mem_of_find?_eq_some h

/-- A registered unit is found under its own name. -/
theorem name_of_unit? {r : Registry} {n : Identity} {u : LinkedUnit}
    (h : r.unit? n.text = some u) : u.name = n := by
  have hname := List.find?_some h
  exact Identity.text_inj (eq_of_beq hname)

/-- Nothing is found under a name exactly if no registered unit has it. -/
theorem unit?_eq_none {r : Registry} {n : Identity} :
    r.unit? n.text = none ↔ ∀ u ∈ r.units, u.name ≠ n := by
  unfold unit?
  rw [List.find?_eq_none]
  constructor
  · intro h u hu hname
    exact h u hu (by rw [hname]; exact beq_self_eq_true _)
  · intro h u hu hname
    exact h u hu (Identity.text_inj (eq_of_beq hname))

@[simp] theorem countHit_units (r : Registry) : r.countHit.units = r.units := rfl

@[simp] theorem countHit_unresolvable (r : Registry) :
    r.countHit.unresolvable = r.unresolvable := rfl

@[simp] theorem countScan_units (r : Registry) (lookups : Nat) :
    (r.countScan lookups).units = r.units := rfl

@[simp] theorem countScan_unresolvable (r : Registry) (lookups : Nat) :
    (r.countScan lookups).unresolvable = r.unresolvable := rfl

@[simp] theorem delegate_units (r : Registry) (n : Identity) : (r.delegate n).units = r.units := rfl

@[simp] theorem delegate_unresolvable (r : Registry) (n : Identity) :
    (r.delegate n).unresolvable = n :: r.unresolvable := rfl

@[simp] theorem register_units (r : Registry) (u : LinkedUnit) :
    (r.register u).units = u :: r.units := rfl

@[simp] theorem register_unresolvable (r : Registry) (u : LinkedUnit) :
    (r.register u).unresolvable = r.unresolvable := rfl

end Registry

namespace Loader

/-- Scanning for the artifact of a name when a number of lookups have been made. -/
def scanFor (l : Loader) (n : Identity) (clock : Nat) :
    Except ContainerError (Option Found) × Nat :=
  scan (n.resourceName l.artifactExtension) l.containers clock

/-- Linking the bytes found for a name, while the names on `path` are being linked. -/
def linkFound (l : Loader) (path : List Identity) (n : Identity) (found : Found) :
    Attempt Registry LinkageError LinkedUnit :=
  Linkage.materialise (fun m => l.resolveAt (path ++ [n]) m) l.nextHandle n found.bytes
    (.container found.root)

/-- What resolving a name can do, while the names on `path` are being linked: the outcome, and the
registry afterwards. -/
inductive Step (l : Loader) (path : List Identity) (n : Identity) (r : Registry) :
    Except ResolveError LinkedUnit × Registry → Prop
  /-- The name is registered. -/
  | registered {u : LinkedUnit} (hu : r.unit? n.text = some u) : Step l path n r (.ok u, r.countHit)
  /-- The name is known to be in no container. -/
  | delegated (hfree : r.unit? n.text = none) (hn : n ∈ r.unresolvable) :
      Step l path n r (l.hostAnswer n, r.countHit)
  /-- The name is being linked. -/
  | loop (hopen : r.Open n) (hn : n ∈ path) :
      Step l path n r (.error (.linkage (.loopDetected (path ++ [n]))), r)
  /-- A container cannot be read. -/
  | unreadable {e : ContainerError} {lookups : Nat} (hopen : r.Open n) (hn : n ∉ path)
      (hscan : l.scanFor n r.counters.lookups = (.error e, lookups)) :
      Step l path n r (.error (.container e), r.countScan lookups)
  /-- No container has the name. -/
  | absent {lookups : Nat} (hopen : r.Open n) (hn : n ∉ path)
      (hscan : l.scanFor n r.counters.lookups = (.ok none, lookups)) :
      Step l path n r (l.hostAnswer n, (r.countScan lookups).delegate n)
  /-- The bytes in a container cannot be linked. -/
  | broken {found : Found} {lookups : Nat} {e : LinkageError} {r' : Registry} (hopen : r.Open n)
      (hn : n ∉ path) (hscan : l.scanFor n r.counters.lookups = (.ok (some found), lookups))
      (hlink : l.linkFound path n found (r.countScan lookups) = (.error e, r')) :
      Step l path n r (.error (.linkage e), r')
  /-- The bytes in a container are linked, and the unit is registered. -/
  | linked {found : Found} {lookups : Nat} {u : LinkedUnit} {r' : Registry} (hopen : r.Open n)
      (hn : n ∉ path) (hscan : l.scanFor n r.counters.lookups = (.ok (some found), lookups))
      (hlink : l.linkFound path n found (r.countScan lookups) = (.ok u, r')) :
      Step l path n r (.ok u, r'.register u)

/-- Resolving a name as a chain of decisions. -/
theorem resolveAt_eq (l : Loader) (path : List Identity) (n : Identity) (r : Registry) :
    l.resolveAt path n r =
      match r.unit? n.text with
      | some u => (.ok u, r.countHit)
      | none =>
        if n ∈ r.unresolvable then (l.hostAnswer n, r.countHit)
        else if n ∈ path then (.error (.linkage (.loopDetected (path ++ [n]))), r)
        else
          match l.scanFor n r.counters.lookups with
          | (.error e, lookups) => (.error (.container e), r.countScan lookups)
          | (.ok none, lookups) => (l.hostAnswer n, (r.countScan lookups).delegate n)
          | (.ok (some found), lookups) =>
            match l.linkFound path n found (r.countScan lookups) with
            | (.error e, r') => (.error (.linkage e), r')
            | (.ok u, r') => (.ok u, r'.register u) := by
  rw [resolveAt]
  cases r.unit? n.text with
  | some u => rfl
  | none =>
      simp only
      split
      · rfl
      · split
        · rfl
        · split
          · next hscan => rw [scanFor, hscan]
          · next hscan => rw [scanFor, hscan]
          · next hscan =>
            rw [scanFor, hscan]
            rfl

/-- Resolving a name on the path that is not classified yet. -/
theorem resolveAt_loop {l : Loader} {path : List Identity} {n : Identity} {r : Registry}
    (hopen : r.Open n) (hn : n ∈ path) :
    l.resolveAt path n r = (.error (.linkage (.loopDetected (path ++ [n]))), r) := by
  rw [resolveAt_eq, hopen.1]
  simp only [hopen.2, hn, if_true, if_false]

/-- Resolving any other name that is not classified yet. -/
theorem resolveAt_open {l : Loader} {path : List Identity} {n : Identity} {r : Registry}
    (hopen : r.Open n) (hn : n ∉ path) :
    l.resolveAt path n r =
      match l.scanFor n r.counters.lookups with
      | (.error e, lookups) => (.error (.container e), r.countScan lookups)
      | (.ok none, lookups) => (l.hostAnswer n, (r.countScan lookups).delegate n)
      | (.ok (some found), lookups) =>
        match l.linkFound path n found (r.countScan lookups) with
        | (.error e, r') => (.error (.linkage e), r')
        | (.ok u, r') => (.ok u, r'.register u) := by
  rw [resolveAt_eq, hopen.1]
  simp only [hopen.2, hn, if_false]

/-- Resolving a name is one of these steps. -/
theorem resolveAt_step (l : Loader) (path : List Identity) (n : Identity) (r : Registry) :
    l.Step path n r (l.resolveAt path n r) := by
  rw [resolveAt_eq]
  split
  · next u hu => exact .registered hu
  · next hfree =>
    split
    · next hn => exact .delegated hfree hn
    · next hunknown =>
      have hopen : r.Open n := ⟨hfree, hunknown⟩
      split
      · next hn => exact .loop hopen hn
      · next hn =>
        split
        · next hscan => exact .unreadable hopen hn hscan
        · next hscan => exact .absent hopen hn hscan
        · next found lookups hscan =>
          split
          · next hlink => exact .broken hopen hn hscan hlink
          · next hlink => exact .linked hopen hn hscan hlink

/-- Induction over the path of a resolution: a path grows by a name only when a container serves that
name and the path does not hold it yet. -/
theorem byPath (l : Loader) {P : List Identity → Prop}
    (step : ∀ path, (∀ n found clock after, n ∉ path →
      l.scanFor n clock = (.ok (some found), after) → P (path ++ [n])) → P path) :
    ∀ path, P path := by
  intro path
  induction hroom : l.room path using Nat.strongRecOn generalizing path with
  | ind room ih =>
      subst hroom
      exact step path fun n found clock after hn hscan =>
        ih (l.room (path ++ [n])) (l.room_lt hn hscan) (path ++ [n]) rfl

end Loader

end LiveUnits
