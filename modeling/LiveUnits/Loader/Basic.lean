import LiveUnits.Host
import LiveUnits.Identity.Spelling
import LiveUnits.Text.Split

/-!
# Loaders

A loader resolves names over an ordered list of containers, with the host behind them.  A name that
was classified before is answered from the registry and no container is asked again.  Otherwise the
first container that holds the artifact of the name wins, the unit is linked and registered; and if
none holds it, the name is classified unresolvable and the host answers.  Classifications are never
revised.

Linking a unit resolves the names it refers to.  The names that are being linked form the path of a
resolution; a reference to a name on the path is a loop.  Every name on the path is served by a
container, no name is on it twice, and containers serve only finitely many names, so resolution ends
(`Loader.room_lt`).
-/

namespace LiveUnits

/-- How often a loader did what. -/
structure Counters where
  /-- Resolutions that went through the containers. -/
  scans : Nat := 0
  lookups : Nat := 0
  /-- Resolutions answered from a classification. -/
  hits : Nat := 0
  /-- Resolutions left to the host because no container holds the name. -/
  fallbacks : Nat := 0
  deriving DecidableEq

/-- How a loader has classified a name. -/
inductive Classification where
  /-- A container supplies it. -/
  | resolved
  /-- No container supplies it. -/
  | unresolvable
  deriving DecidableEq

/-- What a loader remembers. -/
structure Registry where
  /-- The registered units, the newest first. -/
  units : List LinkedUnit := []
  /-- The names that no container holds, the newest first. -/
  unresolvable : List Identity := []
  counters : Counters := {}

namespace Registry

def unit? (r : Registry) (name : String) : Option LinkedUnit :=
  r.units.find? fun u => u.name.text == name

def classification? (r : Registry) (name : String) : Option Classification :=
  if (r.unit? name).isSome then some .resolved
  else if r.unresolvable.any fun n => n.text == name then some .unresolvable
  else none

/-- Counts an answer from a classification. -/
def countHit (r : Registry) : Registry :=
  { r with counters := { r.counters with hits := r.counters.hits + 1 } }

/-- Counts a scan, after which the containers have been asked `lookups` times. -/
def countScan (r : Registry) (lookups : Nat) : Registry :=
  { r with counters := { r.counters with scans := r.counters.scans + 1, lookups } }

/-- Classifies a name as one that no container holds. -/
def delegate (r : Registry) (n : Identity) : Registry :=
  { r with
    unresolvable := n :: r.unresolvable
    counters := { r.counters with fallbacks := r.counters.fallbacks + 1 } }

def register (r : Registry) (u : LinkedUnit) : Registry := { r with units := u :: r.units }

/-- The registered units in the order of their names. -/
def sortedUnits (r : Registry) : List LinkedUnit := sortByKey (·.name.text) r.units

end Registry

/-- Bytes that a container gave. -/
structure Found where
  root : Path
  bytes : Bytes

/-- Asks containers for a resource, one after the other, until one holds it or fails.  `clock` is
the number of lookups made before; the number of lookups made in the end is returned as well. -/
def scan (resource : String) : List Container → Nat → Except ContainerError (Option Found) × Nat
  | [], clock => (.ok none, clock)
  | c :: rest, clock =>
    match c.lookup clock resource with
    | .error e => (.error e, clock + 1)
    | .ok (some bytes) => (.ok (some ⟨c.root, bytes⟩), clock + 1)
    | .ok none => scan resource rest (clock + 1)

structure Loader where
  /-- The number that tells its units from those of other loaders. -/
  number : Nat
  /-- The containers, in the order in which they are asked. -/
  containers : List Container
  host : HostUnits
  /-- The extension of artifacts inside containers. -/
  artifactExtension : String

/-- The names that a container ever finds. -/
noncomputable def Container.served (c : Container) : List String := c.finite.choose

/-- What a container has at any time is among the names it serves. -/
theorem Container.mem_served {c : Container} {clock : Nat} {name : String} {bytes : Bytes}
    (h : c.lookup clock name = .ok (some bytes)) : name ∈ c.served :=
  c.finite.choose_spec clock name bytes h

/-- What a scan finds was read from one of the containers. -/
theorem exists_lookup_of_scan {resource : String} {found : Found} {cs : List Container}
    {clock after : Nat} (h : scan resource cs clock = (.ok (some found), after)) :
    ∃ c ∈ cs, ∃ t, c.lookup t resource = .ok (some found.bytes) ∧ c.root = found.root := by
  induction cs generalizing clock with
  | nil => simp [scan] at h
  | cons c rest ih =>
    unfold scan at h
    split at h
    · simp at h
    · next bytes hlookup =>
      obtain ⟨rfl, -⟩ : ⟨c.root, bytes⟩ = found ∧ clock + 1 = after := by simpa using h
      exact ⟨c, by simp, clock, hlookup, rfl⟩
    · obtain ⟨d, hd, t, ht⟩ := ih h
      exact ⟨d, List.mem_cons_of_mem _ hd, t, ht⟩

/-- A stronger test keeps no more elements. -/
theorem length_filter_le {α : Type} {p q : α → Bool} (hpq : ∀ a, p a = true → q a = true)
    (l : List α) : (l.filter p).length ≤ (l.filter q).length := by
  simpa only [List.countP_eq_length_filter] using List.countP_mono_left fun a _ => hpq a

/-- A stronger test that drops an element keeps fewer. -/
theorem length_filter_lt {α : Type} {p q : α → Bool} (hpq : ∀ a, p a = true → q a = true) {a : α}
    (hp : p a = false) (hq : q a = true) {l : List α} (ha : a ∈ l) :
    (l.filter p).length < (l.filter q).length := by
  obtain ⟨before, after, rfl⟩ := List.append_of_mem ha
  have hbefore := length_filter_le hpq before
  have hafter := length_filter_le hpq after
  simp only [List.filter_append, List.filter_cons, hp, hq, List.length_append, List.length_cons,
    Bool.false_eq_true, if_true, if_false]
  omega

namespace Loader

/-- The names that any of the containers ever finds. -/
noncomputable def served (l : Loader) : List String := l.containers.flatMap Container.served

/-- How many of the names that are ever found do not belong to a name on a path. -/
noncomputable def room (l : Loader) (path : List Identity) : Nat :=
  (l.served.filter fun s => !(path.map (·.resourceName l.artifactExtension)).contains s).length

/-- What the host says about a name. -/
def hostAnswer (l : Loader) (n : Identity) : Except ResolveError LinkedUnit :=
  match l.host.lookup n.text with
  | some u => .ok u
  | none => .error (.notFound n)

/-- What tells the next unit from others. -/
def nextHandle (l : Loader) (r : Registry) : Handle := ⟨.loader l.number, r.units.length⟩

/-- Linking a name that a container serves leaves fewer names to be linked below it. -/
theorem room_lt (l : Loader) {path : List Identity} {n : Identity} {found : Found}
    {clock after : Nat} (hpath : n ∉ path)
    (h : scan (n.resourceName l.artifactExtension) l.containers clock = (.ok (some found), after)) :
    l.room (path ++ [n]) < l.room path := by
  obtain ⟨c, hc, t, ht, -⟩ := exists_lookup_of_scan h
  refine length_filter_lt (a := n.resourceName l.artifactExtension) ?_ ?_ ?_
    (List.mem_flatMap.2 ⟨c, hc, Container.mem_served ht⟩)
  · intro s hs
    simp_all
  · simp
  · simp only [Bool.not_eq_true', List.contains_eq_mem, List.mem_map, decide_eq_false_iff_not]
    rintro ⟨m, hm, hname⟩
    exact hpath (Identity.resourceName_inj hname ▸ hm)

/-- Resolves a name while the units on `path` are being linked. -/
def resolveAt (l : Loader) (path : List Identity) (n : Identity) :
    Attempt Registry ResolveError LinkedUnit := fun r =>
  match r.unit? n.text with
  | some u => (.ok u, r.countHit)
  | none =>
    if n ∈ r.unresolvable then (l.hostAnswer n, r.countHit)
    else if _ : n ∈ path then (.error (.linkage (.loopDetected (path ++ [n]))), r)
    else
      match _ : scan (n.resourceName l.artifactExtension) l.containers r.counters.lookups with
      | (.error e, lookups) => (.error (.container e), r.countScan lookups)
      | (.ok none, lookups) => (l.hostAnswer n, (r.countScan lookups).delegate n)
      | (.ok (some found), lookups) =>
        match Linkage.materialise (fun m => l.resolveAt (path ++ [n]) m) l.nextHandle n found.bytes
            (.container found.root) (r.countScan lookups) with
        | (.error e, r') => (.error (.linkage e), r')
        | (.ok u, r') => (.ok u, r'.register u)
termination_by l.room path
decreasing_by exact l.room_lt ‹_› ‹_›

/-- Resolves a name. -/
def resolve (l : Loader) (n : Identity) : Attempt Registry ResolveError LinkedUnit :=
  l.resolveAt [] n

/-- The identity whose artifact a resource name is, if it is one. -/
def identityOf? (l : Loader) (resource : String) : Option Identity := do
  let stem ← dropSuffix? ('.' :: l.artifactExtension.toList) resource.toList
  let n ← Identity.parse? (String.ofList (stem.map fun c => if c = '/' then '.' else c))
  if n.resourceName l.artifactExtension = resource then some n else none

/-- The identities whose artifacts the containers list, in ascending order, and the errors of the
containers that cannot be listed. -/
def available (l : Loader) : List Identity × List ContainerError :=
  let listings := l.containers.map Container.resources
  (sortByKey Identity.text ((listings.flatMap fun
      | .ok names => names
      | .error _ => []).filterMap l.identityOf?),
    listings.filterMap fun
      | .ok _ => none
      | .error e => some e)

end Loader

end LiveUnits
