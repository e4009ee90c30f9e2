import Mathlib.Data.List.Chain
import Mathlib.Data.Set.Card
import Mathlib.Data.Set.Finite.Lattice
import LiveUnits.Proofs.Linkage.Failure
import LiveUnits.Proofs.Loader.Precedence

/-!
# References between container units

What the containers have under a name is bytes, and the bytes declare a supertype and modules to import
from.  This gives a directed graph on names (`Loader.Refers`), which depends on the containers only: names
that no container has refer to nothing, whatever the host has under them.

Linking the bytes found for a name requests names that they refer to, and no others
(`Loader.refers_of_mem_nested`), so every chain of nested requests is a walk in this graph.
-/

namespace LiveUnits

open Attempt Linkage

namespace Loader

variable {l : Loader} {path : List Identity} {n m : Identity} {r : Registry} {found : Found}

/-- What is resolved afresh bears the name asked for. -/
theorem named_afresh (l : Loader) (path : List Identity) : Linkage.Named (l.afresh path) := by
  induction path using l.byPath with
  | step path ih =>
  intro n s u s' hu
  have hu : l.resolveAfresh path n = .ok u := (Prod.mk.inj hu).1
  by_cases hn : n ∈ path
  · rw [resolveAfresh_loop hn] at hu
    cases hu
  · cases hscan : (l.scanFor n 0).1 with
    | error e =>
        rw [resolveAfresh_unreadable hn hscan] at hu
        cases hu
    | ok answer =>
        cases answer with
        | none =>
            rw [resolveAfresh_absent hn hscan] at hu
            exact HostUnits.name_of_lookup (lookup_of_hostAnswer hu)
        | some found =>
            rw [resolveAfresh_found hn hscan] at hu
            cases hlinked : l.linkAfresh path n found ⟨⟩ with
            | mk outcome t =>
                rw [hlinked] at hu
                cases outcome with
                | error e => cases hu
                | ok v =>
                    obtain rfl := Except.ok.inj hu
                    exact (Linkage.fullyLinked_materialise
                      (ih n found 0 _ hn (Prod.ext hscan rfl)) hlinked).1

/-- The host refuses a name only because it does not have it. -/
theorem error_of_hostAnswer {e : ResolveError} (h : l.hostAnswer n = .error e) : e = .notFound n := by
  unfold hostAnswer at h
  cases hlookup : l.host.lookup n.text with
  | some u => rw [hlookup] at h; cases h
  | none => rw [hlookup] at h; exact (Except.error.inj h).symm

/-- A container has a name. -/
def Held (l : Loader) (n : Identity) : Prop := ∃ found, (l.scanFor n 0).1 = .ok (some found)

/-- What the bytes that a container has under a name declare. -/
def DeclaredAs (l : Loader) (n : Identity) (d : Declared) : Prop :=
  ∃ found, (l.scanFor n 0).1 = .ok (some found) ∧ declared n found.bytes = .ok d

/-- The unit that a container supplies under a name declares another name as its supertype or as a
module that it imports from. -/
def Refers (l : Loader) (n m : Identity) : Prop := ∃ d, l.DeclaredAs n d ∧ d.RefersTo m

/-- A container has every name that refers to another one. -/
theorem Refers.held (h : l.Refers n m) : l.Held n := by
  obtain ⟨d, ⟨found, hfound, -⟩, -⟩ := h
  exact ⟨found, hfound⟩

/-- The names in the bytes that are found are references. -/
theorem refers_of_found (hfound : (l.scanFor n 0).1 = .ok (some found))
    (hm : m ∈ referenced n found.bytes) : l.Refers n m := by
  obtain ⟨d, hd, href⟩ := refersTo_of_mem_referenced hm
  exact ⟨d, ⟨found, hfound, hd⟩, href⟩

/-- **Nested requests follow references**: linking what a container has under a name requests names that
it refers to. -/
theorem refers_of_mem_nested (hfound : (l.scanFor n 0).1 = .ok (some found)) {p : Identity × Registry}
    (hp : p ∈ l.nested path n found r) : l.Refers n p.1 := by
  rw [nested, asked_eq] at hp
  exact refers_of_found hfound (fst_mem_of_mem_requests hp)

/-- A path along references: the names that are being linked when a name is requested, no name twice, each
of them referring to the next. -/
structure Trail (l : Loader) (path : List Identity) (n : Identity) : Prop where
  nodup : path.Nodup
  refers : (path ++ [n]).IsChain l.Refers

theorem trail_nil (l : Loader) (n : Identity) : l.Trail [] n := ⟨.nil, .singleton n⟩

/-- A trail goes on to the names that the last name refers to. -/
theorem Trail.extend (h : l.Trail path n) (hn : n ∉ path) (href : l.Refers n m) :
    l.Trail (path ++ [n]) m where
  nodup := by
    refine List.nodup_append.mpr ⟨h.nodup, List.nodup_singleton n, ?_⟩
    intro a ha b hb
    obtain rfl := List.mem_singleton.mp hb
    rintro rfl
    exact hn ha
  refers := by
    rw [List.append_assoc, List.singleton_append, List.isChain_append_cons_cons]
    exact ⟨h.refers, href, .singleton m⟩

/-- Every name on a trail is one that a container has. -/
theorem Trail.held (h : l.Trail path n) : ∀ m ∈ path, l.Held m := by
  intro m hm
  obtain ⟨before, after, rfl⟩ := List.append_of_mem hm
  obtain ⟨k, rest, hrest⟩ := List.exists_cons_of_ne_nil (List.append_ne_nil_of_right_ne_nil after
    (List.cons_ne_nil n []))
  have hrefers := h.refers
  rw [List.append_assoc, List.cons_append, hrest, List.isChain_append_cons_cons] at hrefers
  exact hrefers.2.1.held

/-! ## Finitely many -/

/-- The names of the resources that the containers have. -/
def resourceNames (l : Loader) : Set String :=
  {name | ∃ c ∈ l.containers, ∃ bytes, c.lookup 0 name = .ok (some bytes)}

/-- Containers have finitely many names. -/
theorem finite_resourceNames (l : Loader) : l.resourceNames.Finite := by
  refine (List.finite_toSet l.served).subset ?_
  rintro name ⟨c, hc, bytes, hlookup⟩
  exact List.mem_flatMap.mpr ⟨c, hc, Container.mem_served hlookup⟩

/-- A name that a container has is that of a resource. -/
theorem Held.resourceName_mem (hsteady : l.Steady) (h : l.Held n) :
    n.resourceName l.artifactExtension ∈ l.resourceNames := by
  obtain ⟨found, hfound⟩ := h
  have hscan : l.scanFor n 0 = (.ok (some found), (l.scanFor n 0).2) := Prod.ext hfound rfl
  obtain ⟨c, hc, clock, hlookup, -⟩ := exists_lookup_of_scan hscan
  exact ⟨c, hc, found.bytes, (hsteady c hc clock _).symm.trans hlookup⟩

/-- Containers have finitely many identities. -/
theorem finite_held (hsteady : l.Steady) : {n | l.Held n}.Finite := by
  refine l.finite_resourceNames.of_injOn (f := fun n => n.resourceName l.artifactExtension)
    (fun n hn => Held.resourceName_mem hsteady hn) fun n _ m _ hname => ?_
  exact Identity.resourceName_inj hname

/-- A name and the names that container units refer to. -/
def referred (l : Loader) (n : Identity) : Set Identity := {k | k = n ∨ ∃ m, l.Refers m k}

/-- Container units refer to finitely many names. -/
theorem finite_referred (hsteady : l.Steady) (n : Identity) : (l.referred n).Finite := by
  have hone : ∀ m, {k | l.Refers m k}.Finite := by
    intro m
    by_cases hd : ∃ d, l.DeclaredAs m d
    · obtain ⟨d, found, hfound, hd⟩ := hd
      have htexts : {name | ∃ i ∈ d.interface.imports, i.moduleName = name}.Finite :=
        (List.finite_toSet (d.interface.imports.map fun i => i.moduleName)).subset
          fun name ⟨i, hi, hname⟩ => List.mem_map.mpr ⟨i, hi, hname⟩
      have himports := htexts.preimage (f := Identity.text) fun a _ b _ h => Identity.text_inj h
      refine ((List.finite_toSet d.metadata.supertype.toList).union himports).subset ?_
      rintro k ⟨d', ⟨found', hfound', hd'⟩, hk⟩
      obtain rfl := Option.some.inj (Except.ok.inj (hfound.symm.trans hfound'))
      obtain rfl := Except.ok.inj (hd.symm.trans hd')
      exact hk.imp Option.mem_toList.mpr id
    · refine Set.finite_empty.subset fun k ⟨d, hk, _⟩ => hd ⟨d, hk⟩
  have hall : {k | ∃ m, l.Refers m k}.Finite := by
    refine (Set.Finite.biUnion (finite_held hsteady) fun m _ => hone m).subset ?_
    rintro k ⟨m, hk⟩
    exact Set.mem_biUnion hk.held hk
  exact (Set.finite_singleton n).union hall

/-- Distinct elements of a finite set are no more than it has. -/
theorem length_le_ncard {α : Type} {s : Set α} (hs : s.Finite) {xs : List α} (hnodup : xs.Nodup)
    (hxs : ∀ x ∈ xs, x ∈ s) : xs.length ≤ s.ncard := by
  classical
  rw [← List.toFinset_card_of_nodup hnodup, ← Set.ncard_coe_finset]
  refine Set.ncard_le_ncard (fun x hx => hxs x ?_) hs
  simpa using hx

/-- A trail is no longer than there are resources. -/
theorem Trail.length_le (h : l.Trail path n) (hsteady : l.Steady) :
    path.length ≤ l.resourceNames.ncard := by
  rw [← List.length_map (fun n : Identity => n.resourceName l.artifactExtension)]
  refine length_le_ncard l.finite_resourceNames (h.nodup.map fun a b => Identity.resourceName_inj)
    fun name hname => ?_
  obtain ⟨m, hm, rfl⟩ := List.mem_map.mp hname
  exact (h.held m hm).resourceName_mem hsteady

end Loader

end LiveUnits
