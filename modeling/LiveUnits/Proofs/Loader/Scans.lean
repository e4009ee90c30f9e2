import LiveUnits.Proofs.Loader.Calls
import LiveUnits.Proofs.Loader.Stack

/-!
# No name is scanned twice

A request that goes through the containers is a scan.  One request from outside leads to many, and no two of
them are for one name (`scanning_resolveAt`): as long as all goes well, a name that was scanned gets
classified before the next request, and is answered from its classification from then on; and the first
failure ends everything, although failures are not remembered.

If the containers do not change their answers, the calls are inside each other no deeper than there are
resources, and one more; and every name that is scanned was requested or is what a container unit refers to
(`frugal_resolve`).  This holds for every graph of references, with cycles or without.
-/

namespace LiveUnits

open Attempt Linkage Relation

instance (r : Registry) (n : Identity) : Decidable (r.Open n) :=
  decidable_of_iff ((r.unit? n.text).isNone = true ∧ n ∉ r.unresolvable) <| by
    rw [Option.isNone_iff_eq_none, Registry.Open]

/-- What is remembered later leaves no name open that was classified before. -/
theorem Registry.Grows.not_open {r r' : Registry} (h : r.Grows r') {n : Identity} (hn : ¬ r.Open n) :
    ¬ r'.Open n :=
  fun hopen => hn (h.open_of_open hopen)

namespace Loader

/-- The name for which the containers are asked when a request is made: it is not classified, and it is not
being linked. -/
def Event.scanned? : Event → Option Identity
  | .asked path n r => if r.Open n ∧ n ∉ path then some n else none
  | .answered _ _ _ _ => none

/-- The names for which a request asks the containers, directly or through the requests it leads to. -/
def scanned (l : Loader) (path : List Identity) (n : Identity) (r : Registry) : List Identity :=
  (l.events path n r).filterMap Event.scanned?

variable {l : Loader} {path : List Identity} {n : Identity} {r : Registry}

/-! ## One request -/

/-- Where bytes are found, the name is scanned and then whatever linking them leads to. -/
theorem scanned_found {found : Found} {lookups : Nat} (hopen : r.Open n) (hn : n ∉ path)
    (hscan : l.scanFor n r.counters.lookups = (.ok (some found), lookups)) :
    l.scanned path n r = n :: (l.nested path n found (r.countScan lookups)).flatMap fun p =>
      l.scanned (path ++ [n]) p.1 p.2 := by
  have hself : Event.scanned? (.asked path n r) = some n := if_pos ⟨hopen, hn⟩
  unfold scanned
  rw [events_found hopen hn hscan, List.filterMap_cons_some hself, List.filterMap_append,
    List.filterMap_flatMap]
  simp [Event.scanned?]

/-- Where nothing is found, only the name itself is scanned. -/
theorem scanned_unfound (hopen : r.Open n) (hn : n ∉ path)
    (h : ∀ found lookups, l.scanFor n r.counters.lookups ≠ (.ok (some found), lookups)) :
    l.scanned path n r = [n] := by
  unfold scanned
  rw [events_alone fun found lookups _ _ => h found lookups]
  simp [Event.scanned?, hopen, hn]

/-- A name that is classified or being linked is not scanned. -/
theorem scanned_of_not (h : ¬ (r.Open n ∧ n ∉ path)) : l.scanned path n r = [] := by
  unfold scanned
  rw [events_alone fun _ _ hopen hn => absurd ⟨hopen, hn⟩ h]
  simp [Event.scanned?, h]

/-- A request for an open name that is not being linked asks the containers for it. -/
theorem mem_scanned_self (hopen : r.Open n) (hn : n ∉ path) : n ∈ l.scanned path n r := by
  refine List.mem_filterMap.mpr ⟨.asked path n r, ?_, if_pos ⟨hopen, hn⟩⟩
  rw [events]
  exact List.mem_cons_self

/-- What requests scan that lead from one registry to another: no name twice, and only names that were
open and not being linked.  If all of them are answered with units, these names are classified in the
end. -/
structure Scanning (path : List Identity) (r r' : Registry) (answered : Prop) (names : List Identity) :
    Prop where
  nodup : names.Nodup
  fresh : ∀ k ∈ names, r.Open k ∧ k ∉ path
  classified : answered → ∀ k ∈ names, ¬ r'.Open k
  /-- Every scan is counted, and nothing else is. -/
  counted : r'.counters.scans = r.counters.scans + names.length

/-- Nothing is scanned. -/
theorem Scanning.nil {r' : Registry} {answered : Prop} (hcount : r'.counters.scans = r.counters.scans) :
    Scanning path r r' answered [] where
  nodup := .nil
  fresh _ hk := (List.not_mem_nil hk).elim
  classified _ _ hk := (List.not_mem_nil hk).elim
  counted := hcount

/-- One name is scanned. -/
theorem Scanning.single {r' : Registry} {answered : Prop} (hopen : r.Open n) (hn : n ∉ path)
    (hclassified : answered → ¬ r'.Open n) (hcount : r'.counters.scans = r.counters.scans + 1) :
    Scanning path r r' answered [n] where
  nodup := List.nodup_singleton n
  fresh k hk := by
    obtain rfl := List.mem_singleton.mp hk
    exact ⟨hopen, hn⟩
  classified hanswered k hk := by
    obtain rfl := List.mem_singleton.mp hk
    exact hclassified hanswered
  counted := hcount

/-- A name is scanned and then others, while it is being linked. -/
theorem Scanning.cons {s r' : Registry} {lookups : Nat} {answered answered' : Prop}
    {names : List Identity} (hopen : r.Open n) (hn : n ∉ path)
    (h : Scanning (path ++ [n]) (r.countScan lookups) s answered' names)
    (hclassified : answered → answered' ∧ s.Grows r' ∧ ¬ r'.Open n)
    (hcount : r'.counters.scans = s.counters.scans) : Scanning path r r' answered (n :: names) where
  nodup := by
    refine List.nodup_cons.mpr ⟨fun hmem => ?_, h.nodup⟩
    exact (h.fresh n hmem).2 (List.mem_append_right _ List.mem_cons_self)
  fresh k hk := by
    rcases List.mem_cons.mp hk with rfl | hk
    · exact ⟨hopen, hn⟩
    · obtain ⟨hfree, hpath⟩ := h.fresh k hk
      exact ⟨hfree, fun hmem => hpath (List.mem_append_left _ hmem)⟩
  classified hanswered k hk := by
    obtain ⟨hanswered', hgrows, hself⟩ := hclassified hanswered
    rcases List.mem_cons.mp hk with rfl | hk
    · exact hself
    · exact hgrows.not_open (h.classified hanswered' k hk)
  counted := by
    have hscans : (r.countScan lookups).counters.scans = r.counters.scans + 1 := rfl
    rw [hcount, h.counted, hscans, List.length_cons]
    omega

/-- After requests that were all answered, others scan different names. -/
theorem Scanning.append {r' r'' : Registry} {answered : Prop} {names names' : List Identity}
    (h : Scanning path r r' True names) (h' : Scanning path r' r'' answered names') (hbefore : r.Grows r')
    (hafter : r'.Grows r'') : Scanning path r r'' answered (names ++ names') where
  nodup := by
    refine List.nodup_append.mpr ⟨h.nodup, h'.nodup, fun a ha b hb => ?_⟩
    rintro rfl
    exact h.classified trivial a ha (h'.fresh a hb).1
  fresh k hk := by
    rcases List.mem_append.mp hk with hk | hk
    · exact h.fresh k hk
    · exact ⟨hbefore.open_of_open (h'.fresh k hk).1, (h'.fresh k hk).2⟩
  classified hanswered k hk := by
    rcases List.mem_append.mp hk with hk | hk
    · exact hafter.not_open (h.classified trivial k hk)
    · exact h'.classified hanswered k hk
  counted := by
    rw [h'.counted, h.counted, List.length_append]
    omega

/-- Requests one after the other, up to the first that fails. -/
theorem scanning_requests (l : Loader) {path : List Identity}
    (hone : ∀ n r, Scanning path r (l.resolveAt path n r).2 (∃ u, (l.resolveAt path n r).1 = .ok u)
      (l.scanned path n r)) (names : List Identity) (r : Registry) :
    Scanning path r (stateAfter (fun m => l.resolveAt path m) names r)
      (∀ p ∈ requests (fun m => l.resolveAt path m) names r, ∃ u, (l.resolveAt path p.1 p.2).1 = .ok u)
      ((requests (fun m => l.resolveAt path m) names r).flatMap fun p => l.scanned path p.1 p.2) := by
  induction names generalizing r with
  | nil => exact .nil rfl
  | cons n rest ih =>
      have hn := hone n r
      have hgrows := l.grows_resolveAt path n r
      unfold requests stateAfter
      cases hstep : l.resolveAt path n r with
      | mk outcome r' =>
          rw [hstep] at hn hgrows
          rw [List.flatMap_cons]
          cases outcome with
          | error e =>
              rw [List.flatMap_nil, List.append_nil]
              refine ⟨hn.nodup, hn.fresh, fun hall => ?_, hn.counted⟩
              obtain ⟨u, hu⟩ := hall (n, r) List.mem_cons_self
              rw [hstep] at hu
              cases hu
          | ok u =>
              have hfirst : Scanning path r r' True (l.scanned path n r) :=
                ⟨hn.nodup, hn.fresh, fun _ => hn.classified ⟨u, rfl⟩, hn.counted⟩
              have hlater : r'.Grows (stateAfter (fun m => l.resolveAt path m) rest r') :=
                stateAfter_keeps (fun m s hs => hs.trans (l.grows_resolveAt path m s)) rest (.refl r')
              have hall := hfirst.append (ih r') hgrows hlater
              exact ⟨hall.nodup, hall.fresh,
                fun h => hall.classified fun p hp => h p (List.mem_cons_of_mem _ hp), hall.counted⟩

/-- The requests for linking the bytes found for a name. -/
theorem scanning_linkFound (l : Loader) {path : List Identity} {n : Identity} (found : Found)
    (hone : ∀ m r, Scanning (path ++ [n]) r (l.resolveAt (path ++ [n]) m r).2
      (∃ u, (l.resolveAt (path ++ [n]) m r).1 = .ok u) (l.scanned (path ++ [n]) m r)) (r : Registry) :
    Scanning (path ++ [n]) r (l.linkFound path n found r).2
      (∃ u, (l.linkFound path n found r).1 = .ok u)
      ((l.nested path n found r).flatMap fun p => l.scanned (path ++ [n]) p.1 p.2) := by
  have hall := l.scanning_requests hone (referenced n found.bytes) r
  rw [← state_materialise _ l.nextHandle n found.bytes (.container found.root) r] at hall
  rw [nested, asked_eq]
  refine ⟨hall.nodup, hall.fresh, fun hok => hall.classified fun p hp => ?_, hall.counted⟩
  obtain ⟨u, hu⟩ := hok
  rw [← asked_eq _ l.nextHandle n found.bytes (.container found.root) r] at hp
  exact ok_of_mem_asked (Prod.ext hu rfl) p hp

/-- **No request scans a name twice**, whatever has been requested before and whatever the containers
answer. -/
theorem scanning_resolveAt (l : Loader) (path : List Identity) (n : Identity) (r : Registry) :
    Scanning path r (l.resolveAt path n r).2 (∃ u, (l.resolveAt path n r).1 = .ok u)
      (l.scanned path n r) := by
  induction path using l.byPath generalizing n r with
  | step path ih =>
  have hstep := l.resolveAt_step path n r
  generalize l.resolveAt path n r = result at hstep ⊢
  cases hstep with
  | registered hu =>
      rw [scanned_of_not fun h => by rw [h.1.1] at hu; cases hu]
      exact .nil rfl
  | delegated _ hn =>
      rw [scanned_of_not fun h => h.1.2 hn]
      exact .nil rfl
  | loop _ hn =>
      rw [scanned_of_not fun h => h.2 hn]
      exact .nil rfl
  | unreadable hopen hn hscan =>
      rw [scanned_unfound hopen hn fun _ _ h => by rw [hscan] at h; cases h]
      exact .single hopen hn (fun ⟨u, hu⟩ => by cases hu) rfl
  | absent hopen hn hscan =>
      rw [scanned_unfound hopen hn fun _ _ h => by rw [hscan] at h; cases h]
      exact .single hopen hn (fun _ h => h.2 List.mem_cons_self) rfl
  | @broken found lookups e r' hopen hn hscan hlink =>
      have hnested := l.scanning_linkFound found (ih n found _ _ hn hscan) (r.countScan lookups)
      rw [hlink] at hnested
      rw [scanned_found hopen hn hscan]
      exact hnested.cons hopen hn (fun ⟨u, hu⟩ => by cases hu) rfl
  | @linked found lookups u r' hopen hn hscan hlink =>
      have hnested := l.scanning_linkFound found (ih n found _ _ hn hscan) (r.countScan lookups)
      rw [hlink] at hnested
      rw [scanned_found hopen hn hscan]
      have hname : u.name = n := (fullyLinked_materialise (l.named_resolveAt (path ++ [n])) hlink).1
      refine hnested.cons hopen hn (fun _ => ⟨⟨u, rfl⟩, ⟨List.suffix_cons _ _, List.suffix_refl _⟩,
        fun hfree => ?_⟩) rfl
      exact Registry.unit?_eq_none.mp hfree.1 u List.mem_cons_self hname

/-! ## All requests -/

/-- How much a request from outside takes, after the requests for `ns`. -/
structure Frugal (l : Loader) (ns : List Identity) (n : Identity) : Prop where
  /-- It comes to its end without ever more calls inside each other than there are resources, and one
  more, whatever was left on the stack. -/
  returns : ∀ limit stack, l.resourceNames.ncard + 1 ≤ limit →
    l.request limit n ⟨l.visit ns {}, stack, false⟩ =
      ((l.resolve n (l.visit ns {})).1, ⟨(l.resolve n (l.visit ns {})).2, [], false⟩)
  /-- The names that are being linked at any moment, and the one that is requested, are no more than
  there are resources, and one more. -/
  depth : ∀ path m r, .asked path m r ∈ l.events [] n (l.visit ns {}) →
    (path ++ [m]).length ≤ l.resourceNames.ncard + 1
  /-- There are finitely many resources. -/
  finite : l.resourceNames.Finite
  /-- No name is scanned twice. -/
  once : (l.scanned [] n (l.visit ns {})).Nodup
  /-- The scans are those that are counted. -/
  counted : (l.resolve n (l.visit ns {})).2.counters.scans =
    (l.visit ns {}).counters.scans + (l.scanned [] n (l.visit ns {})).length
  /-- Every name that is scanned was requested or is what a container unit refers to. -/
  referred : ∀ k ∈ l.scanned [] n (l.visit ns {}), k ∈ l.referred n
  /-- These are finitely many, and there are no more scans than these. -/
  few : (l.referred n).Finite ∧ (l.resolve n (l.visit ns {})).2.counters.scans ≤
    (l.visit ns {}).counters.scans + (l.referred n).ncard

/-- **Resolving ends and does nothing twice**, for every graph of references, if the containers do not
change their answers. -/
theorem frugal_resolve (l : Loader) (hsteady : l.Steady) (ns : List Identity) (n : Identity) :
    l.Frugal ns n := by
  have hscanning := l.scanning_resolveAt [] n (l.visit ns {})
  have hcall : ∀ {path m r}, .asked path m r ∈ l.events [] n (l.visit ns {}) →
      l.Trail path m ∧ m ∈ l.referred n := by
    intro path m r he
    obtain ⟨c, hcalls, hc⟩ := exists_call_of_mem_events (c := ⟨[], n, l.visit ns {}⟩) he
    rcases hc with hc | hc
    · obtain ⟨rfl, rfl, -⟩ := Event.asked.inj hc
      exact ⟨trail_of_calls hsteady hcalls (l.trail_nil n), referred_of_calls hsteady hcalls⟩
    · cases hc
  have hreferred : ∀ k ∈ l.scanned [] n (l.visit ns {}), k ∈ l.referred n := by
    intro k hk
    obtain ⟨e, he, hscans⟩ := List.mem_filterMap.mp hk
    cases e with
    | asked path m r =>
        obtain ⟨-, hsame⟩ := Option.ite_none_right_eq_some.mp hscans
        obtain rfl := Option.some.inj hsame
        exact (hcall he).2
    | answered path m outcome r => cases hscans
  have hfew := length_le_ncard (finite_referred hsteady n) hscanning.nodup hreferred
  refine ⟨fun limit stack hlimit => request_eq hsteady hlimit n _ stack, fun path m r he => ?_,
    l.finite_resourceNames, hscanning.nodup, hscanning.counted, hreferred,
    finite_referred hsteady n, ?_⟩
  · rw [List.length_append, List.length_singleton]
    exact Nat.succ_le_succ ((hcall he).1.length_le hsteady)
  · have hcounted : (l.resolve n (l.visit ns {})).2.counters.scans = _ := hscanning.counted
    omega

/-- A unit in memory that imports from another one, which has been requested before. -/
theorem frugal_resolve_memory :
    let l := overMemory 1 [("a/Foo.wasm", exporting), ("c/Baz.wasm", importing)] .empty
    l.Steady ∧ l.Frugal [⟨["a", "Foo"], by decide, by decide⟩] ⟨["c", "Baz"], by decide, by decide⟩ :=
  ⟨steady_overMemory _ _ _, frugal_resolve _ (steady_overMemory _ _ _) _ _⟩

end Loader

end LiveUnits
