import LiveUnits.Proofs.Loader.Extension
import LiveUnits.Proofs.Loader.References

/-!
# Calls

A call is a request together with the names that are being linked and with what is remembered when it is
made.  Where bytes are found, a call makes further calls (`Loader.Makes`), and all events of a request are
those of the calls that it makes, directly or not (`Loader.exists_call_of_mem_events`).

Two things are handed down from a call to those that it makes: the names that are being linked form a
trail of references (`Makes.trail`), and none of them is classified (`Makes.inv`).  One thing is handed up,
failure: a call fails as soon as one that it makes does, and nothing is remembered any more from there on
(`Makes.failed`).  So what is remembered in the end is what was remembered when the failure arose.
-/

namespace LiveUnits

open Attempt Linkage Relation

namespace Loader

/-- A request for a name while the names on a path are being linked. -/
structure Call where
  path : List Identity
  name : Identity
  /-- What is remembered when the request is made. -/
  registry : Registry

/-- How a call is answered, and what is remembered then. -/
def answer (l : Loader) (c : Call) : Except ResolveError LinkedUnit × Registry :=
  l.resolveAt c.path c.name c.registry

/-- A call makes another one: bytes are found for its name, and linking them makes the request. -/
inductive Makes (l : Loader) : Call → Call → Prop
  | intro {c : Call} {found : Found} {lookups : Nat} {p : Identity × Registry}
      (hopen : c.registry.Open c.name) (hn : c.name ∉ c.path)
      (hscan : l.scanFor c.name c.registry.counters.lookups = (.ok (some found), lookups))
      (hp : p ∈ l.nested c.path c.name found (c.registry.countScan lookups)) :
      Makes l c ⟨c.path ++ [c.name], p.1, p.2⟩

variable {l : Loader} {c c' : Call} {path : List Identity} {n : Identity} {r : Registry}

/-! ## Events -/

/-- Where bytes are found, the events of a request enclose those of the requests for linking them. -/
theorem events_found {found : Found} {lookups : Nat} (hopen : r.Open n) (hn : n ∉ path)
    (hscan : l.scanFor n r.counters.lookups = (.ok (some found), lookups)) :
    l.events path n r = .asked path n r ::
      (((l.nested path n found (r.countScan lookups)).flatMap fun p => l.events (path ++ [n]) p.1 p.2) ++
        [.answered path n (l.resolveAt path n r).1 (l.resolveAt path n r).2]) := by
  have hunknown : ¬ ((r.unit? n.text).isSome ∨ n ∈ r.unresolvable) := by
    rw [hopen.1]
    simpa using hopen.2
  rw [events, if_neg hunknown, dif_neg hn]
  split
  · next found' lookups' hscan' =>
    rw [scanFor, hscan'] at hscan
    obtain ⟨hfound, rfl⟩ := Prod.mk.inj hscan
    obtain rfl := Option.some.inj (Except.ok.inj hfound)
    rfl
  · next hscan' => exact absurd hscan (hscan' found lookups)

/-- Otherwise a request makes no others. -/
theorem events_alone (h : ∀ found lookups, r.Open n → n ∉ path →
      l.scanFor n r.counters.lookups ≠ (.ok (some found), lookups)) :
    l.events path n r =
      [.asked path n r, .answered path n (l.resolveAt path n r).1 (l.resolveAt path n r).2] := by
  rw [events]
  split
  · rfl
  · next hunknown =>
    have hopen : r.Open n := by
      simpa only [Registry.Open, not_or, Option.not_isSome_iff_eq_none] using hunknown
    split
    · rfl
    · next hn =>
      split
      · next found lookups hscan => exact absurd hscan (h found lookups hopen hn)
      · rfl

/-- **Every event is that of a call**, when it is made or when it has been answered. -/
theorem exists_call_of_mem_events {e : Event} (he : e ∈ l.events c.path c.name c.registry) :
    ∃ c', ReflTransGen l.Makes c c' ∧ (e = .asked c'.path c'.name c'.registry ∨
      e = .answered c'.path c'.name (l.answer c').1 (l.answer c').2) := by
  obtain ⟨path, n, r⟩ := c
  induction path using l.byPath generalizing n r with
  | step path ih =>
  by_cases hfound : ∃ found lookups, r.Open n ∧ n ∉ path ∧
      l.scanFor n r.counters.lookups = (.ok (some found), lookups)
  · obtain ⟨found, lookups, hopen, hn, hscan⟩ := hfound
    rw [events_found hopen hn hscan, List.mem_cons, List.mem_append, List.mem_singleton] at he
    rcases he with rfl | he | rfl
    · exact ⟨⟨path, n, r⟩, .refl, .inl rfl⟩
    · obtain ⟨p, hp, he⟩ := List.mem_flatMap.mp he
      obtain ⟨c', hcalls, hc'⟩ := ih n found _ _ hn hscan p.1 p.2 he
      exact ⟨c', .head (.intro hopen hn hscan hp) hcalls, hc'⟩
    · exact ⟨⟨path, n, r⟩, .refl, .inr rfl⟩
  · have halone : l.events path n r = _ := events_alone fun found lookups hopen hn hscan =>
      hfound ⟨found, lookups, hopen, hn, hscan⟩
    rw [halone, List.mem_cons, List.mem_singleton] at he
    rcases he with rfl | rfl
    · exact ⟨⟨path, n, r⟩, .refl, .inl rfl⟩
    · exact ⟨⟨path, n, r⟩, .refl, .inr rfl⟩

/-- The events of a call are among those of the one that makes it. -/
theorem Makes.events_subset (h : l.Makes c c') :
    l.events c'.path c'.name c'.registry ⊆ l.events c.path c.name c.registry := by
  obtain ⟨hopen, hn, hscan, hp⟩ := h
  rw [events_found hopen hn hscan]
  intro e he
  refine List.mem_cons_of_mem _ (List.mem_append_left _ (List.mem_flatMap.mpr ⟨_, hp, he⟩))

/-! ## What is handed down -/

/-- What is requested while a name is linked is what its unit refers to. -/
theorem Makes.refers (h : l.Makes c c') (hsteady : l.Steady) : l.Refers c.name c'.name := by
  obtain ⟨-, -, hscan, hp⟩ := h
  exact refers_of_mem_nested (hsteady.scanFor_eq hscan) hp

/-- The names that are being linked form a trail. -/
theorem Makes.trail (h : l.Makes c c') (hsteady : l.Steady) (htrail : l.Trail c.path c.name) :
    l.Trail c'.path c'.name := by
  have hrefers := h.refers hsteady
  obtain ⟨-, hn, -, -⟩ := h
  exact htrail.extend hn hrefers

/-- None of the names that are being linked is classified. -/
theorem Makes.inv (h : l.Makes c c') (hinv : (l.linking c.path).Inv c.registry) :
    (l.linking c'.path).Inv c'.registry := by
  obtain @⟨found, lookups, p, hopen, hn, hscan, hp⟩ := h
  rw [nested, asked_eq] at hp
  exact of_mem_requests (fun m s hs => (l.meets_resolveAt (c.path ++ [c.name]) m s hs trivial).1)
    (inv_linking hinv hopen lookups) hp

/-- The names that are being linked when a call is made lie on a trail of references. -/
theorem trail_of_calls (hsteady : l.Steady) (hcalls : ReflTransGen l.Makes c c')
    (htrail : l.Trail c.path c.name) : l.Trail c'.path c'.name := by
  induction hcalls with
  | refl => exact htrail
  | tail _ hmakes ih => exact hmakes.trail hsteady ih

/-- Calls are made in registries that keep the invariant. -/
theorem inv_of_calls (hcalls : ReflTransGen l.Makes c c') (hinv : (l.linking c.path).Inv c.registry) :
    (l.linking c'.path).Inv c'.registry := by
  induction hcalls with
  | refl => exact hinv
  | tail _ hmakes ih => exact hmakes.inv ih

/-- A name is requested from outside, or a container unit refers to it. -/
theorem referred_of_calls (hsteady : l.Steady) (hcalls : ReflTransGen l.Makes c c') :
    c'.name ∈ l.referred c.name := by
  rcases hcalls.cases_tail with rfl | ⟨before, -, hmakes⟩
  · exact .inl rfl
  · exact .inr ⟨before.name, hmakes.refers hsteady⟩

/-! ## What is handed up -/

/-- **A call fails with the ones that it makes**, and what is remembered stays as the failure left it. -/
theorem Makes.failed (h : l.Makes c c') {e : ResolveError} (hfails : (l.answer c').1 = .error e) :
    (l.answer c').2 = (l.answer c).2 ∧ ∃ e', (l.answer c).1 = .error e' := by
  obtain @⟨found, lookups, p, hopen, hn, hscan, hp⟩ := h
  cases hlink : l.linkFound c.path c.name found (c.registry.countScan lookups) with
  | mk outcome s =>
      cases outcome with
      | ok u =>
          -- if linking succeeded, all its requests would have been answered
          obtain ⟨v, hv⟩ := ok_of_mem_asked hlink p hp
          cases hv.symm.trans hfails
      | error e' =>
          have hanswer : l.answer c = (.error (.linkage e'), s) := by
            rw [answer, resolveAt_open hopen hn, hscan]
            simp only [hlink]
          have hlast : s = (l.answer ⟨c.path ++ [c.name], p.1, p.2⟩).2 := by
            rw [nested, asked_eq] at hp
            have hstate := state_materialise (fun m => l.resolveAt (c.path ++ [c.name]) m) l.nextHandle
              c.name found.bytes (.container found.root) (c.registry.countScan lookups)
            rw [stateAfter_of_error hp hfails] at hstate
            rw [← show (l.linkFound c.path c.name found (c.registry.countScan lookups)).2 = s by
              rw [hlink]]
            exact hstate
          rw [hanswer, hlast]
          exact ⟨rfl, _, rfl⟩

/-- A call that fails is the last one that its caller makes, and the caller fails as well. -/
theorem failed_of_calls (hcalls : ReflTransGen l.Makes c c') {e : ResolveError}
    (hfails : (l.answer c').1 = .error e) :
    (l.answer c').2 = (l.answer c).2 ∧ ∃ e', (l.answer c).1 = .error e' := by
  induction hcalls using ReflTransGen.head_induction_on with
  | refl => exact ⟨rfl, e, hfails⟩
  | head hmakes _ ih =>
      obtain ⟨hsame, e', hfails'⟩ := ih
      obtain ⟨hsame', hfails''⟩ := hmakes.failed hfails'
      exact ⟨hsame.trans hsame', hfails''⟩

end Loader

end LiveUnits
