import LiveUnits.Proofs.Loader.Loops
import LiveUnits.Proofs.Loader.Scans

/-!
# What a failed request leaves behind

A request may fail at any depth, for a container, for the bytes, or for a reference, and siblings that were
linked before stay registered.  All that is left is sound (`cleanly_resolve`): nothing that was known is
touched, the stack is as it was found, and every name that got classified is one that a fresh loader
classifies in the same way.

The names that were being linked when the failure arose stay open, because what is remembered in the end is
what was remembered then (`failed_of_calls`).  So the same request runs into the same failure again: the
references in front of it are answered from their classification, and the names in between are scanned once
more (`rescanned_of_calls`).
-/

namespace LiveUnits

open Attempt Linkage Relation

/-- The same is remembered; what has been counted may differ. -/
structure Registry.Recounted (r r' : Registry) : Prop where
  units : r'.units = r.units
  unresolvable : r'.unresolvable = r.unresolvable

namespace Registry.Recounted

variable {r r' r'' : Registry}

theorem refl (r : Registry) : r.Recounted r := ⟨rfl, rfl⟩

theorem trans (h : r.Recounted r') (h' : r'.Recounted r'') : r.Recounted r'' :=
  ⟨h'.units.trans h.units, h'.unresolvable.trans h.unresolvable⟩

theorem grows (h : r.Recounted r') : r.Grows r' := .of_eq h.units h.unresolvable

theorem symm (h : r.Recounted r') : r'.Recounted r := ⟨h.units.symm, h.unresolvable.symm⟩

theorem open_of_open (h : r.Recounted r') {n : Identity} (hopen : r.Open n) : r'.Open n :=
  h.symm.grows.open_of_open hopen

end Registry.Recounted

namespace Loader

variable {l : Loader} {c c' : Call} {path : List Identity} {n : Identity} {r r' : Registry}

/-- Counting keeps a registry closed. -/
theorem Closed.recounted (h : l.Closed r) (hsame : r.Recounted r') : l.Closed r' :=
  h.of_eq hsame.units hsame.unresolvable

/-- In a closed registry, an open name is one without a classification. -/
theorem Closed.classification?_eq_none (h : l.Closed r) : r.classification? n.text = none ↔ r.Open n := by
  constructor
  · intro hnone
    refine ⟨?_, fun hn => ?_⟩
    · cases hu : r.unit? n.text with
      | none => rfl
      | some u => cases hnone.symm.trans ((h.classification?_eq n .resolved).mpr ⟨u, hu⟩)
    · cases hnone.symm.trans ((h.classification?_eq n .unresolvable).mpr hn)
  · intro hopen
    cases hc : r.classification? n.text with
    | none => rfl
    | some c =>
        rw [h.classification?_eq] at hc
        cases c with
        | resolved =>
            obtain ⟨u, hu⟩ := hc
            cases hopen.1.symm.trans hu
        | unresolvable => exact absurd hc hopen.2

/-! ## The same requests again -/

/-- A name that has an answer gets it without further requests. -/
theorem Closed.resolveAt_of_answers (h : l.Closed r) {u : LinkedUnit} (hu : l.Answers n u r)
    (path : List Identity) : l.resolveAt path n r = (.ok u, r.countHit) := by
  have hanswered := h.answeredFrom path n
  rcases hu with ⟨hmem, rfl⟩ | ⟨hn, hlookup⟩
  · exact hanswered.resolved u (h.unit?_name hmem) l.containers
  · have hhost : l.hostAnswer n = .ok u := by rw [hostAnswer, hlookup]
    rw [← hhost]
    exact hanswered.unresolvable hn l.containers

/-- **What was requested is requested again**, once everything that was answered before it has an answer. -/
theorem exists_request_again {names : List Identity} (hr : (l.linking path).Inv r)
    {p : Identity × Registry} (hp : p ∈ requests (fun m => l.resolveAt path m) names r)
    (hclosed : l.Closed r') (hgrows : (stateAfter (fun m => l.resolveAt path m) names r).Grows r') :
    ∃ s, r'.Recounted s ∧ (p.1, s) ∈ requests (fun m => l.resolveAt path m) names r' := by
  induction names generalizing r r' with
  | nil => cases hp
  | cons n rest ih =>
      obtain ⟨hinv, -, hanswers⟩ := l.meets_resolveAt path n r hr trivial
      unfold requests at hp
      unfold stateAfter at hgrows
      rcases List.mem_cons.mp hp with rfl | hp
      · exact ⟨r', .refl r', List.mem_cons_self⟩
      · cases hstep : l.resolveAt path n r with
        | mk outcome after =>
            rw [hstep] at hp hgrows hinv hanswers
            cases outcome with
            | error e => cases hp
            | ok u =>
                have hlater : after.Grows (stateAfter (fun m => l.resolveAt path m) rest after) :=
                  stateAfter_keeps (fun m s hs => hs.trans (l.grows_resolveAt path m s)) rest (.refl after)
                have hanswer : l.Answers n u r' := l.lasting_answers [] n u after r'
                  ⟨hinv.1, fun _ hm => (List.not_mem_nil hm).elim⟩
                  ⟨hclosed, fun _ hm => (List.not_mem_nil hm).elim⟩ (hlater.trans hgrows) (hanswers u rfl)
                have hhit : r'.Recounted r'.countHit := ⟨rfl, rfl⟩
                obtain ⟨s, hs, hmem⟩ := ih hinv hp (hclosed.recounted hhit) (hgrows.trans hhit.grows)
                refine ⟨s, hhit.trans hs, ?_⟩
                unfold requests
                rw [hclosed.resolveAt_of_answers hanswer path]
                exact List.mem_cons_of_mem _ hmem

/-- A call that makes a failing one makes it again if it is repeated in the end. -/
theorem Makes.again (h : l.Makes c c') (hsteady : l.Steady) (hinv : (l.linking c.path).Inv c.registry)
    {e : ResolveError} (hfails : (l.answer c').1 = .error e) (hsame : (l.answer c).2.Recounted r) :
    ∃ s, (l.answer c').2.Recounted s ∧
      l.Makes ⟨c.path, c.name, r⟩ ⟨c'.path, c'.name, s⟩ := by
  have hinv' := h.inv hinv
  obtain ⟨⟨hclosed, hpath⟩, -⟩ := l.meets_resolveAt c'.path c'.name c'.registry hinv' trivial
  obtain ⟨hend, -⟩ := h.failed hfails
  obtain @⟨found, lookups, p, hopen, hn, hscan, hp⟩ := h
  rw [← hend] at hsame
  have hclosed' : l.Closed r := hclosed.recounted hsame
  have hopen' : r.Open c.name := hsame.open_of_open (hpath c.name (by simp))
  have hfound : (l.scanFor c.name r.counters.lookups).1 = .ok (some found) := by
    rw [← hsteady.scanFor_eq hscan]
    exact scan_steady hsteady _ _
  have hstart := inv_linking hinv hopen lookups
  rw [nested, asked_eq] at hp
  have hcounted : r.Recounted (r.countScan (l.scanFor c.name r.counters.lookups).2) := ⟨rfl, rfl⟩
  have hgrows : (stateAfter (fun m => l.resolveAt (c.path ++ [c.name]) m)
      (referenced c.name found.bytes) (c.registry.countScan lookups)).Grows
        (r.countScan (l.scanFor c.name r.counters.lookups).2) := by
    rw [stateAfter_of_error hp hfails]
    exact (hsame.trans hcounted).grows
  obtain ⟨s, hs, hmem⟩ := exists_request_again hstart hp (hclosed'.recounted hcounted) hgrows
  refine ⟨s, hsame.trans (hcounted.trans hs), ?_⟩
  refine .intro (c := ⟨c.path, c.name, r⟩) (p := (p.1, s)) hopen' hn (Prod.ext hfound rfl) ?_
  rw [nested, asked_eq]
  exact hmem

/-- What a call scans is scanned by the one that makes it. -/
theorem Makes.scanned_subset (h : l.Makes c c') :
    l.scanned c'.path c'.name c'.registry ⊆ l.scanned c.path c.name c.registry :=
  List.filterMap_subset _ h.events_subset

/-- **A repeated request scans again** whatever was being linked when it failed, and the name at which it
failed, unless that has been classified. -/
theorem rescanned_of_calls (hsteady : l.Steady) (hcalls : ReflTransGen l.Makes c c')
    (hinv : (l.linking c.path).Inv c.registry) {e : ResolveError} (hfails : (l.answer c').1 = .error e)
    (hsame : (l.answer c).2.Recounted r) {k : Identity} (hk : k ∈ c'.path ++ [c'.name])
    (hpath : k ∉ c.path) (hopen : r.Open k) : k ∈ l.scanned c.path c.name r := by
  induction hcalls using ReflTransGen.head_induction_on generalizing r with
  | refl =>
      rcases List.mem_append.mp hk with hk | hk
      · exact absurd hk hpath
      · obtain rfl := List.mem_singleton.mp hk
        exact mem_scanned_self hopen hpath
  | @head c first hmakes hcalls ih =>
      obtain ⟨-, e', hfails'⟩ := failed_of_calls hcalls hfails
      obtain ⟨s, hs, hagain⟩ := hmakes.again hsteady hinv hfails' hsame
      by_cases hself : k = c.name
      · subst hself
        exact mem_scanned_self hopen hpath
      · have hlonger : first.path = c.path ++ [c.name] := by
          obtain ⟨-, -, -, -⟩ := hmakes
          rfl
        have hfirst : k ∉ first.path := by
          rw [hlonger, List.mem_append, List.mem_singleton]
          exact fun h => h.elim hpath hself
        have hopen' : s.Open k := by
          rw [(hmakes.failed hfails').1] at hs
          exact hs.open_of_open (hsame.symm.open_of_open hopen)
        exact hagain.scanned_subset (ih (hmakes.inv hinv) hs hfirst hopen')

/-! ## Names that were classified -/

/-- A scan that finds nothing has asked every container, in vain. -/
theorem lookup_of_scan_absent {resource : String} {cs : List Container} {clock : Nat}
    (hsteady : ∀ c ∈ cs, ∀ clock name, c.lookup clock name = c.lookup 0 name)
    (h : (scan resource cs clock).1 = .ok none) :
    ∀ c ∈ cs, ∀ clock, c.lookup clock resource = .ok none := by
  induction cs generalizing clock with
  | nil => exact fun c hc => (List.not_mem_nil hc).elim
  | cons c rest ih =>
      unfold scan at h
      have hhead : c.lookup clock resource = .ok none := by
        cases hlookup : c.lookup clock resource with
        | error e => simp [hlookup] at h
        | ok answer =>
            cases answer with
            | none => rfl
            | some bytes => simp [hlookup] at h
      rw [hhead] at h
      intro d hd t
      rcases List.mem_cons.mp hd with rfl | hd
      · rw [hsteady d List.mem_cons_self t, ← hsteady d List.mem_cons_self clock]
        exact hhead
      · exact ih (fun d hd => hsteady d (List.mem_cons_of_mem _ hd)) h d hd t

/-- A loader that has been asked for nothing classifies a name as a registry does, if it is asked for it. -/
structure SameAlone (l : Loader) (r : Registry) (n : Identity) : Prop where
  classification : (l.resolve n {}).2.classification? n.text = r.classification? n.text
  /-- A registered unit has the structure of the unit that it links, which has everything its bytes
  declare. -/
  unit : ∀ u, r.unit? n.text = some u → ∃ v, (l.resolve n {}).1 = .ok v ∧
    (l.resolve n {}).2.unit? n.text = some v ∧ v.shape = u.shape ∧ l.Supplied v
  /-- No container has an unresolvable name. -/
  unresolvable : n ∈ r.unresolvable →
    ∀ c ∈ l.containers, ∀ clock, c.lookup clock (n.resourceName l.artifactExtension) = .ok none

/-- A fresh loader asks the containers, and if none of them has the name it is unresolvable. -/
theorem unresolvable_of_absent (hsteady : l.Steady) (habsent : (l.scanFor n 0).1 = .ok none) :
    n ∈ (l.resolve n {}).2.unresolvable := by
  have hstep := l.resolveAt_step [] n {}
  unfold resolve
  generalize l.resolveAt [] n {} = result at hstep ⊢
  cases hstep with
  | registered hu => cases hu
  | delegated _ hn => exact absurd hn List.not_mem_nil
  | loop _ hn => exact absurd hn List.not_mem_nil
  | unreadable _ _ hscan => cases (hsteady.scanFor_eq hscan).symm.trans habsent
  | absent _ _ _ => exact List.mem_cons_self
  | broken _ _ hscan _ => cases (hsteady.scanFor_eq hscan).symm.trans habsent
  | linked _ _ hscan _ => cases (hsteady.scanFor_eq hscan).symm.trans habsent

/-- **What is classified is classified the same by a fresh loader.** -/
theorem Reliable.sameAlone (h : l.Reliable [] r) (hserved : l.Served r) (hsteady : l.Steady)
    {k : Classification} (hk : r.classification? n.text = some k) : l.SameAlone r n := by
  obtain ⟨⟨hclosed, -⟩, hsound⟩ := h
  have hfresh := l.reliable_start.resolve_eq hsteady n
  obtain ⟨hclosed', -, hanswers⟩ := closed_resolve l.closed_start n
  have hserved' : l.Served (l.resolve n {}).2 := served_visit hsteady [n] l.served_start
  have hunit : ∀ u, r.unit? n.text = some u → ∃ v, (l.resolve n {}).1 = .ok v ∧
      (l.resolve n {}).2.unit? n.text = some v ∧ v.shape = u.shape ∧ l.Supplied v := by
    intro u hu
    have hmem := Registry.mem_of_unit? hu
    obtain rfl := Registry.name_of_unit? hu
    rw [hsound.units u hmem [] fun _ hm => (List.not_mem_nil hm).elim] at hfresh
    cases hv : (l.resolve u.name {}).1 with
    | error e => rw [hv] at hfresh; cases hfresh
    | ok v =>
        rw [hv] at hfresh
        rcases hanswers v hv with ⟨hvmem, hname⟩ | ⟨hn, -⟩
        · refine ⟨v, rfl, hname ▸ hclosed'.unit?_name hvmem, Except.ok.inj hfresh, ?_⟩
          exact l.supplied_visit [u.name] (fun _ hu => (List.not_mem_nil hu).elim) v hvmem
        · obtain ⟨found, -, hfound, -⟩ := hserved.units u hmem
          cases (hserved'.unresolvable u.name hn).symm.trans hfound
  refine ⟨?_, hunit, fun hn => lookup_of_scan_absent hsteady (hserved.unresolvable n hn)⟩
  rw [hk]
  rw [hclosed.classification?_eq] at hk
  rw [hclosed'.classification?_eq]
  cases k with
  | resolved =>
      obtain ⟨u, hu⟩ := hk
      obtain ⟨v, -, hv, -⟩ := hunit u hu
      exact ⟨v, hv⟩
  | unresolvable =>
      exact unresolvable_of_absent hsteady (hserved.unresolvable n hk)

/-! ## All requests -/

/-- What a failed request for `n` leaves behind, after the requests for `ns`. -/
structure FailsCleanly (l : Loader) (ns : List Identity) (n : Identity) (e : ResolveError) : Prop where
  /-- Nothing that was known is touched. -/
  kept : (l.visit ns {}).Keeps (l.resolve n (l.visit ns {})).2
  /-- Every call leaves the stack as it found it, however deep it is and however it ends. -/
  restored : ∀ limit m s, (l.run limit m s).2.stack = s.stack
  /-- So the stack is empty afterwards. -/
  emptied : ∀ limit stack, l.resourceNames.ncard + 1 ≤ limit →
    l.request limit n ⟨l.visit ns {}, stack, false⟩ =
      (.error e, ⟨(l.resolve n (l.visit ns {})).2, [], false⟩)
  /-- The names that were being linked at a failure are not classified and are scanned again if the request
  is repeated; and so is the name at which a container or linking failed. -/
  interrupted : ∀ path m e' r, .answered path m (.error e') r ∈ l.events [] n (l.visit ns {}) →
    ∀ k, k ∈ path ∨ k = m ∧ (∀ x, e' ≠ .notFound x) →
      (l.resolve n (l.visit ns {})).2.classification? k.text = none ∧
        k ∈ l.scanned [] n (l.resolve n (l.visit ns {})).2 ∧
        k ∈ l.scanned [] k (l.resolve n (l.visit ns {})).2
  /-- In particular the name that was requested. -/
  requested : (∀ x, e ≠ .notFound x) →
    (l.resolve n (l.visit ns {})).2.classification? n.text = none ∧
      n ∈ l.scanned [] n (l.resolve n (l.visit ns {})).2
  /-- Every name that is classified is classified the same by a fresh loader. -/
  alone : ∀ m k, (l.resolve n (l.visit ns {})).2.classification? m.text = some k →
    l.SameAlone (l.resolve n (l.visit ns {})).2 m

/-- A name at which a call failed is open, unless nothing has it. -/
theorem open_of_failed (hinv : (l.linking c.path).Inv c.registry) {e : ResolveError}
    (hfails : (l.answer c).1 = .error e) (he : ∀ x, e ≠ .notFound x) : (l.answer c).2.Open c.name := by
  obtain ⟨path, n, r⟩ := c
  unfold answer at hfails ⊢
  have hstep := l.resolveAt_step path n r
  generalize l.resolveAt path n r = result at hstep hfails ⊢
  cases hstep with
  | registered _ => cases hfails
  | delegated _ _ => exact absurd (error_of_hostAnswer hfails) (he n)
  | loop hopen _ => exact hopen
  | unreadable hopen _ _ => exact hopen
  | absent _ _ _ => exact absurd (error_of_hostAnswer hfails) (he n)
  | broken hopen _ _ hlink =>
      -- the name was on the path while its bytes were linked
      obtain ⟨⟨-, hpath⟩, -⟩ := l.meets_linkFound (fun m => l.meets_resolveAt (path ++ [n]) m) hinv.1
        hinv.2 hopen hlink
      exact hpath n (List.mem_append_right _ List.mem_cons_self)
  | linked _ _ _ _ => cases hfails

/-- **A failed request leaves only what is sound**, if the containers do not change their answers. -/
theorem cleanly_resolve (l : Loader) (hsteady : l.Steady) (ns : List Identity) (n : Identity)
    (e : ResolveError) (h : (l.resolve n (l.visit ns {})).1 = .error e) : l.FailsCleanly ns n e := by
  have hreliable := reliable_visit hsteady ns l.reliable_start
  have hreliable' : l.Reliable [] (l.resolve n (l.visit ns {})).2 :=
    reliable_visit hsteady [n] hreliable
  have hserved' : l.Served (l.resolve n (l.visit ns {})).2 :=
    served_visit hsteady [n] (served_visit hsteady ns l.served_start)
  obtain ⟨hclosed', hgrows, -⟩ := closed_resolve hreliable.1.1 n
  have hinterrupted : ∀ path m e' r, .answered path m (.error e') r ∈ l.events [] n (l.visit ns {}) →
      ∀ k, k ∈ path ∨ k = m ∧ (∀ x, e' ≠ .notFound x) →
        (l.resolve n (l.visit ns {})).2.Open k ∧ k ∈ l.scanned [] n (l.resolve n (l.visit ns {})).2 := by
    intro path m e' r he k hk
    obtain ⟨c, hcalls, hc⟩ := exists_call_of_mem_events (c := ⟨[], n, l.visit ns {}⟩) he
    rcases hc with hc | hc
    · cases hc
    obtain ⟨rfl, rfl, hfails, -⟩ := Event.answered.inj hc
    obtain ⟨hend, -⟩ := failed_of_calls hcalls hfails.symm
    have hinv := inv_of_calls hcalls hreliable.1
    have hopen : (l.answer c).2.Open k := by
      rcases hk with hk | ⟨rfl, hne⟩
      · exact (l.meets_resolveAt c.path c.name c.registry hinv trivial).1.2 k hk
      · exact open_of_failed hinv hfails.symm hne
    rw [hend] at hopen
    refine ⟨hopen, rescanned_of_calls hsteady hcalls hreliable.1 hfails.symm (.refl _) ?_
      List.not_mem_nil hopen⟩
    rw [List.mem_append, List.mem_singleton]
    exact hk.imp id And.left
  refine ⟨hreliable.1.1.keeps hclosed' hgrows, l.stack_run, fun limit stack hlimit => ?_,
    fun path m e' r he k hk => ?_, fun he => ?_, fun m k hk => hreliable'.sameAlone hserved' hsteady hk⟩
  · rw [request_eq hsteady hlimit, h]
  · obtain ⟨hopen, hscanned⟩ := hinterrupted path m e' r he k hk
    exact ⟨hclosed'.classification?_eq_none.mpr hopen, hscanned,
      mem_scanned_self hopen List.not_mem_nil⟩
  · have hopen : (l.resolve n (l.visit ns {})).2.Open n :=
      open_of_failed (c := ⟨[], n, l.visit ns {}⟩) hreliable.1 h he
    exact ⟨hclosed'.classification?_eq_none.mpr hopen, mem_scanned_self hopen List.not_mem_nil⟩

end Loader

namespace Catalog.Shadowing

open Loader

/-- A unit that extends itself, requested after another one. -/
theorem cleanly_resolve_me : ∃ e,
    let l := overMemory 1 [("a/Foo.wasm", exporting), ("a/Me.wasm", extending "a.Me")] .empty
    let foo : Identity := ⟨["a", "Foo"], by decide, by decide⟩
    l.Steady ∧ (l.resolve me (l.visit [foo] {})).1 = .error e ∧ l.FailsCleanly [foo] me e := by
  let l := overMemory 1 [("a/Foo.wasm", exporting), ("a/Me.wasm", extending "a.Me")] .empty
  let foo : Identity := ⟨["a", "Foo"], by decide, by decide⟩
  have hsteady : l.Steady := steady_overMemory _ _ _
  have hcyclic : l.Cyclic me := cyclic_me ⟨.empty, rfl⟩
  cases hresolve : (l.resolve me (l.visit [foo] {})).1 with
  | ok u => exact absurd hresolve (hcyclic.resolve_ne_ok hsteady [foo] u)
  | error e => exact ⟨e, hsteady, hresolve, cleanly_resolve l hsteady [foo] me e hresolve⟩

end Catalog.Shadowing

end LiveUnits
