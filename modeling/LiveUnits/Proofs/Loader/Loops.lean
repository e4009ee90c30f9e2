import LiveUnits.Proofs.Catalog.Types
import LiveUnits.Proofs.Loader.References

/-!
# Loops

A loop is reported with the names on the path and the name that led back to it.  If the containers do not
change their answers, a report is right about the references between container units: it starts with the
name that was requested, every name in it refers to the next, and it ends where it first meets itself
(`Loader.report_of_loop`).  The report reaches the caller as it is, however deep the loop is: no error
holds one as the cause of something else (`Loader.unnested_resolveAt`).

Conversely, a name from which references lead into a cycle is never linked
(`Loader.Cyclic.resolveAfresh_ne_ok`).  From such a name there is always a reference to another such name,
and the path cannot grow without end; so following references must fail.

References between host units do not count.  A container unit whose references all come from the host is
linked, also if it extends a host unit that extends the host unit of its own name (`Loader.OverHost`).
-/

namespace LiveUnits

open Attempt Linkage Relation

namespace Loader

variable {l : Loader} {path : List Identity} {n m : Identity} {r : Registry} {chain : List Identity}

/-- **No error holds a loop as a cause**, whatever the containers answer. -/
theorem unnested_resolveAt (l : Loader) (path : List Identity) (n : Identity) {r : Registry}
    {e : ResolveError} (h : (l.resolveAt path n r).1 = .error e) : e.Unnested := by
  induction path using l.byPath generalizing n r e with
  | step path ih =>
  have hstep := l.resolveAt_step path n r
  generalize l.resolveAt path n r = result at hstep h
  cases hstep with
  | registered _ => cases h
  | delegated _ _ =>
      obtain rfl := error_of_hostAnswer h
      exact ResolveError.unnested_of_uncaused fun _ h => nomatch h
  | loop _ _ =>
      cases h
      exact ResolveError.unnested_of_uncaused fun _ h => nomatch h
  | unreadable _ _ _ =>
      cases h
      exact ResolveError.unnested_of_uncaused fun _ h => nomatch h
  | absent _ _ _ =>
      obtain rfl := error_of_hostAnswer h
      exact ResolveError.unnested_of_uncaused fun _ h => nomatch h
  | broken _ hn hscan hlink =>
      cases h
      rcases blamed_or_uncaused (l.named_resolveAt (path ++ [n])) hlink with
        ⟨p, -, cause, hfails, hblamed⟩ | ⟨huncaused, -⟩
      · exact hblamed.unnested (ih n _ _ _ hn hscan p.1 hfails)
      · exact ResolveError.unnested_of_uncaused huncaused
  | linked _ _ _ _ => cases h

/-! ## Reports -/

/-- What a reported loop says about the references of container units. -/
structure LoopReport (l : Loader) (n : Identity) (chain : List Identity) : Prop where
  /-- It starts with the name that was requested. -/
  starts : chain.head? = some n
  /-- Containers have all the names. -/
  held : ∀ m ∈ chain, l.Held m
  /-- Every name refers to the next. -/
  refers : chain.IsChain l.Refers
  /-- The last name is exactly one of those before it, and these are distinct. -/
  closes : ∃ front last, chain = front ++ [last] ∧ front.Nodup ∧ front.count last = 1

/-- A loop is reported with a trail that goes on from the path and ends at a name on it. -/
theorem trail_of_loop (hsteady : l.Steady) (htrail : l.Trail path n)
    (h : (l.resolveAt path n r).1 = .error (.linkage (.loopDetected chain))) :
    path ++ [n] <+: chain ∧
      ∃ front last, chain = front ++ [last] ∧ l.Trail front last ∧ last ∈ front := by
  induction path using l.byPath generalizing n r with
  | step path ih =>
  have hstep := l.resolveAt_step path n r
  generalize l.resolveAt path n r = result at hstep h
  cases hstep with
  | registered _ => cases h
  | delegated _ _ => cases error_of_hostAnswer h
  | loop _ hn =>
      cases h
      exact ⟨List.prefix_refl _, path, n, rfl, htrail, hn⟩
  | unreadable _ _ _ => cases h
  | absent _ _ _ => cases error_of_hostAnswer h
  | @broken found lookups e r' _ hn hscan hlink =>
      obtain rfl := ResolveError.linkage.inj (Except.error.inj h)
      rcases blamed_or_uncaused (l.named_resolveAt (path ++ [n])) hlink with
        ⟨p, hp, cause, hfails, hblamed⟩ | ⟨-, hne⟩
      · rw [hblamed.eq_of_loop] at hfails
        have href : l.Refers n p.1 := refers_of_mem_nested (hsteady.scanFor_eq hscan) hp
        obtain ⟨hbegins, hclosed⟩ := ih n found _ _ hn hscan (htrail.extend hn href) hfails
        exact ⟨(List.prefix_append _ _).trans hbegins, hclosed⟩
      · exact absurd rfl (hne chain)
  | linked _ _ _ _ => cases h

/-- **A reported loop is there.** -/
theorem report_of_loop (hsteady : l.Steady)
    (h : (l.resolve n r).1 = .error (.linkage (.loopDetected chain))) : l.LoopReport n chain := by
  obtain ⟨⟨rest, hstarts⟩, front, last, hchain, htrail, hlast⟩ :=
    trail_of_loop hsteady (l.trail_nil n) h
  refine ⟨?_, fun m hm => ?_, ?_, front, last, hchain, htrail.nodup, ?_⟩
  · rw [← hstarts]
    rfl
  · rw [hchain] at hm
    rcases List.mem_append.mp hm with hm | hm
    · exact htrail.held m hm
    · obtain rfl := List.mem_singleton.mp hm
      exact htrail.held m hlast
  · rw [hchain]
    exact htrail.refers
  · exact List.count_eq_one_of_mem htrail.nodup hlast

/-! ## Cycles -/

/-- References lead from a name into a cycle, or it is on one. -/
def Cyclic (l : Loader) (n : Identity) : Prop :=
  ∃ m, ReflTransGen l.Refers n m ∧ TransGen l.Refers m m

/-- From a name that leads into a cycle there is a reference to another one. -/
theorem Cyclic.exists_refers (h : l.Cyclic n) : ∃ k, l.Refers n k ∧ l.Cyclic k := by
  obtain ⟨m, hnm, hcycle⟩ := h
  rcases hnm.cases_head with rfl | ⟨k, hk, hkm⟩
  · obtain ⟨k, hk, hback⟩ := TransGen.head'_iff.mp hcycle
    exact ⟨k, hk, n, hback, hcycle⟩
  · exact ⟨k, hk, m, hkm, hcycle⟩

/-- What is linked afresh has all its references resolved afresh. -/
theorem exists_afresh_of_refersTo {found : Found} {d : Declared} {u : LinkedUnit} {s s' : PUnit}
    (hd : declared n found.bytes = .ok d) (hm : d.RefersTo m)
    (hlink : l.linkAfresh path n found s = (.ok u, s')) :
    ∃ v, l.resolveAfresh (path ++ [n]) m = .ok v := by
  let C : Contract PUnit := ⟨fun _ => True, fun _ _ => True, fun _ => trivial, fun _ _ => trivial⟩
  have hresolve : ∀ k, Meets C (fun _ => True) (l.afresh (path ++ [n]) k)
      fun v _ => l.resolveAfresh (path ++ [n]) k = .ok v :=
    fun k s _ _ => ⟨trivial, trivial, fun v hv => hv⟩
  have hspec := meets_materialise hresolve (fun _ _ _ _ _ _ _ h => h)
    (fun _ => ⟨.loader l.number, 0⟩) n found.bytes (.container found.root) s trivial trivial
  rw [linkAfresh] at hlink
  obtain ⟨-, -, d', hd', hfull⟩ := fullyLinked_materialise (l.named_afresh (path ++ [n])) hlink
  obtain rfl : d = d' := Except.ok.inj (hd.symm.trans hd')
  obtain ⟨v, hv, hname⟩ := hfull.exists_reference hm
  rw [hlink] at hspec
  obtain ⟨k, hk⟩ := (hspec.2.2 u rfl).2.answered v hv
  have hnamed : v.name = k := l.named_afresh (path ++ [n]) k s v s (Prod.ext hk rfl)
  exact ⟨v, by rw [← hname, hnamed, hk]⟩

/-- **A name that leads into a cycle is never linked.** -/
theorem Cyclic.resolveAfresh_ne_ok (h : l.Cyclic n) (path : List Identity) (u : LinkedUnit) :
    l.resolveAfresh path n ≠ .ok u := by
  -- every name met on the way leads into the cycle, and the path cannot grow without end
  induction path using l.byPath generalizing n u with
  | step path ih =>
  intro hu
  by_cases hn : n ∈ path
  · rw [resolveAfresh_loop hn] at hu
    cases hu
  · obtain ⟨k, ⟨d, ⟨found, hfound, hd⟩, hk⟩, hcyclic⟩ := h.exists_refers
    rw [resolveAfresh_found hn hfound] at hu
    cases hlink : l.linkAfresh path n found ⟨⟩ with
    | mk outcome s =>
        rw [hlink] at hu
        cases outcome with
        | error e => cases hu
        | ok v =>
            obtain ⟨w, hw⟩ := exists_afresh_of_refersTo hd hk hlink
            exact ih n found 0 _ hn (Prod.ext hfound rfl) hcyclic w hw

/-- A container has every name that leads into a cycle. -/
theorem Cyclic.held (h : l.Cyclic n) : l.Held n := by
  obtain ⟨k, hk, -⟩ := h.exists_refers
  exact hk.held

/-- **A name that leads into a cycle is never resolved.** -/
theorem Cyclic.resolve_ne_ok (h : l.Cyclic n) (hsteady : l.Steady) (ns : List Identity)
    (u : LinkedUnit) : (l.resolve n (l.visit ns {})).1 ≠ .ok u := by
  intro hu
  have hsame := (reliable_visit hsteady ns l.reliable_start).resolve_eq hsteady n
  rw [hu] at hsame
  cases hafresh : l.resolveAfresh [] n with
  | ok v => exact h.resolveAfresh_ne_ok [] v hafresh
  | error e => rw [hafresh] at hsame; cases hsame

/-- A name that leads into a cycle is not classified, whatever has been requested. -/
theorem Cyclic.unclassified (h : l.Cyclic n) (hsteady : l.Steady) (ns : List Identity) :
    (l.visit ns {}).classification? n.text = none := by
  obtain ⟨⟨hclosed, -⟩, hsound⟩ := reliable_visit hsteady ns l.reliable_start
  cases hc : (l.visit ns {}).classification? n.text with
  | none => rfl
  | some c =>
      rw [hclosed.classification?_eq] at hc
      cases c with
      | resolved =>
          obtain ⟨u, hu⟩ := hc
          obtain rfl := Registry.name_of_unit? hu
          have hafresh := hsound.units u (Registry.mem_of_unit? hu) [] fun _ hm =>
            (List.not_mem_nil hm).elim
          cases hv : l.resolveAfresh [] u.name with
          | ok v => exact absurd hv (h.resolveAfresh_ne_ok [] v)
          | error e => rw [hv] at hafresh; cases hafresh
      | unresolvable =>
          obtain ⟨found, hfound⟩ := h.held
          rw [hsound.unresolvable n hc] at hfound
          cases hfound

/-! ## References to the host -/

/-- No container has a name, and the host has a unit of it. -/
def FromHost (l : Loader) (n : Identity) (u : LinkedUnit) : Prop :=
  (l.scanFor n 0).1 = .ok none ∧ l.host.lookup n.text = some u

/-- Everything that the bytes of a unit refer to comes from the host, with all that is imported.  What
the host units refer to is left open. -/
structure OverHost (l : Loader) (d : Declared) : Prop where
  supertype : ∀ k, d.metadata.supertype = some k → ∃ v, l.FromHost k v
  imports : ∀ i ∈ d.interface.imports, ∃ k v, i.moduleName = k.text ∧ l.FromHost k v ∧
    v.interface.exportKind? i.item = some i.kind

variable {d : Declared}

/-- Everything such bytes refer to comes from the host. -/
theorem OverHost.fromHost (h : l.OverHost d) {k : Identity} (hk : d.RefersTo k) : ∃ v, l.FromHost k v := by
  rcases hk with hk | ⟨i, hi, hk⟩
  · exact h.supertype k hk
  · obtain ⟨k', v, hk', hv, -⟩ := h.imports i hi
    obtain rfl : k' = k := Identity.text_inj (hk'.symm.trans hk)
    exact ⟨v, hv⟩

/-- A name that only the host has is answered by the host. -/
theorem Served.resolveAt_fromHost {k : Identity} {v : LinkedUnit} (hsteady : l.Steady) (hr : l.Served r)
    (hv : l.FromHost k v) (hk : k ∉ path) : (l.resolveAt path k r).1 = .ok v := by
  have hhost : l.hostAnswer k = .ok v := by rw [hostAnswer, hv.2]
  have hstep := l.resolveAt_step path k r
  generalize l.resolveAt path k r = result at hstep ⊢
  have habsent : ∀ {answer lookups}, l.scanFor k r.counters.lookups = (answer, lookups) →
      answer = .ok none := fun hscan => (hsteady.scanFor_eq hscan).symm.trans hv.1
  cases hstep with
  | registered hu =>
      obtain ⟨found, d, hfound, -⟩ := hr.units _ (Registry.mem_of_unit? hu)
      rw [Registry.name_of_unit? hu, hv.1] at hfound
      cases hfound
  | delegated _ _ => exact hhost
  | loop _ hn => exact absurd hn hk
  | unreadable _ _ hscan => cases habsent hscan
  | absent _ _ _ => exact hhost
  | broken _ _ hscan _ => cases habsent hscan
  | linked _ _ hscan _ => cases habsent hscan

/-- Bytes whose references come from the host can be linked, whatever has been resolved before. -/
theorem OverHost.linkFound_ne_error (h : l.OverHost d) (hsteady : l.Steady) {found : Found}
    (hfound : (l.scanFor n 0).1 = .ok (some found)) (hd : declared n found.bytes = .ok d)
    (hr : l.Served r) {e : LinkageError} {r' : Registry} :
    l.linkFound [] n found r ≠ (.error e, r') := by
  intro hlink
  have hother : ∀ {k v}, l.FromHost k v → k ∉ [] ++ [n] := by
    intro k v hv hk
    obtain rfl : k = n := List.mem_singleton.mp hk
    rw [hv.1] at hfound
    cases hfound
  have hanswer : ∀ {k v s}, l.FromHost k v → (k, s) ∈ l.nested [] n found r →
      (l.resolveAt ([] ++ [n]) k s).1 = .ok v := by
    intro k v s hv hasked
    rw [nested, asked_eq] at hasked
    have hserved : l.Served s := of_mem_requests
      (fun m s hs => (served_resolveAt hsteady ([] ++ [n]) m s hs trivial).1) hr hasked
    exact hserved.resolveAt_fromHost hsteady hv (hother hv)
  cases obstacle_materialise (l.named_resolveAt ([] ++ [n])) hd hlink with
  | supertype hk hasked hfails =>
      obtain ⟨v, hv⟩ := h.supertype _ hk
      cases (hanswer hv hasked).symm.trans hfails
  | notIdentity hi hparse =>
      obtain ⟨k, v, hk, -⟩ := h.imports _ hi
      rw [hk, Identity.parse_text] at hparse
      cases hparse
  | dependency hi hname hasked hfails =>
      obtain ⟨v, hv⟩ := h.fromHost (.inr ⟨_, hi, hname.symm⟩)
      cases (hanswer hv hasked).symm.trans hfails
  | missing hi hname hasked hv hkind =>
      obtain ⟨k, w, hk, hw, hexport⟩ := h.imports _ hi
      obtain rfl := Identity.text_inj (hname.trans hk)
      obtain rfl := Except.ok.inj ((hanswer hw hasked).symm.trans hv)
      exact hkind hexport

/-- **References between host units do not count**: a container unit whose references come from the host
is linked to the host units. -/
theorem OverHost.resolve_ok (h : l.OverHost d) (hsteady : l.Steady) (hd : l.DeclaredAs n d)
    (ns : List Identity) : ∃ u, (l.resolve n (l.visit ns {})).1 = .ok u ∧ FullyLinked d u ∧
      (∃ root, u.origin = .container root) ∧ ∀ v ∈ u.references, l.FromHost v.name v := by
  obtain ⟨found, hfound, hdeclared⟩ := hd
  have hclosed := (closed_visit ns l.closed_start).1
  have hserved := served_visit hsteady ns l.served_start
  have hok : ∃ u, (l.resolve n (l.visit ns {})).1 = .ok u := by
    have hstep := l.resolveAt_step [] n (l.visit ns {})
    unfold resolve
    generalize l.resolveAt [] n (l.visit ns {}) = result at hstep ⊢
    cases hstep with
    | registered _ => exact ⟨_, rfl⟩
    | delegated _ hn => cases (hserved.unresolvable n hn).symm.trans hfound
    | loop _ hn => exact (List.not_mem_nil hn).elim
    | unreadable _ _ hscan => cases (hsteady.scanFor_eq hscan).symm.trans hfound
    | absent _ _ hscan => cases (hsteady.scanFor_eq hscan).symm.trans hfound
    | broken _ _ hscan hlink =>
        obtain rfl := Option.some.inj
          (Except.ok.inj ((hsteady.scanFor_eq hscan).symm.trans hfound))
        have hcounted : ∀ lookups, l.Served ((l.visit ns {}).countScan lookups) := fun _ =>
          ⟨hserved.units, hserved.unresolvable⟩
        exact absurd hlink (h.linkFound_ne_error hsteady hfound hdeclared (hcounted _))
    | linked _ _ _ _ => exact ⟨_, rfl⟩
  obtain ⟨u, hu⟩ := hok
  obtain ⟨hclosed', -, hanswers⟩ := closed_resolve hclosed n
  have hserved' : l.Served (l.resolve n (l.visit ns {})).2 :=
    (served_resolveAt hsteady [] n _ hserved trivial).1
  rcases hanswers u hu with ⟨hmem, rfl⟩ | ⟨hn, -⟩
  · obtain ⟨found', d', hfound', horigin, hd', hfull⟩ := hserved'.units u hmem
    obtain rfl := Option.some.inj (Except.ok.inj (hfound'.symm.trans hfound))
    obtain rfl := Except.ok.inj (hd'.symm.trans hdeclared)
    refine ⟨u, hu, hfull, ⟨found'.root, horigin⟩, fun v hv => ?_⟩
    obtain ⟨w, hw⟩ := h.fromHost (hfull.refersTo hv)
    rcases hclosed'.references u hmem v hv with hv | hv
    · obtain ⟨found, d, hfound, -⟩ := hserved'.units v hv
      cases hfound.symm.trans hw.1
    · exact ⟨hw.1, hv⟩
  · cases (hserved'.unresolvable n hn).symm.trans hfound

/-! ## All requests -/

/-- What a loader does about loops. -/
structure DetectsLoops (l : Loader) : Prop where
  /-- A reported loop is there. -/
  report : ∀ ns n chain, (l.resolve n (l.visit ns {})).1 = .error (.linkage (.loopDetected chain)) →
    l.LoopReport n chain
  /-- A loop is never reported as the cause of something else. -/
  unnested : ∀ ns n e, (l.resolve n (l.visit ns {})).1 = .error e → e.Unnested
  /-- A name that leads into a cycle is never resolved. -/
  refused : ∀ n, l.Cyclic n → ∀ ns u, (l.resolve n (l.visit ns {})).1 ≠ .ok u
  /-- Nor is it ever classified, not even while requests are being answered. -/
  unclassified : ∀ n, l.Cyclic n → ∀ ns, ∀ e ∈ l.history ns {},
    e.registry.classification? n.text = none
  /-- A container unit whose references come from the host is linked to the host units, whatever these
  refer to. -/
  overHost : ∀ n d, l.DeclaredAs n d → l.OverHost d → ∀ ns, ∃ u,
    (l.resolve n (l.visit ns {})).1 = .ok u ∧ FullyLinked d u ∧
      (∃ root, u.origin = .container root) ∧ ∀ v ∈ u.references, l.FromHost v.name v

/-- **Loops are detected**: what is reported is there, and what is there is never linked, if the containers
do not change their answers. -/
theorem detectsLoops_of_steady (l : Loader) (hsteady : l.Steady) : l.DetectsLoops where
  report _ _ _ h := report_of_loop hsteady h
  unnested _ n _ h := l.unnested_resolveAt [] n h
  refused _ h ns u := h.resolve_ne_ok hsteady ns u
  unclassified n h ns e he := by
    by_contra hclassified
    obtain ⟨c, hc⟩ := Option.ne_none_iff_exists'.mp hclassified
    have horderly := l.orderly_history ns l.closed_start
    have hkeeps := (horderly.closed e he).keeps (closed_visit ns l.closed_start).1
      (horderly.upto e he)
    cases (h.unclassified hsteady ns).symm.trans (hkeeps.classification n c hc)
  overHost _ _ hd h ns := h.resolve_ok hsteady hd ns

end Loader

namespace Catalog.Shadowing

open Loader

/-- The name of a unit that extends itself. -/
def me : Identity := ⟨["a", "Me"], by decide, by decide⟩

/-- The module declares itself as its supertype. -/
theorem declared_me : ∃ d, Linkage.declared me (extending "a.Me") = .ok d ∧
    d.metadata.supertype = some me := by
  have hdeclared : (Linkage.declared me (extending "a.Me")).toOption.any (fun d =>
      d.metadata.supertype = some me) = true := by decide +kernel
  cases h : Linkage.declared me (extending "a.Me") with
  | error e => simp [h, Except.toOption] at hdeclared
  | ok d => exact ⟨d, rfl, by simpa [h, Except.toOption] using hdeclared⟩

/-- A module that is its own supertype is on a cycle of its own. -/
theorem cyclic_me {l : Loader}
    (h : ∃ root, (l.scanFor me 0).1 = .ok (some ⟨root, extending "a.Me"⟩)) : l.Cyclic me := by
  obtain ⟨root, h⟩ := h
  obtain ⟨d, hd, hself⟩ := declared_me
  exact ⟨me, .refl, .single ⟨d, ⟨_, h, hd⟩, .inl hself⟩⟩

/-- A unit that extends itself, and one that extends a subtype of the host unit that it shadows. -/
theorem detectsLoops_shadowing : ∃ h : HostUnits, h.Defined ∧
    (∃ above, h.lookup "kit.Derived" = some above ∧ above.isSubtypeOf "kit.Base" = true) ∧
    let l := overMemory 1 [("a/Me.wasm", extending "a.Me"), ("kit/Base.wasm", extending "kit.Derived")] h
    l.Cyclic me ∧ (∃ d, l.DeclaredAs base d ∧ d.RefersTo derived ∧ l.OverHost d) ∧ l.Steady ∧
      l.DetectsLoops := by
  obtain ⟨h, hdefined, above, habove, hlineage⟩ := exists_host
  obtain ⟨d, hd, hsupertype, himports⟩ := declared_extending
  have hsubtype : above.isSubtypeOf "kit.Base" = true := by
    rw [LinkedUnit.isSubtypeOf_iff, ← List.mem_map, hlineage]
    exact List.mem_cons_of_mem _ List.mem_cons_self
  refine ⟨h, hdefined, ⟨above, habove, hsubtype⟩, ?_⟩
  intro l
  have hderived : l.FromHost derived above := ⟨rfl, habove⟩
  have hover : l.OverHost d := by
    refine ⟨fun k hk => ?_, fun i hi => ?_⟩
    · obtain rfl := Option.some.inj (hsupertype.symm.trans hk)
      exact ⟨above, hderived⟩
    · rw [himports] at hi
      exact (List.not_mem_nil hi).elim
  have hsteady : l.Steady := steady_overMemory _ _ _
  have hdeclared : l.DeclaredAs base d := ⟨⟨.empty, extending "kit.Derived"⟩, rfl, hd⟩
  exact ⟨cyclic_me ⟨.empty, rfl⟩, ⟨d, hdeclared, .inl hsupertype, hover⟩, hsteady,
    detectsLoops_of_steady l hsteady⟩

end Catalog.Shadowing

end LiveUnits
