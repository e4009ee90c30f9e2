import LiveUnits.Proofs.Linkage.Alike
import LiveUnits.Proofs.Loader.References

/-!
# One stack for all calls

`Loader.resolveAt` is given the names that are being linked.  They can as well be kept on one stack that
all calls share: a name is pushed before its bytes are linked and popped afterwards, whether they could be
linked or not, and a request starts by clearing the stack.  `Loader.run` resolves in this way, and with
no more calls inside each other than a limit allows.

Every call leaves the stack as it found it, whatever happens inside (`stack_run`).  So the stack of a call
is its path, and as a path holds only names that containers have, and none twice, one call for each
resource and one more are enough: the limit is not reached, and the outcome is that of
`Loader.resolveAt` (`run_eq`).
-/

namespace LiveUnits

open Attempt Linkage

namespace Linkage

/-- Linking comes to the same over a state that carries more, if resolving does. -/
theorem materialise_carried {σ τ : Type} {f : Resolving σ} {g : Resolving τ} (carry : σ → τ)
    (handle : σ → Handle) (handle' : τ → Handle) {name : Identity} {bytes : Bytes} {origin : Origin}
    (hhandle : ∀ s, handle' (carry s) = handle s)
    (h : ∀ m ∈ referenced name bytes, ∀ s, g m (carry s) = ((f m s).1, carry (f m s).2)) (s : σ) :
    materialise g handle' name bytes origin (carry s) =
      ((materialise f handle name bytes origin s).1,
        carry (materialise f handle name bytes origin s).2) := by
  have hsame : ∀ x y : Except LinkageError LinkedUnit, Agree (LinkedUnit.Agrees id id) x y → y = x := by
    intro x y hxy
    cases hxy with
    | ok huv => exact congrArg Except.ok ((LinkedUnit.relabel_id _).symm.trans
        (huv.symm.trans (LinkedUnit.relabel_id _)))
    | error e => rfl
  have hrun : Alike (fun s t => t = carry s) (LinkedUnit.Agrees id id)
      (materialise f handle name bytes origin) (materialise g handle' name bytes origin) := by
    refine alike_materialise (fun s t hst => by rw [hst, hhandle]) fun m hm s t hst => ?_
    subst hst
    rw [h m hm s]
    refine ⟨rfl, ?_⟩
    cases (f m s).1 with
    | ok u => exact .ok rfl
    | error e => exact .error e
  obtain ⟨hstate, houtcome⟩ := hrun s (carry s) rfl
  exact Prod.ext (hsame _ _ houtcome) hstate

end Linkage

/-- What a loader works on. -/
structure Working where
  registry : Registry
  /-- The names that are being linked, the innermost last. -/
  stack : List Identity := []
  /-- Whether a call was refused because it would have been inside too many others. -/
  refused : Bool := false

namespace Working

def push (s : Working) (n : Identity) : Working := { s with stack := s.stack ++ [n] }

def pop (s : Working) : Working := { s with stack := s.stack.dropLast }

/-- The same with something else remembered. -/
def remember (s : Working) (r : Registry) : Working := { s with registry := r }

/-- Popping undoes pushing. -/
theorem stack_of_pop {s t : Working} {n : Identity} (h : t.stack = (s.push n).stack) :
    t.pop.stack = s.stack := by
  rw [pop, h, push, List.dropLast_concat]

end Working

namespace Loader

/-- Resolves a name with one stack, and with at most `limit` calls inside each other. -/
def run (l : Loader) : Nat → Resolving Working
  | 0, _, s => (.error .lockRejected, { s with refused := true })
  | limit + 1, n, s =>
    match s.registry.unit? n.text with
    | some u => (.ok u, s.remember s.registry.countHit)
    | none =>
      if n ∈ s.registry.unresolvable then (l.hostAnswer n, s.remember s.registry.countHit)
      else if n ∈ s.stack then (.error (.linkage (.loopDetected (s.stack ++ [n]))), s)
      else
        match l.scanFor n s.registry.counters.lookups with
        | (.error e, lookups) => (.error (.container e), s.remember (s.registry.countScan lookups))
        | (.ok none, lookups) =>
          (l.hostAnswer n, s.remember ((s.registry.countScan lookups).delegate n))
        | (.ok (some found), lookups) =>
          match materialise (fun m => l.run limit m) (fun s => l.nextHandle s.registry) n found.bytes
              (.container found.root) ((s.remember (s.registry.countScan lookups)).push n) with
          | (.error e, s') => (.error (.linkage e), s'.pop)
          | (.ok u, s') => (.ok u, s'.pop.remember (s'.registry.register u))

/-- A request from outside. -/
def request (l : Loader) (limit : Nat) (n : Identity) (s : Working) :
    Except ResolveError LinkedUnit × Working :=
  l.run limit n { s with stack := [] }

variable {l : Loader} {path : List Identity} {n : Identity}

/-! ## The stack is restored -/

/-- What is on the stack stays there. -/
def stacked (stack : List Identity) : Contract Working where
  Inv s := s.stack = stack
  Grows _ _ := True
  refl _ := trivial
  trans _ _ := trivial

/-- **Every call leaves the stack as it found it**, however it ends. -/
theorem stack_run (l : Loader) (limit : Nat) (n : Identity) (s : Working) :
    (l.run limit n s).2.stack = s.stack := by
  induction limit generalizing n s with
  | zero => rfl
  | succ limit ih =>
      have hlink : ∀ bytes origin (t : Working),
          (materialise (fun m => l.run limit m) (fun s => l.nextHandle s.registry) n bytes origin
            t).2.stack = t.stack := by
        intro bytes origin t
        have hresolve : ∀ m, Meets (stacked t.stack) (fun _ => True) (l.run limit m) fun _ _ => True :=
          fun m s hs _ => ⟨(ih m s).trans hs, trivial, fun _ _ => trivial⟩
        exact (meets_materialise hresolve (fun _ _ _ _ _ _ _ h => h)
          (fun s => l.nextHandle s.registry) n bytes origin t rfl trivial).1
      unfold run
      split
      · rfl
      · split
        · rfl
        · split
          · rfl
          · split
            · rfl
            · rfl
            · next found lookups hscan =>
              have hstack := hlink found.bytes (.container found.root)
                ((s.remember (s.registry.countScan lookups)).push n)
              split <;>
                · next hlinked =>
                  rw [hlinked] at hstack
                  exact Working.stack_of_pop hstack

/-! ## The limit is not reached -/

/-- **The stack of a call is its path**, and a limit of one call for each resource and one more is not
reached. -/
theorem run_eq (hsteady : l.Steady) {limit : Nat} (htrail : l.Trail path n)
    (hlimit : l.resourceNames.ncard < limit + path.length) (r : Registry) :
    l.run limit n ⟨r, path, false⟩ =
      ((l.resolveAt path n r).1, ⟨(l.resolveAt path n r).2, path, false⟩) := by
  induction limit generalizing path n r with
  | zero =>
      have hlength := htrail.length_le hsteady
      omega
  | succ limit ih =>
      have hcarried : ∀ {found lookups}, n ∉ path →
          l.scanFor n r.counters.lookups = (.ok (some found), lookups) →
          materialise (fun m => l.run limit m) (fun s => l.nextHandle s.registry) n found.bytes
              (.container found.root) ⟨r.countScan lookups, path ++ [n], false⟩ =
            ((l.linkFound path n found (r.countScan lookups)).1,
              ⟨(l.linkFound path n found (r.countScan lookups)).2, path ++ [n], false⟩) := by
        intro found lookups hn hscan
        refine materialise_carried (f := fun m => l.resolveAt (path ++ [n]) m)
          (fun r : Registry => (⟨r, path ++ [n], false⟩ : Working)) l.nextHandle
          (fun s => l.nextHandle s.registry) (fun _ => rfl) (fun m hm r => ?_) (r.countScan lookups)
        refine ih (htrail.extend hn (refers_of_found (hsteady.scanFor_eq hscan) hm)) ?_ r
        rw [List.length_append, List.length_singleton]
        omega
      have hstep := l.resolveAt_step path n r
      generalize l.resolveAt path n r = result at hstep ⊢
      unfold run
      cases hstep with
      | registered hu => simp only [hu, Working.remember]
      | delegated hfree hn => simp only [hfree, hn, if_true, Working.remember]
      | loop hopen hn => simp only [hopen.1, hopen.2, hn, if_true, if_false]
      | unreadable hopen hn hscan =>
          simp only [hopen.1, hopen.2, hn, if_false, hscan, Working.remember]
      | absent hopen hn hscan =>
          simp only [hopen.1, hopen.2, hn, if_false, hscan, Working.remember]
      | @broken found lookups e r' hopen hn hscan hlink =>
          have hlinked := hcarried hn hscan
          rw [hlink] at hlinked
          simp only [hopen.1, hopen.2, hn, if_false, hscan, Working.remember, Working.push, hlinked,
            Working.pop, List.dropLast_concat]
      | @linked found lookups u r' hopen hn hscan hlink =>
          have hlinked := hcarried hn hscan
          rw [hlink] at hlinked
          simp only [hopen.1, hopen.2, hn, if_false, hscan, Working.remember, Working.push, hlinked,
            Working.pop, List.dropLast_concat]

/-- A request from outside comes to the same with one stack, whatever was left on it. -/
theorem request_eq (hsteady : l.Steady) {limit : Nat} (hlimit : l.resourceNames.ncard + 1 ≤ limit)
    (n : Identity) (r : Registry) (stack : List Identity) :
    l.request limit n ⟨r, stack, false⟩ = ((l.resolve n r).1, ⟨(l.resolve n r).2, [], false⟩) :=
  run_eq hsteady (l.trail_nil n) (Nat.lt_of_succ_le hlimit) r

end Loader

end LiveUnits
