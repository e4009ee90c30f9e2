import Mathlib.Logic.Relation
import LiveUnits.Proofs.Linkage.Complete

/-!
# How linking fails

Linking asks for names that the bytes refer to, and for no others.  As long as it succeeds, all that it
asks for is resolved (`ok_of_mem_asked`); the first request that fails is the last one
(`stateAfter_of_error`), and its failure is blamed on the supertype or on the dependency that was asked
for, unless it is a loop, which is passed on as it is.  Everything else that linking fails for has no
cause (`blamed_or_uncaused`).
-/

namespace LiveUnits

open Attempt Relation

/-! ## Causes -/

/-- An error gives another one as the reason why a supertype or a dependency could not be resolved. -/
inductive ResolveError.CausedBy : ResolveError → ResolveError → Prop
  | supertype (name n : Identity) (cause : ResolveError) :
      CausedBy (.linkage (.unresolvedSupertype name n cause)) cause
  | dependency (name n : Identity) (cause : ResolveError) :
      CausedBy (.linkage (.unresolvedDependency name n cause)) cause

/-- No loop is among the causes of an error, the causes of these, and so on. -/
def ResolveError.Unnested (e : ResolveError) : Prop :=
  ∀ cause chain, TransGen CausedBy e cause → cause ≠ .linkage (.loopDetected chain)

/-- An error without a cause has no loop inside. -/
theorem ResolveError.unnested_of_uncaused {e : ResolveError} (h : ∀ cause, ¬ CausedBy e cause) :
    e.Unnested := by
  intro cause _ hcauses
  obtain ⟨first, hfirst, -⟩ := TransGen.head'_iff.mp hcauses
  exact absurd hfirst (h first)

namespace Linkage

variable {σ : Type} {f : Resolving σ}

/-! ## References -/

/-- What linking asks for are names that the bytes refer to. -/
theorem refersTo_of_mem_referenced {name n : Identity} {bytes : Bytes}
    (hn : n ∈ referenced name bytes) : ∃ d, declared name bytes = .ok d ∧ d.RefersTo n := by
  unfold referenced at hn
  cases hd : declared name bytes with
  | error e => simp [hd] at hn
  | ok d =>
      refine ⟨d, rfl, ?_⟩
      simp only [hd, List.mem_append, Option.mem_toList] at hn
      rcases hn with hn | hn
      · exact .inl hn
      · cases hnames : moduleIdentities name (moduleNames d.interface) with
        | error e => simp [hnames] at hn
        | ok names =>
            rw [hnames] at hn
            have hmem : n.text ∈ moduleNames d.interface := by
              rw [← text_of_moduleIdentities hnames]
              exact List.mem_map_of_mem hn
            obtain ⟨i, hi, hname⟩ := List.mem_map.mp (List.mem_eraseDups.mp hmem)
            exact .inr ⟨i, hi, hname⟩

/-- What a fully linked unit refers to is what its bytes refer to. -/
theorem FullyLinked.refersTo {d : Declared} {u v : LinkedUnit} (h : FullyLinked d u)
    (hv : v ∈ u.references) :
    d.RefersTo v.name := by
  rcases LinkedUnit.mem_references.mp hv with hv | hv
  · refine .inl ?_
    rw [← h.supertype, hv]
    rfl
  · obtain ⟨i, hi, hname⟩ := (h.modules v.name.text).mp ⟨v, hv, rfl⟩
    exact .inr ⟨i, h.interface_eq ▸ hi, hname⟩

/-! ## Requests -/

/-- Only the names are requested. -/
theorem fst_mem_of_mem_requests {names : List Identity} {s : σ}
    {p : Identity × σ} (hp : p ∈ requests f names s) : p.1 ∈ names := by
  induction names generalizing s with
  | nil => cases hp
  | cons n rest ih =>
      unfold requests at hp
      rcases List.mem_cons.mp hp with rfl | hp
      · exact List.mem_cons_self
      · cases hstep : f n s with
        | mk outcome s' =>
            rw [hstep] at hp
            cases outcome with
            | error e => cases hp
            | ok u => exact List.mem_cons_of_mem _ (ih hp)

/-- A request that fails is the last one. -/
theorem stateAfter_of_error {names : List Identity} {s : σ} {p : Identity × σ}
    (hp : p ∈ requests f names s) {e : ResolveError} (hfails : (f p.1 p.2).1 = .error e) :
    stateAfter f names s = (f p.1 p.2).2 := by
  induction names generalizing s with
  | nil => cases hp
  | cons n rest ih =>
      unfold requests at hp
      unfold stateAfter
      cases hstep : f n s with
      | mk outcome s' =>
          rw [hstep] at hp
          rcases List.mem_cons.mp hp with rfl | hp
          · rw [hstep] at hfails
            obtain rfl : outcome = .error e := hfails
            rw [hstep]
          · cases outcome with
            | error _ => cases hp
            | ok u => exact ih hp

/-- If all dependencies are there, every request for one was answered. -/
theorem ok_of_dependencies {name : Identity} {names : List Identity} {units : List LinkedUnit}
    {s s' : σ} (h : dependencies f name names s = (.ok units, s')) :
    ∀ p ∈ requests f names s, ∃ v, (f p.1 p.2).1 = .ok v := by
  induction names generalizing units s s' with
  | nil => exact fun p hp => (List.not_mem_nil hp).elim
  | cons n rest ih =>
      obtain ⟨u, t, hu, hrest⟩ := ok_of_bind h
      obtain ⟨others, t', hothers, -⟩ := ok_of_bind hrest
      have hu := ok_of_follow hu
      intro p hp
      unfold requests at hp
      rw [hu] at hp
      rcases List.mem_cons.mp hp with rfl | hp
      · exact ⟨u, by rw [hu]⟩
      · exact ih hothers p hp

/-- **Whatever linking asks for is resolved** if it succeeds. -/
theorem ok_of_mem_asked {handle : σ → Handle} {name : Identity} {bytes : Bytes} {origin : Origin}
    {u : LinkedUnit} {s s' : σ} (h : materialise f handle name bytes origin s = (.ok u, s')) :
    ∀ p ∈ asked f handle name bytes origin s, ∃ v, (f p.1 p.2).1 = .ok v := by
  obtain ⟨d, s₁, hread, h⟩ := ok_of_bind h
  obtain ⟨above, s₂, habove, h⟩ := ok_of_bind h
  obtain ⟨names, s₃, hparse, h⟩ := ok_of_bind h
  obtain ⟨units, s₄, hunits, -⟩ := ok_of_bind h
  obtain ⟨hd, rfl⟩ := lift_eq hread
  obtain ⟨hnames, rfl⟩ := lift_eq hparse
  have hdependencies := ok_of_dependencies hunits
  intro p hp
  simp only [asked_eq, referenced, hd, hnames] at hp
  cases hn : d.metadata.supertype with
  | none =>
      rw [hn] at habove hp
      cases habove
      exact hdependencies p hp
  | some n =>
      rw [hn] at habove hp
      obtain ⟨v, t, hv, hpure⟩ := ok_of_bind habove
      cases hpure
      have hv := ok_of_follow hv
      rw [Option.toList_some, List.singleton_append, requests, hv] at hp
      rcases List.mem_cons.mp hp with rfl | hp
      · exact ⟨v, by rw [hv]⟩
      · exact hdependencies p hp

/-! ## Errors -/

/-- The bytes of a unit fail to be read for two reasons. -/
theorem error_of_declared {name : Identity} {bytes : Bytes} {e : LinkageError}
    (h : declared name bytes = .error e) :
    (∃ reason, e = .malformed name reason) ∨ ∃ fault, e = .invalidMetadata name fault := by
  unfold declared at h
  cases himage : Wasm.Image.read bytes with
  | error m =>
      rw [himage] at h
      cases h
      exact .inl ⟨m, rfl⟩
  | ok image =>
      rw [himage] at h
      cases hmetadata : Metadata.read image.sections with
      | error fault =>
          simp only [Except.mapError, bind, Except.bind, hmetadata] at h
          cases fault with
          | malformed m => cases h; exact .inl ⟨m, rfl⟩
          | invalid fault => cases h; exact .inr ⟨fault, rfl⟩
      | ok metadata =>
          simp only [Except.mapError, bind, Except.bind, hmetadata] at h
          cases hinterface : image.interface with
          | error m => rw [hinterface] at h; cases h; exact .inl ⟨m, rfl⟩
          | ok interface => rw [hinterface] at h; cases h

/-- How the failure of a reference shows: as that of the supertype or as that of a dependency. -/
inductive Blamed (name n : Identity) (cause : ResolveError) : LinkageError → Prop
  | supertype : Blamed name n cause (blame (.unresolvedSupertype name n) cause)
  | dependency : Blamed name n cause (blame (.unresolvedDependency name n) cause)

/-- A failure that is not a loop is wrapped. -/
theorem blame_of_ne {wrap : ResolveError → LinkageError} {e : ResolveError}
    (h : ∀ chain, e ≠ .linkage (.loopDetected chain)) : blame wrap e = wrap e := by
  unfold blame
  split
  · next chain => exact absurd rfl (h chain)
  · rfl

/-- Only a loop shows as a loop. -/
theorem Blamed.eq_of_loop {name n : Identity} {cause : ResolveError} {chain : List Identity}
    (h : Blamed name n cause (.loopDetected chain)) : cause = .linkage (.loopDetected chain) := by
  by_cases hcause : ∃ chain', cause = .linkage (.loopDetected chain')
  · obtain ⟨chain', rfl⟩ := hcause
    cases h <;> rfl
  · have hne : ∀ chain', cause ≠ .linkage (.loopDetected chain') := fun chain' h => hcause ⟨chain', h⟩
    generalize he : LinkageError.loopDetected chain = e at h
    cases h with
    | supertype => rw [blame_of_ne hne] at he; cases he
    | dependency => rw [blame_of_ne hne] at he; cases he

/-- Blaming a reference nests no loop. -/
theorem Blamed.unnested {name n : Identity} {cause : ResolveError} {e : LinkageError}
    (h : Blamed name n cause e) (hcause : cause.Unnested) : (ResolveError.linkage e).Unnested := by
  by_cases hloop : ∃ chain, cause = .linkage (.loopDetected chain)
  · obtain ⟨chain, rfl⟩ := hloop
    have he : e = .loopDetected chain := by cases h <;> rfl
    subst he
    exact ResolveError.unnested_of_uncaused fun _ h => nomatch h
  · have hne : ∀ chain, cause ≠ .linkage (.loopDetected chain) := fun chain h => hloop ⟨chain, h⟩
    intro last chain hcauses
    obtain ⟨first, hfirst, hrest⟩ := TransGen.head'_iff.mp hcauses
    -- the only direct cause is the failure that was wrapped
    have hsame : first = cause := by
      cases h <;> rw [blame_of_ne hne] at hfirst <;> cases hfirst <;> rfl
    subst hsame
    rcases reflTransGen_iff_eq_or_transGen.mp hrest with rfl | hrest
    · exact hne chain
    · exact hcause last chain hrest

/-- Linking fails because a request failed, or with an error that has no cause and is no loop. -/
theorem blamed_or_uncaused (hf : Named f) {handle : σ → Handle}
    {name : Identity} {bytes : Bytes} {origin : Origin} {e : LinkageError} {s s' : σ}
    (h : materialise f handle name bytes origin s = (.error e, s')) :
    (∃ p ∈ asked f handle name bytes origin s, ∃ cause, (f p.1 p.2).1 = .error cause ∧
      Blamed name p.1 cause e) ∨
    (∀ cause, ¬ ResolveError.CausedBy (.linkage e) cause) ∧ ∀ chain, e ≠ .loopDetected chain := by
  cases hd : declared name bytes with
  | error e' =>
      rcases error_of_bind h with h | ⟨d, t, hread, -⟩
      · obtain rfl : e' = e := Except.error.inj (hd.symm.trans (lift_eq h).1)
        rcases error_of_declared hd with ⟨m, rfl⟩ | ⟨fault, rfl⟩
        · exact .inr ⟨fun _ h => (nomatch h), nofun⟩
        · exact .inr ⟨fun _ h => (nomatch h), nofun⟩
      · cases hd.symm.trans (lift_eq hread).1
  | ok d =>
      cases obstacle_materialise hf hd h with
      | @supertype n t cause _ hasked hfails => exact .inl ⟨(n, t), hasked, cause, hfails, .supertype⟩
      | notIdentity _ _ => exact .inr ⟨fun _ h => (nomatch h), nofun⟩
      | @dependency _ n t cause _ _ hasked hfails =>
          exact .inl ⟨(n, t), hasked, cause, hfails, .dependency⟩
      | missing _ _ _ _ _ => exact .inr ⟨fun _ h => (nomatch h), nofun⟩

end Linkage

end LiveUnits
