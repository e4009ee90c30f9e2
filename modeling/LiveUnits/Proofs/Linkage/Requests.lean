import LiveUnits.Proofs.Linkage.Materialise

/-!
# What linking asks for

Linking a unit asks for the names that its bytes refer to, one after the other, until one of them
cannot be resolved.  `Linkage.asked` is the record of these requests, taken by resolving through a
function that writes down what it is asked (`Linkage.recording`).  It is what going down the list of
referenced names gives (`Linkage.asked_eq`), and the state in which linking ends is the one in which
that list ends (`Linkage.state_materialise`).
-/

namespace LiveUnits

namespace Linkage

open Attempt

variable {σ : Type} {f : Resolving σ}

/-! ## Going down a list of names -/

/-- The requests for names, one after the other, each with the state in which it is made.  They end with
the first one that fails. -/
def requests (f : Resolving σ) : List Identity → σ → List (Identity × σ)
  | [], _ => []
  | n :: rest, s =>
    (n, s) :: match f n s with
      | (.ok _, s') => requests f rest s'
      | (.error _, _) => []

/-- The state after requests for names, one after the other, up to the first one that fails. -/
def stateAfter (f : Resolving σ) : List Identity → σ → σ
  | [], s => s
  | n :: rest, s =>
    match f n s with
    | (.ok _, s') => stateAfter f rest s'
    | (.error _, s') => s'

/-- If no request leads from a state without `P` to one with it, a list of requests does not either. -/
theorem of_stateAfter {P : σ → Prop} (hback : ∀ n s, P (f n s).2 → P s) {names : List Identity} {s : σ}
    (h : P (stateAfter f names s)) : P s := by
  induction names generalizing s with
  | nil => exact h
  | cons n rest ih =>
      refine hback n s ?_
      unfold stateAfter at h
      cases hstep : f n s with
      | mk outcome s' =>
          rw [hstep] at h
          cases outcome with
          | error e => exact h
          | ok u => exact ih h

/-- What every request keeps true holds after requests. -/
theorem stateAfter_keeps {I : σ → Prop} (h : ∀ n s, I s → I (f n s).2) (names : List Identity) {s : σ}
    (hs : I s) : I (stateAfter f names s) := by
  induction names generalizing s with
  | nil => exact hs
  | cons n rest ih =>
      have hn := h n s hs
      unfold stateAfter
      cases hstep : f n s with
      | mk outcome s' =>
          rw [hstep] at hn
          cases outcome with
          | error e => exact hn
          | ok u => exact ih hn

/-- What every request keeps true holds whenever a request is made. -/
theorem of_mem_requests {I : σ → Prop} (h : ∀ n s, I s → I (f n s).2) {names : List Identity} {s : σ}
    (hs : I s) {p : Identity × σ} (hp : p ∈ requests f names s) : I p.2 := by
  induction names generalizing s with
  | nil => cases hp
  | cons n rest ih =>
      have hn := h n s hs
      unfold requests at hp
      rcases List.mem_cons.mp hp with rfl | hp
      · exact hs
      · cases hstep : f n s with
        | mk outcome s' =>
            rw [hstep] at hn hp
            cases outcome with
            | error e => cases hp
            | ok u => exact ih hn hp

/-- Following a reference leaves the state that resolving it does. -/
theorem state_follow (f : Resolving σ) (n : Identity) (wrap : ResolveError → LinkageError) (s : σ) :
    (follow f n wrap s).2 = (f n s).2 := by
  unfold follow
  cases f n s with
  | mk outcome s' => cases outcome <;> rfl

/-- The dependencies leave the state after all their requests. -/
theorem state_dependencies (f : Resolving σ) (name : Identity) (names : List Identity) (s : σ) :
    (dependencies f name names s).2 = stateAfter f names s := by
  induction names generalizing s with
  | nil => rfl
  | cons n rest ih =>
      unfold dependencies stateAfter
      rw [bind_run, follow]
      cases hn : f n s with
      | mk outcome s' =>
          cases outcome with
          | error e => rfl
          | ok u =>
              simp only [bind_run]
              rw [← ih s']
              cases dependencies f name rest s' with
              | mk others s'' => cases others <;> rfl

/-- What linking does after the supertype has been resolved. -/
theorem state_afterSupertype (f : Resolving σ) (handle : σ → Handle) (name : Identity) (d : Declared)
    (origin : Origin) (above : Option LinkedUnit) (s : σ) :
    ((do
      let names ← lift (moduleIdentities name (moduleNames d.interface))
      let units ← dependencies f name names
      lift (d.interface.imports.forM (checkImport name units))
      let s ← get
      pure ⟨handle s, name, d.interface, d.metadata.markers, origin, above, units⟩ :
        Attempt σ LinkageError LinkedUnit) s).2 =
      stateAfter f (match moduleIdentities name (moduleNames d.interface) with
        | .ok names => names
        | .error _ => []) s := by
  rw [bind_run, lift]
  cases moduleIdentities name (moduleNames d.interface) with
  | error e => rfl
  | ok names =>
      simp only [bind_run]
      rw [← state_dependencies f name names s]
      cases dependencies f name names s with
      | mk outcome s' =>
          cases outcome with
          | error e => rfl
          | ok units =>
              simp only [lift]
              cases d.interface.imports.forM (checkImport name units) <;> rfl

/-- **Linking changes the state only through the requests** for the names that the bytes refer to. -/
theorem state_materialise (f : Resolving σ) (handle : σ → Handle) (name : Identity) (bytes : Bytes)
    (origin : Origin) (s : σ) :
    (materialise f handle name bytes origin s).2 = stateAfter f (referenced name bytes) s := by
  unfold materialise referenced
  rw [bind_run, lift]
  cases declared name bytes with
  | error e => rfl
  | ok d =>
      change Prod.snd ((supertype f name d.metadata.supertype >>= _) s) =
        stateAfter f (d.metadata.supertype.toList ++ _) s
      rw [bind_run]
      cases d.metadata.supertype with
      | none => exact state_afterSupertype f handle name d origin none s
      | some n =>
          rw [supertype, bind_run, follow, Option.toList_some, List.singleton_append, stateAfter]
          cases f n s with
          | mk outcome s' =>
              cases outcome with
              | error e => rfl
              | ok u => exact state_afterSupertype f handle name d origin (some u) s'

/-! ## The record -/

/-- Resolving that writes down what it is asked, each name with the state in which it is asked for. -/
def recording (f : Resolving σ) : Resolving (σ × List (Identity × σ)) := fun n (s, record) =>
  ((f n s).1, ((f n s).2, record ++ [(n, s)]))

/-- What linking the bytes of a unit asks for, in order. -/
def asked (f : Resolving σ) (handle : σ → Handle) (name : Identity) (bytes : Bytes) (origin : Origin)
    (s : σ) : List (Identity × σ) :=
  (materialise (recording f) (fun t => handle t.1) name bytes origin (s, [])).2.2

/-- Recording the requests makes no difference to them. -/
theorem stateAfter_recording (f : Resolving σ) (names : List Identity) (s : σ)
    (record : List (Identity × σ)) :
    stateAfter (recording f) names (s, record) =
      (stateAfter f names s, record ++ requests f names s) := by
  induction names generalizing s record with
  | nil => simp [stateAfter, requests]
  | cons n rest ih =>
      simp only [stateAfter, requests, recording]
      cases f n s with
      | mk outcome s' =>
          cases outcome with
          | error e => rfl
          | ok u => simp only [ih, List.append_assoc, List.singleton_append]

/-- **Linking asks for the names that the bytes refer to**, up to the first one that fails. -/
theorem asked_eq (f : Resolving σ) (handle : σ → Handle) (name : Identity) (bytes : Bytes)
    (origin : Origin) (s : σ) :
    asked f handle name bytes origin s = requests f (referenced name bytes) s := by
  unfold asked
  rw [state_materialise, stateAfter_recording, List.nil_append]

end Linkage

end LiveUnits
