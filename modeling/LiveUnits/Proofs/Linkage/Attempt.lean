import LiveUnits.Linkage.Materialise

/-!
# Reasoning about attempts

An attempt changes a state and may fail without undoing that, so what it promises has to hold after
failures as well.  There are two kinds of promises.

* `Attempt.Meets`: the invariant of a contract is kept, the state only grows, and a value that is
  returned satisfies a postcondition.
* `Attempt.Alike`: two attempts on different states, started in related states, end in related
  states, with related values or with the same error.  `Attempt.AlikeWhile` promises this only for
  attempts that end in a state of some kind.

All are closed under sequencing (`Meets.bind`, `Alike.bind`, `AlikeWhile.bind`), which is all that the
proofs about linking need.
-/

namespace LiveUnits

variable {σ τ ε α β γ δ : Type}

/-- Two outcomes agree: related values, or the same error. -/
inductive Agree (V : α → β → Prop) : Except ε α → Except ε β → Prop
  | ok {a : α} {b : β} (h : V a b) : Agree V (.ok a) (.ok b)
  | error (e : ε) : Agree V (.error e) (.error e)

/-- Values that are related if their images are equal agree exactly if the images of the outcomes
are equal. -/
theorem agree_iff_map_eq {f : α → γ} {g : β → γ} {x : Except ε α} {y : Except ε β} :
    Agree (fun a b => f a = g b) x y ↔ x.map f = y.map g := by
  constructor
  · intro h
    cases h with
    | ok h => exact congrArg Except.ok h
    | error e => rfl
  · intro h
    cases x with
    | ok a =>
        cases y with
        | ok b => exact .ok (Except.ok.inj h)
        | error e => cases h
    | error e =>
        cases y with
        | ok b => cases h
        | error e' =>
            cases h
            exact .error e

/-- Outcomes agree if the first parts agree and values go on to agree. -/
theorem Agree.bind {V : α → β → Prop} {W : γ → δ → Prop} {x : Except ε α} {y : Except ε β}
    {f : α → Except ε γ} {g : β → Except ε δ} (h : Agree V x y) (hfg : ∀ a b, V a b → Agree W (f a) (g b)) :
    Agree W (x >>= f) (y >>= g) := by
  cases h with
  | ok hab => exact hfg _ _ hab
  | error e => exact .error e

namespace Attempt

/-! ## Running -/

/-- A failure ends a sequence, and the state stays as the failure left it. -/
theorem bind_run (x : Attempt σ ε α) (f : α → Attempt σ ε β) (s : σ) :
    (x >>= f) s = match x s with
      | (.ok a, s') => f a s'
      | (.error e, s') => (.error e, s') := by
  show ExceptT.bindCont f (x s).1 (x s).2 = _
  cases h : x s with
  | mk outcome s' => cases outcome <;> rfl

/-- A sequence that returns a value went through a value in between. -/
theorem ok_of_bind {x : Attempt σ ε α} {f : α → Attempt σ ε β} {s s'' : σ} {b : β}
    (h : (x >>= f) s = (.ok b, s'')) : ∃ a s', x s = (.ok a, s') ∧ f a s' = (.ok b, s'') := by
  rw [bind_run] at h
  cases hx : x s with
  | mk outcome s' =>
      rw [hx] at h
      cases outcome with
      | ok a => exact ⟨a, s', rfl, h⟩
      | error e => cases h

/-- A sequence that fails did so at once, or after its first part returned a value. -/
theorem error_of_bind {x : Attempt σ ε α} {f : α → Attempt σ ε β} {s s'' : σ} {e : ε}
    (h : (x >>= f) s = (.error e, s'')) :
    x s = (.error e, s'') ∨ ∃ a s', x s = (.ok a, s') ∧ f a s' = (.error e, s'') := by
  rw [bind_run] at h
  cases hx : x s with
  | mk outcome s' =>
      rw [hx] at h
      cases outcome with
      | ok a => exact .inr ⟨a, s', rfl, h⟩
      | error e' =>
          obtain ⟨herror, rfl⟩ := Prod.mk.inj h
          obtain rfl := Except.error.inj herror
          exact .inl rfl

/-! ## Contracts -/

/-- What attempts on a state promise each other: an invariant, and how the state may grow. -/
structure Contract (σ : Type) where
  /-- What holds of every state. -/
  Inv : σ → Prop
  /-- How a state may change. -/
  Grows : σ → σ → Prop
  /-- Nothing has to change. -/
  refl : ∀ s, Grows s s
  /-- Changes add up. -/
  trans : ∀ {s t u}, Grows s t → Grows t u → Grows s u

variable {C : Contract σ} {P P' : σ → Prop} {Q : α → σ → Prop} {Q' : β → σ → Prop}

/-- An attempt keeps a contract, and a value it returns satisfies `Q` if the state satisfied `P`
before. -/
def Meets (C : Contract σ) (P : σ → Prop) (x : Attempt σ ε α) (Q : α → σ → Prop) : Prop :=
  ∀ s, C.Inv s → P s →
    C.Inv (x s).2 ∧ C.Grows s (x s).2 ∧ ∀ a, (x s).1 = .ok a → Q a (x s).2

/-- Whether a property of states outlives growth. -/
def Lasting (C : Contract σ) (P : σ → Prop) : Prop :=
  ∀ s t, C.Inv s → C.Inv t → C.Grows s t → P s → P t

theorem Meets.pure {a : α} (h : ∀ s, C.Inv s → P s → Q a s) :
    Meets C P (Pure.pure a : Attempt σ ε α) Q := by
  intro s hs hp
  refine ⟨hs, C.refl s, ?_⟩
  intro b hb
  obtain rfl := Except.ok.inj hb
  exact h s hs hp

/-- One attempt after the other meets what the second one makes of what the first one leaves. -/
theorem Meets.bind {x : Attempt σ ε α} {f : α → Attempt σ ε β} (hx : Meets C P x Q)
    (hf : ∀ a, Meets C (Q a) (f a) Q') : Meets C P (x >>= f) Q' := by
  intro s hs hp
  obtain ⟨hinv, hgrows, hq⟩ := hx s hs hp
  rw [bind_run]
  cases h : x s with
  | mk outcome s' =>
      rw [h] at hinv hgrows hq
      cases outcome with
      | error e => exact ⟨hinv, hgrows, fun b hb => by cases hb⟩
      | ok a =>
          obtain ⟨hinv', hgrows', hq'⟩ := hf a s' hinv (hq a rfl)
          exact ⟨hinv', C.trans hgrows hgrows', hq'⟩

/-- What outlives growth holds after an attempt if it held before. -/
theorem Meets.frame {x : Attempt σ ε α} (hx : Meets C P x Q) (hlast : Lasting C P') :
    Meets C (fun s => P s ∧ P' s) x (fun a s => Q a s ∧ P' s) := by
  intro s hs hp
  obtain ⟨hinv, hgrows, hq⟩ := hx s hs hp.1
  exact ⟨hinv, hgrows, fun a ha => ⟨hq a ha, hlast s _ hs hinv hgrows hp.2⟩⟩

/-- More may be assumed of an attempt, and less concluded. -/
theorem Meets.weaken {x : Attempt σ ε α} {R : α → σ → Prop} (hx : Meets C P x Q)
    (hpre : ∀ s, C.Inv s → P' s → P s) (hpost : ∀ a s, C.Inv s → Q a s → R a s) :
    Meets C P' x R := by
  intro s hs hp
  obtain ⟨hinv, hgrows, hq⟩ := hx s hs (hpre s hs hp)
  exact ⟨hinv, hgrows, fun a ha => hpost a _ hinv (hq a ha)⟩

/-! ## Attempts that run alike -/

variable {I : σ → τ → Prop} {V : α → β → Prop} {W : γ → δ → Prop}

/-- Two attempts, started in related states, end in related states with outcomes that agree. -/
def Alike (I : σ → τ → Prop) (V : α → β → Prop) (x : Attempt σ ε α) (y : Attempt τ ε β) : Prop :=
  ∀ s t, I s t → I (x s).2 (y t).2 ∧ Agree V (x s).1 (y t).1

/-- Two attempts run alike if the first one ends in a state of which `P` holds. -/
def AlikeWhile (P : σ → Prop) (I : σ → τ → Prop) (V : α → β → Prop) (x : Attempt σ ε α)
    (y : Attempt τ ε β) : Prop :=
  ∀ s t, I s t → P (x s).2 → I (x s).2 (y t).2 ∧ Agree V (x s).1 (y t).1

/-- Attempts are alike if they are while anything holds. -/
theorem alike_iff {x : Attempt σ ε α} {y : Attempt τ ε β} :
    Alike I V x y ↔ AlikeWhile (fun _ => True) I V x y :=
  ⟨fun h s t hst _ => h s t hst, fun h s t hst => h s t hst trivial⟩

variable {P : σ → Prop}

theorem AlikeWhile.pure {a : α} {b : β} (h : V a b) :
    AlikeWhile P I V (Pure.pure a : Attempt σ ε α) (Pure.pure b : Attempt τ ε β) :=
  fun _ _ hst _ => ⟨hst, .ok h⟩

/-- Sequences run alike if their parts do.  The state in between is of the kind that is needed if no
other state can lead to one of that kind. -/
theorem AlikeWhile.bind {x : Attempt σ ε α} {y : Attempt τ ε β} {f : α → Attempt σ ε γ}
    {g : β → Attempt τ ε δ} (hxy : AlikeWhile P I V x y) (hback : ∀ a s, P (f a s).2 → P s)
    (hfg : ∀ a b, V a b → AlikeWhile P I W (f a) (g b)) : AlikeWhile P I W (x >>= f) (y >>= g) := by
  intro s t hst hend
  have hrun := hxy s t hst
  rw [bind_run] at hend ⊢
  rw [bind_run]
  cases hx : x s with
  | mk xo s' =>
      cases hy : y t with
      | mk yo t' =>
          rw [hx] at hend
          rw [hx, hy] at hrun
          cases xo with
          | error e =>
              obtain ⟨hI, hV⟩ := hrun hend
              cases hV with
              | error => exact ⟨hI, .error e⟩
          | ok a =>
              obtain ⟨hI, hV⟩ := hrun (hback a s' hend)
              cases hV with
              | ok h => exact hfg _ _ h s' t' hI hend

theorem Alike.pure {a : α} {b : β} (h : V a b) :
    Alike I V (Pure.pure a : Attempt σ ε α) (Pure.pure b : Attempt τ ε β) :=
  alike_iff.mpr (AlikeWhile.pure h)

/-- Attempts are alike if their parts are. -/
theorem Alike.bind {x : Attempt σ ε α} {y : Attempt τ ε β} {f : α → Attempt σ ε γ}
    {g : β → Attempt τ ε δ} (hxy : Alike I V x y) (hfg : ∀ a b, V a b → Alike I W (f a) (g b)) :
    Alike I W (x >>= f) (y >>= g) :=
  alike_iff.mpr (AlikeWhile.bind (alike_iff.mp hxy) (fun _ _ _ => trivial) fun a b hab =>
    alike_iff.mp (hfg a b hab))

end Attempt

end LiveUnits
