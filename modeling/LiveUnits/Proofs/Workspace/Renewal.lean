import LiveUnits.Proofs.Workspace.Soundness

/-!
# A workspace like new

When nothing is published and nobody holds the build lock, what a workspace went through shows only in
the numbers of its next builds.  Whatever its threads can do from here on, the same threads can do with
a workspace that was just made, and the other way round, with all numbers moved by the number of builds
so far (`System.Sound.likeNew`).  The two workspaces differ in the generations that are retired already
and in whether the lock is poisoned; neither makes a difference.
-/

namespace LiveUnits

namespace Workspace

/-- The workspace as it was made. -/
def fresh (w : Workspace) : Workspace :=
  { host := w.host, settings := w.settings, sourceRoot := w.sourceRoot, outputRoot := w.outputRoot }

/-! ## Moved numbers -/

/-- A phase with moved numbers. -/
def Phase.shift (k : Nat) : Phase → Phase
  | taken job n => .taken job (n + k)
  | building n => .building (n + k)
  | built n => .built (n + k)
  | φ => φ

/-- An action with moved numbers. -/
def Action.shift (k : Nat) : Action → Action
  | look answer => .look (answer.map (· + k))
  | take previous => .take (previous.map (· + k))
  | retire n => .retire (n + k)
  | issue n => .issue (n + k)
  | finish n outcome => .finish (n + k) outcome
  | publish n => .publish (n + k)
  | a => a

/-- A trace with moved numbers. -/
def Trace.shift {ι : Type} (k : Nat) (t : Trace ι) : Trace ι := t.map fun e => (e.1, e.2.shift k)

/-- A workspace was made like another one and is where that one is, with all numbers moved.  Nothing is
said about the generations that were retired before. -/
structure Mirrors (k : Nat) (w₀ w : Workspace) : Prop where
  fresh : w.fresh = w₀.fresh
  next : w.nextNumber = w₀.nextNumber + k
  busy : w.busy = w₀.busy
  published : w.published = w₀.published.map (· + k)
  retired : ∀ n, 0 < n → (n + k ∈ w.retired ↔ n ∈ w₀.retired)

variable {k : Nat}

/-- What is current is the same but for the shift. -/
theorem Mirrors.current {w₀ w : Workspace} (h : Mirrors k w₀ w)
    (hpos : ∀ n, w₀.published = some n → 0 < n) : w.current = w₀.current.map (· + k) := by
  unfold Workspace.current isRetired
  rw [h.published]
  cases hn : w₀.published with
  | none => rfl
  | some n =>
      have hretired := h.retired n (hpos n hn)
      by_cases hmem : n ∈ w₀.retired
      · simp [Option.filter, hmem, hretired.mpr hmem]
      · simp [Option.filter, hmem, mt hretired.mp hmem]

/-- The next phase of a job has no number in it. -/
theorem Phase.shift_next (job : Job) : job.next.shift k = job.next := by cases job <;> rfl

/-- What comes after a build has the shifted number. -/
theorem Phase.shift_after (n : Nat) (outcome : Except Halt Unit) :
    (Phase.after n outcome).shift k = .after (n + k) outcome := by
  cases outcome <;> rfl

/-- No number is in a phase outside the lock. -/
theorem Phase.shift_of_outside {φ : Phase} (h : φ.inside = false) : φ.shift k = φ := by
  cases φ with
  | idle => rfl
  | called r => rfl
  | _ => cases h

/-- What can be done in a workspace can be done in one that mirrors it. -/
theorem Move.shift {φ φ' : Phase} {m₀ m₀' m : Shared} {a : Action} (h : Move φ m₀ a φ' m₀')
    (hmirrors : Mirrors k m₀.workspace m.workspace)
    (hpos : ∀ n, m₀.workspace.published = some n → 0 < n) :
    ∃ m', Move (φ.shift k) m (a.shift k) (φ'.shift k) m' ∧ Mirrors k m₀'.workspace m'.workspace := by
  cases h with
  | call r => exact ⟨m, .call r, hmirrors⟩
  | look =>
      refine ⟨m, ?_, hmirrors⟩
      rw [Action.shift, ← hmirrors.current hpos]
      exact .look
  | refuse hbusy => exact ⟨m, .refuse (hmirrors.busy.trans hbusy), hmirrors⟩
  | lock hjob hbusy =>
      exact ⟨_, .lock hjob (hmirrors.busy.trans hbusy), hmirrors.fresh, hmirrors.next, rfl,
        hmirrors.published, hmirrors.retired⟩
  | take hn =>
      have hpublished := hmirrors.published
      rw [hn] at hpublished
      exact ⟨_, .take hpublished, hmirrors.fresh, hmirrors.next, hmirrors.busy, rfl, hmirrors.retired⟩
  | takeNone hn =>
      have hpublished := hmirrors.published
      rw [hn] at hpublished
      rw [Phase.shift_next]
      exact ⟨_, .takeNone hpublished, hmirrors.fresh, hmirrors.next, hmirrors.busy, rfl,
        hmirrors.retired⟩
  | @retire _ job n =>
      rw [Phase.shift_next]
      refine ⟨_, .retire, hmirrors.fresh, hmirrors.next, hmirrors.busy, hmirrors.published,
        fun l hl => ?_⟩
      have hold := hmirrors.retired l hl
      show l + k ∈ (n + k) :: m.workspace.retired ↔ l ∈ n :: m₀.workspace.retired
      rw [List.mem_cons, List.mem_cons, hold, Nat.add_right_cancel_iff]
  | issue =>
      have hnext : m.workspace.issue.1 = m₀.workspace.issue.1 + k := hmirrors.next
      have hmove : Move .withdrawn m (.issue m.workspace.issue.1) (.building m.workspace.issue.1)
          (m.map (·.issue.2)) := .issue
      rw [hnext] at hmove
      refine ⟨_, hmove, hmirrors.fresh, ?_, hmirrors.busy, hmirrors.published, hmirrors.retired⟩
      show m.workspace.nextNumber + 1 = m₀.workspace.nextNumber + 1 + k
      rw [hmirrors.next]
      omega
  | finish outcome =>
      rw [Phase.shift_after]
      exact ⟨m, .finish outcome, hmirrors⟩
  | publish =>
      exact ⟨_, .publish, hmirrors.fresh, hmirrors.next, hmirrors.busy, rfl, hmirrors.retired⟩
  | unlock =>
      exact ⟨_, .unlock, hmirrors.fresh, hmirrors.next, rfl, hmirrors.published, hmirrors.retired⟩

/-- An action leaves no choice of what comes of it. -/
theorem Move.unique {φ φ₁ φ₂ : Phase} {m m₁ m₂ : Shared} {a : Action} (h₁ : Move φ m a φ₁ m₁)
    (h₂ : Move φ m a φ₂ m₂) : φ₁ = φ₂ ∧ m₁ = m₂ := by
  cases h₁ with
  | lock hjob _ =>
      cases h₂ with
      | lock hjob' _ =>
          obtain rfl := Option.some.inj (hjob.symm.trans hjob')
          exact ⟨rfl, rfl⟩
  | _ =>
      cases h₂
      exact ⟨rfl, rfl⟩

/-- An action in a workspace that mirrors another one can be taken in that one. -/
theorem Move.exists_of_shift {φ ψ : Phase} {m₀ m m' : Shared} {b : Action}
    (h : Move (φ.shift k) m b ψ m') (hmirrors : Mirrors k m₀.workspace m.workspace)
    (hpos : ∀ n, m₀.workspace.published = some n → 0 < n) :
    ∃ a φ' m₀', b = a.shift k ∧ Move φ m₀ a φ' m₀' := by
  cases φ with
  | idle =>
      cases h with
      | call r => exact ⟨_, _, _, rfl, .call r⟩
  | called r =>
      cases h with
      | look =>
          rw [hmirrors.current hpos]
          exact ⟨_, _, _, rfl, .look⟩
      | refuse hbusy => exact ⟨_, _, _, rfl, .refuse (hmirrors.busy.symm.trans hbusy)⟩
      | lock hjob hbusy => exact ⟨.lock, _, _, rfl, .lock hjob (hmirrors.busy.symm.trans hbusy)⟩
  | entered job =>
      cases h with
      | take hn =>
          obtain ⟨n₀, hn₀, rfl⟩ := Option.map_eq_some_iff.mp (hmirrors.published.symm.trans hn)
          exact ⟨.take (some n₀), _, _, rfl, .take hn₀⟩
      | takeNone hn =>
          have hn₀ := Option.map_eq_none_iff.mp (hmirrors.published.symm.trans hn)
          exact ⟨.take none, _, _, rfl, .takeNone hn₀⟩
  | taken job n =>
      cases h with
      | retire => exact ⟨_, _, _, rfl, .retire⟩
  | withdrawn =>
      cases h with
      | issue =>
          exact ⟨.issue m₀.workspace.issue.1, _, _, congrArg Action.issue hmirrors.next, .issue⟩
  | building n =>
      cases h with
      | finish outcome => exact ⟨_, _, _, rfl, .finish outcome⟩
  | built n =>
      cases h with
      | publish => exact ⟨_, _, _, rfl, .publish⟩
  | leaving panicked =>
      cases h with
      | unlock => exact ⟨_, _, _, rfl, .unlock⟩

namespace System

variable {ι : Type}

/-- The same for workspaces together with their threads. -/
structure Mirrors (k : Nat) (s₀ s : System ι) : Prop where
  workspace : Workspace.Mirrors k s₀.workspace s.workspace
  phase : s.phase = fun i => (s₀.phase i).shift k

variable {s₀ s₀' s s' : System ι} {t u : Trace ι}

/-- A stored generation has a positive number. -/
theorem Sound.pos (h : s.Sound t) : ∀ n, s.workspace.published = some n → 0 < n := by
  obtain ⟨φ, -, hfits⟩ := h
  exact fun n hn => (hfits.of_published (hfits.stored n hn)).1

variable [DecidableEq ι]

theorem phase_update (s₀ : System ι) (i : ι) (φ : Phase) :
    (fun j => (Function.update s₀.phase i φ j).shift k) =
      Function.update (fun j => (s₀.phase j).shift k) i (φ.shift k) :=
  funext fun _ => Function.apply_update (fun _ => Phase.shift k) s₀.phase i φ _

/-- A step of a system is a step of its mirror image. -/
theorem Mirrors.step (h : Mirrors k s₀ s) (hsound : s₀.Sound t) {e : ι × Action} (hstep : s₀.Step e s₀') :
    ∃ s', s.Step (e.1, e.2.shift k) s' ∧ Mirrors k s₀' s' := by
  cases hstep with
  | @move i a before after m hphase hmove =>
      obtain ⟨m', hmove', hmirrors⟩ := hmove.shift h.workspace hsound.pos
      have hphase' : s.phase i = before.shift k := by rw [← hphase, h.phase]
      refine ⟨_, .move hphase' hmove', hmirrors, ?_⟩
      rw [phase_update, ← h.phase]

/-- A step of the mirror image is one of the system. -/
theorem Mirrors.of_step (h : Mirrors k s₀ s) (hsound : s₀.Sound t) {e : ι × Action} (hstep : s.Step e s') :
    ∃ a s₀', e = (e.1, a.shift k) ∧ s₀.Step (e.1, a) s₀' ∧ Mirrors k s₀' s' := by
  cases hstep with
  | @move i b before after m hphase hmove =>
      rw [h.phase] at hphase
      subst hphase
      obtain ⟨a, φ', m₀', rfl, hmove₀⟩ := hmove.exists_of_shift h.workspace hsound.pos
      obtain ⟨m', hmove', hmirrors⟩ := hmove₀.shift h.workspace hsound.pos
      obtain ⟨rfl, rfl⟩ := hmove.unique hmove'
      refine ⟨a, _, rfl, .move rfl hmove₀, hmirrors, ?_⟩
      rw [phase_update, ← h.phase]

/-- What happens to a workspace can happen to one that mirrors it. -/
theorem Mirrors.run (h : Mirrors k s₀ s) (hsound : s₀.Sound t) (hrun : s₀.Run u s₀') :
    ∃ s', s.Run (u.shift k) s' ∧ Mirrors k s₀' s' := by
  induction hrun generalizing s t with
  | nil => exact ⟨s, .nil, h⟩
  | cons first _ ih =>
      obtain ⟨s₁, hstep, hmirrors⟩ := h.step hsound first
      obtain ⟨s', hrest, hend⟩ := ih hmirrors (hsound.step first)
      exact ⟨s', .cons hstep hrest, hend⟩

/-- What happens to a workspace that mirrors another one can happen to that one. -/
theorem Mirrors.of_run (h : Mirrors k s₀ s) (hsound : s₀.Sound t) (hrun : s.Run u s') :
    ∃ v s₀', u = v.shift k ∧ s₀.Run v s₀' ∧ Mirrors k s₀' s' := by
  induction hrun generalizing s₀ t with
  | nil => exact ⟨[], s₀, rfl, .nil, h⟩
  | @cons s s₁ s' e u first _ ih =>
      obtain ⟨a, s₁₀, he, hstep, hmirrors⟩ := h.of_step hsound first
      obtain ⟨v, s₀', rfl, hrest, hend⟩ := ih hmirrors (hsound.step hstep)
      refine ⟨(e.1, a) :: v, s₀', ?_, .cons hstep hrest, hend⟩
      rw [he]
      rfl

/-- The same threads with a workspace that was just made. -/
def afresh (s : System ι) : System ι := { workspace := s.workspace.fresh, phase := s.phase }

/-- Nothing tells a workspace from one that was just made, apart from the numbers. -/
structure LikeNew (s : System ι) (k : Nat) : Prop where
  /-- What can happen to a new workspace can happen here. -/
  able : ∀ u s₀', s.afresh.Run u s₀' → ∃ s', s.Run (u.shift k) s' ∧ Mirrors k s₀' s'
  /-- Nothing else can happen here. -/
  only : ∀ u s', s.Run u s' → ∃ v s₀', u = v.shift k ∧ s.afresh.Run v s₀' ∧ Mirrors k s₀' s'

/-- **A workspace with nothing published and a free lock is like new.** -/
theorem Sound.likeNew (h : s.Sound t) (hpublished : s.workspace.published = none)
    (hfree : s.workspace.busy = false) : s.LikeNew t.issued.length := by
  obtain ⟨φ, hholder, hfits⟩ := h
  have hidle : φ = .idle := hholder.eq_idle hfree
  subst hidle
  have hout : ∀ i, (s.phase i).inside = false := fun i => Bool.eq_false_iff.mpr fun hin => by
    rw [hholder.busy hin] at hfree
    cases hfree
  have hsound : s.afresh.Sound [] := ⟨.idle, .free rfl hout, .start rfl rfl rfl⟩
  have hmirrors : Mirrors t.issued.length s.afresh s := by
    refine ⟨⟨rfl, hfits.next.trans (Nat.add_comm _ _), hfree, hpublished, fun n hn => ?_⟩, ?_⟩
    · -- whatever is retired was built earlier
      refine ⟨fun hmem => ?_, nofun⟩
      have hle := (hfits.of_published ((hfits.retired _).mp hmem).1).2
      omega
    · exact funext fun i => (Phase.shift_of_outside (hout i)).symm
  exact ⟨fun _ _ hrun => hmirrors.run hsound hrun, fun _ _ hrun => hmirrors.of_run hsound hrun⟩

end System

end Workspace

end LiveUnits
