import Mathlib.Data.List.Range
import LiveUnits.Proofs.Workspace.Interleaving

/-!
# What holds at every moment of a workspace

At most one thread holds the build lock, and only that thread changes the workspace; so what holds at
a moment depends on what was done so far and on how far that one thread has got (`Workspace.Fits`).  The
retired generations are exactly those that were published, except the one that is stored and the one
that was taken out and is about to be retired.  `System.Sound` holds at the start, every step keeps it
(`System.Sound.step`), and so it holds at every moment (`System.Sound.run`).
-/

namespace LiveUnits

namespace Workspace

namespace Phase

/-- Whether the thread holds the build lock. -/
def inside : Phase → Bool
  | idle => false
  | called _ => false
  | _ => true

/-- Whether the thread withdrew what was published and has published nothing yet. -/
def hides : Phase → Bool
  | taken _ _ => true
  | withdrawn => true
  | building _ => true
  | built _ => true
  | _ => false

/-- The number of the build that is running. -/
def running? : Phase → Option Nat
  | building n => some n
  | _ => none

/-- The generation that was taken out and is not retired yet. -/
def pending? : Phase → Option Nat
  | taken _ n => some n
  | _ => none

end Phase

variable {ι : Type}

/-- What was done so far, the workspace, and the phase of the thread that holds the lock fit together;
the phase is `idle` if nobody holds it. -/
structure Fits (t : Trace ι) (w : Workspace) (φ : Phase) : Prop where
  /-- The numbers that were given out are consecutive. -/
  issued : t.issued = List.range' 1 t.issued.length
  next : w.nextNumber = t.issued.length + 1
  /-- Every build that got a number ended, apart from the one that is running. -/
  endings : t.issued = t.endings.map (·.1) ++ φ.running?.toList
  hidden : φ.hides = true → w.published = none
  /-- What is stored was published. -/
  stored : ∀ n, w.published = some n → n ∈ t.published
  /-- What is to be retired was published. -/
  pending : ∀ n, φ.pending? = some n → n ∈ t.published
  produced : ∀ n ∈ t.published, n ∈ t.produced
  /-- What was published is retired, apart from what is stored and what is to be retired. -/
  retired : ∀ n, n ∈ w.retired ↔ n ∈ t.published ∧ w.published ≠ some n ∧ φ.pending? ≠ some n
  /-- What is stored or to be published is the last generation that was built. -/
  latest : ∀ n, w.published = some n ∨ φ = .built n → n ∈ t.produced ∧ ∀ m ∈ t.produced, m ≤ n
  fresh : ∀ n, φ = .built n → n ∉ t.published

namespace Fits

variable {t : Trace ι} {w : Workspace} {φ : Phase}

/-- Numbers are issued in ascending order. -/
theorem pairwise_issued (h : Fits t w φ) : t.issued.Pairwise (· < ·) :=
  h.issued ▸ List.pairwise_lt_range' 1 Nat.one_pos

/-- The builds that ended have smaller numbers than the one that is running. -/
theorem lt_of_running {n : Nat} (h : Fits t w φ) (hn : φ.running? = some n) {m : Nat}
    (hm : m ∈ t.endings.map (·.1)) : m < n := by
  have hsorted := h.pairwise_issued
  rw [h.endings, hn] at hsorted
  exact (List.pairwise_append.mp hsorted).2.2 m hm n (List.mem_singleton_self n)

/-- The number of a generation that was published was given out. -/
theorem of_published (h : Fits t w φ) {n : Nat} (hn : n ∈ t.published) :
    0 < n ∧ n ≤ t.issued.length := by
  have hended := t.mem_endings_of_mem_produced (h.produced n hn)
  have hissued : n ∈ t.issued := h.endings ▸ List.mem_append_left _ hended
  rw [h.issued, List.mem_range'_1] at hissued
  omega

/-- A new workspace. -/
theorem start (hnext : w.nextNumber = 1) (hpublished : w.published = none) (hretired : w.retired = []) :
    Fits ([] : Trace ι) w .idle where
  issued := rfl
  next := hnext
  endings := rfl
  hidden := nofun
  stored := by rw [hpublished]; nofun
  pending := nofun
  produced := nofun
  retired n := by rw [hretired]; exact ⟨nofun, fun h => nomatch h.1⟩
  latest n h := by
    rw [hpublished] at h
    rcases h with h | h <;> cases h
  fresh := nofun

/-- A step of a thread that does not hold the lock, nor takes it. -/
theorem outside (h : Fits t w φ) (i : ι) {a : Action} (hissued : a.issued? = none)
    (hending : a.ending? = none) (hpublished : a.published? = none) : Fits (t ++ [(i, a)]) w φ := by
  constructor
  case issued => simpa [hissued] using h.issued
  case next => simpa [hissued] using h.next
  case endings => simpa [hissued, hending] using h.endings
  case hidden => exact h.hidden
  case stored => simpa [hpublished] using h.stored
  case pending => simpa [hpublished] using h.pending
  case produced => simpa [hpublished, hending] using h.produced
  case retired => simpa [hpublished] using h.retired
  case latest => simpa [hending] using h.latest
  case fresh => simpa [hpublished] using h.fresh

/-- A step that changes nothing of this but the phase. -/
theorem turn (h : Fits t w φ) {w' : Workspace} {φ' : Phase} (hnext : w'.nextNumber = w.nextNumber)
    (hpublished : w'.published = w.published) (hretired : w'.retired = w.retired)
    (hrunning : φ'.running? = φ.running?) (hpending : φ'.pending? = φ.pending?)
    (hhides : φ'.hides = true → w.published = none) (hbuilt : ∀ n, φ' ≠ .built n) :
    Fits t w' φ' where
  issued := h.issued
  next := hnext.trans h.next
  endings := hrunning ▸ h.endings
  hidden hφ := hpublished.trans (hhides hφ)
  stored := hpublished ▸ h.stored
  pending := hpending ▸ h.pending
  produced := h.produced
  retired := by rw [hpublished, hretired, hpending]; exact h.retired
  latest n hn := h.latest n (.inl (hpublished ▸ hn.resolve_right (hbuilt n)))
  fresh n hn := absurd hn (hbuilt n)

/-- The stored generation is taken out. -/
theorem take {job : Job} {n : Nat} (h : Fits t w (.entered job)) (hn : w.published = some n) :
    Fits t w.take.2 (.taken job n) where
  issued := h.issued
  next := h.next
  endings := h.endings
  hidden _ := rfl
  stored := nofun
  pending m hm := h.stored m (hn.trans hm)
  produced := h.produced
  retired m := by
    rw [show w.take.2.retired = w.retired from rfl, h.retired m, hn]
    exact ⟨fun ⟨hm, hne, _⟩ => ⟨hm, nofun, hne⟩, fun ⟨hm, _, hne⟩ => ⟨hm, hne, nofun⟩⟩
  latest m hm := by rcases hm with hm | hm <;> cases hm
  fresh := nofun

/-- The generation that was taken out is retired. -/
theorem retire {job : Job} {n : Nat} (h : Fits t w (.taken job n)) :
    Fits t (w.retire n) job.next where
  issued := h.issued
  next := h.next
  endings := by cases job <;> exact h.endings
  hidden _ := h.hidden rfl
  stored := h.stored
  pending := by cases job <;> nofun
  produced := h.produced
  retired m := by
    have hpending : job.next.pending? = none := by cases job <;> rfl
    have hmem := h.retired m
    rw [h.hidden rfl] at hmem
    show m ∈ n :: w.retired ↔ m ∈ t.published ∧ w.published ≠ some m ∧ job.next.pending? ≠ some m
    rw [List.mem_cons, hmem, h.hidden rfl, hpending]
    constructor
    · rintro (rfl | ⟨hm, -, -⟩)
      · exact ⟨h.pending m rfl, nofun, nofun⟩
      · exact ⟨hm, nofun, nofun⟩
    · rintro ⟨hm, -, -⟩
      by_cases hmn : m = n
      · exact .inl hmn
      · exact .inr ⟨hm, nofun, fun hsome => hmn (Option.some.inj hsome).symm⟩
  latest m hm := by
    refine h.latest m (.inl (hm.resolve_right ?_))
    cases job <;> nofun
  fresh m hm := by cases job <;> cases hm

/-- A number is given out. -/
theorem issue (h : Fits t w .withdrawn) (i : ι) :
    Fits (t ++ [(i, .issue w.nextNumber)]) w.issue.2 (.building w.nextNumber) where
  issued := by
    have hissued : Trace.issued (t ++ [(i, .issue w.nextNumber)]) = t.issued ++ [w.nextNumber] := by
      simp [Action.issued?]
    rw [hissued, List.length_append, List.length_singleton, List.range'_concat, ← h.issued, h.next]
    congr 2
    omega
  next := by simp [Workspace.issue, Action.issued?, h.next]
  endings := by
    simpa [Action.issued?, Action.ending?, Phase.running?] using h.endings
  hidden _ := h.hidden rfl
  stored := by simpa [Action.published?, Workspace.issue] using h.stored
  pending := nofun
  produced := by simpa [Action.published?, Action.ending?] using h.produced
  retired := by simpa [Action.published?, Phase.pending?, Workspace.issue] using h.retired
  latest n hn := by simpa [Action.ending?] using h.latest n (.inl (hn.resolve_right nofun))
  fresh := nofun

/-- A build returns a generation. -/
theorem finish_ok {n : Nat} (h : Fits t w (.building n)) (i : ι) :
    Fits (t ++ [(i, .finish n (.ok ()))]) w (.built n) := by
  have hproduced : Trace.produced (t ++ [(i, .finish n (.ok ()))]) = t.produced ++ [n] := by
    simp [Action.ending?, produced?, Except.toOption]
  have hlt : ∀ m ∈ t.produced, m < n := fun m hm =>
    h.lt_of_running rfl (t.mem_endings_of_mem_produced hm)
  constructor
  case issued => simpa [Action.issued?] using h.issued
  case next => simpa [Action.issued?] using h.next
  case endings => simpa [Action.issued?, Action.ending?, Phase.running?] using h.endings
  case hidden => exact fun _ => h.hidden rfl
  case stored => simpa [Action.published?] using h.stored
  case pending => nofun
  case produced =>
    intro m hm
    rw [hproduced]
    exact List.mem_append_left _ (h.produced m (by simpa [Action.published?] using hm))
  case retired => simpa [Action.published?, Phase.pending?] using h.retired
  case latest =>
    rintro m (hm | hm)
    · rw [h.hidden rfl] at hm
      cases hm
    · cases hm
      rw [hproduced]
      refine ⟨List.mem_append_right _ (List.mem_singleton_self n), fun m hm => ?_⟩
      rcases List.mem_append.mp hm with hm | hm
      · exact (hlt m hm).le
      · exact (List.mem_singleton.mp hm).le
  case fresh =>
    rintro m hm hmem
    cases hm
    exact lt_irrefl n (hlt n (h.produced n (by simpa [Action.published?] using hmem)))

/-- A build fails or panics. -/
theorem finish_error {n : Nat} (h : Fits t w (.building n)) (i : ι) (halt : Halt) (panicked : Bool) :
    Fits (t ++ [(i, .finish n (.error halt))]) w (.leaving panicked) := by
  have hproduced : Trace.produced (t ++ [(i, .finish n (.error halt))]) = t.produced := by
    simp [Action.ending?, produced?, Except.toOption]
  constructor
  case issued => simpa [Action.issued?] using h.issued
  case next => simpa [Action.issued?] using h.next
  case endings => simpa [Action.issued?, Action.ending?, Phase.running?] using h.endings
  case hidden => nofun
  case stored => simpa [Action.published?] using h.stored
  case pending => nofun
  case produced =>
    rw [hproduced]
    simpa [Action.published?] using h.produced
  case retired => simpa [Action.published?, Phase.pending?] using h.retired
  case latest =>
    intro m hm
    rw [hproduced]
    exact h.latest m (.inl (hm.resolve_right nofun))
  case fresh => nofun

/-- A generation is published. -/
theorem publish {n : Nat} (h : Fits t w (.built n)) (i : ι) :
    Fits (t ++ [(i, .publish n)]) (w.publish n) (.leaving false) := by
  have hpublished : Trace.published (t ++ [(i, .publish n)]) = t.published ++ [n] := by
    simp [Action.published?]
  have hproduced : Trace.produced (t ++ [(i, .publish n)]) = t.produced := by simp [Action.ending?]
  obtain ⟨hbuilt, hlast⟩ := h.latest n (.inr rfl)
  constructor
  case issued => simpa [Action.issued?] using h.issued
  case next => simpa [Action.issued?, Workspace.publish] using h.next
  case endings => simpa [Action.issued?, Action.ending?, Phase.running?] using h.endings
  case hidden => nofun
  case stored =>
    intro m hm
    cases hm
    rw [hpublished]
    exact List.mem_append_right _ (List.mem_singleton_self n)
  case pending => nofun
  case produced =>
    intro m hm
    rw [hproduced]
    rcases List.mem_append.mp (hpublished ▸ hm) with hm | hm
    · exact h.produced m hm
    · exact List.mem_singleton.mp hm ▸ hbuilt
  case retired =>
    intro m
    have hmem := h.retired m
    rw [h.hidden rfl] at hmem
    show m ∈ w.retired ↔ m ∈ Trace.published (t ++ [(i, .publish n)]) ∧ some n ≠ some m ∧ none ≠ some m
    rw [hmem, hpublished, List.mem_append, List.mem_singleton]
    constructor
    · rintro ⟨hm, -, -⟩
      exact ⟨.inl hm, fun hnm => h.fresh n rfl (Option.some.inj hnm ▸ hm), nofun⟩
    · rintro ⟨hm, hne, -⟩
      exact ⟨hm.resolve_right fun hmn => hne (congrArg some hmn.symm), nofun, nofun⟩
  case latest =>
    rintro m (hm | hm)
    · cases hm
      rw [hproduced]
      exact ⟨hbuilt, hlast⟩
    · cases hm
  case fresh => nofun

/-- **The thread that holds the lock takes a step.** -/
theorem move {φ' : Phase} {m m' : Shared} {a : Action} (hmove : Move φ m a φ' m')
    (hin : φ.inside = true) (h : Fits t m.workspace φ) (i : ι) :
    Fits (t ++ [(i, a)]) m'.workspace φ' := by
  cases hmove with
  | call r => cases hin
  | look => cases hin
  | refuse _ => cases hin
  | lock _ _ => cases hin
  | take hn => exact (h.outside i rfl rfl rfl).take hn
  | @takeNone _ job hnone =>
      refine (h.outside i rfl rfl rfl).turn rfl hnone.symm rfl ?_ ?_ (fun _ => hnone) ?_
      all_goals cases job <;> first | rfl | nofun
  | retire => exact (h.outside i rfl rfl rfl).retire
  | issue => exact h.issue i
  | finish outcome =>
      cases outcome with
      | ok => exact h.finish_ok i
      | error halt => exact h.finish_error i halt _
  | publish => exact h.publish i
  | unlock => exact (h.outside i rfl rfl rfl).turn rfl rfl rfl rfl rfl nofun nofun

/-- A thread takes the lock. -/
theorem lock (h : Fits t w .idle) (i : ι) (job : Job) :
    Fits (t ++ [(i, .lock)]) w.lock (.entered job) :=
  (h.outside i rfl rfl rfl).turn rfl rfl rfl rfl rfl nofun nofun

end Fits

/-! ## Steps of the threads -/

/-- A thread that does not hold the lock takes it or leaves everything as it is. -/
theorem Move.outside {m m' : Shared} {φ φ' : Phase} {a : Action} (h : Move φ m a φ' m')
    (hin : φ.inside = false) :
    (φ'.inside = false ∧ m' = m ∧ a.issued? = none ∧ a.ending? = none ∧ a.published? = none) ∨
      ∃ job, a = .lock ∧ φ' = .entered job ∧ m.workspace.busy = false ∧ m' = m.map Workspace.lock := by
  cases h with
  | call r => exact .inl ⟨rfl, rfl, rfl, rfl, rfl⟩
  | look => exact .inl ⟨rfl, rfl, rfl, rfl, rfl⟩
  | refuse _ => exact .inl ⟨rfl, rfl, rfl, rfl, rfl⟩
  | lock _ hbusy => exact .inr ⟨_, rfl, rfl, hbusy, rfl⟩
  | _ => cases hin

/-- A thread that holds the lock keeps it or gives it back. -/
theorem Move.inside {m m' : Shared} {φ φ' : Phase} {a : Action} (h : Move φ m a φ' m')
    (hin : φ.inside = true) :
    (φ'.inside = true ∧ m'.workspace.busy = m.workspace.busy) ∨
      (φ' = .idle ∧ m'.workspace.busy = false) := by
  cases h with
  | call r => cases hin
  | look => cases hin
  | refuse _ => cases hin
  | lock _ _ => cases hin
  | take _ => exact .inl ⟨rfl, rfl⟩
  | @takeNone _ job _ => cases job <;> exact .inl ⟨rfl, rfl⟩
  | @retire _ job _ => cases job <;> exact .inl ⟨rfl, rfl⟩
  | issue => exact .inl ⟨rfl, rfl⟩
  | finish outcome => cases outcome <;> exact .inl ⟨rfl, rfl⟩
  | publish => exact .inl ⟨rfl, rfl⟩
  | unlock => exact .inr ⟨rfl, rfl⟩

namespace System

/-- `φ` is the phase of the only thread that holds the build lock, or `idle` if nobody does. -/
inductive Holder (s : System ι) : Phase → Prop
  | free (hbusy : s.workspace.busy = false) (hout : ∀ i, (s.phase i).inside = false) : Holder s .idle
  | held {φ : Phase} (i : ι) (hbusy : s.workspace.busy = true) (hphase : s.phase i = φ)
      (hin : φ.inside = true) (halone : ∀ j, (s.phase j).inside = true → j = i) : Holder s φ

/-- A moment of a workspace is sound: it fits what was done so far. -/
def Sound (s : System ι) (t : Trace ι) : Prop := ∃ φ, s.Holder φ ∧ Fits t s.workspace φ

section Holder

variable {s : System ι} {φ : Phase} {i : ι}

/-- Only one thread is inside the lock. -/
theorem Holder.eq (h : s.Holder φ) (hin : (s.phase i).inside = true) : φ = s.phase i := by
  cases h with
  | free _ hout =>
      rw [hout i] at hin
      cases hin
  | held j _ hphase _ halone => rw [halone i hin, hphase]

/-- The lock is held by one thread. -/
theorem Holder.alone (h : s.Holder φ) (hin : (s.phase i).inside = true) {j : ι}
    (hj : (s.phase j).inside = true) : j = i := by
  cases h with
  | free _ hout =>
      rw [hout i] at hin
      cases hin
  | held k _ _ _ halone => rw [halone i hin, halone j hj]

/-- The workspace is busy while a thread is inside. -/
theorem Holder.busy (h : s.Holder φ) (hin : (s.phase i).inside = true) : s.workspace.busy = true := by
  cases h with
  | free _ hout =>
      rw [hout i] at hin
      cases hin
  | held _ hbusy _ _ _ => exact hbusy

/-- Nobody is inside while it is not. -/
theorem Holder.eq_idle (h : s.Holder φ) (hfree : s.workspace.busy = false) : φ = .idle := by
  cases h with
  | free _ _ => rfl
  | held _ hbusy _ _ _ =>
      rw [hfree] at hbusy
      cases hbusy

end Holder

variable [DecidableEq ι] {s s' : System ι} {t u : Trace ι}

/-- **Every step keeps a workspace sound.** -/
theorem Sound.step {e : ι × Action} (h : s.Sound t) (hstep : s.Step e s') : s'.Sound (t ++ [e]) := by
  obtain ⟨φ, hholder, hfits⟩ := h
  cases hstep with
  | @move i a before after m hphase hmove =>
      subst hphase
      have hothers : ∀ j, j ≠ i → Function.update s.phase i after j = s.phase j := fun j hj =>
        Function.update_of_ne hj _ _
      have hself : Function.update s.phase i after i = after := Function.update_self _ _ _
      cases hin : (s.phase i).inside with
      | true =>
          -- the lock is in the hands of this thread
          obtain rfl := hholder.eq hin
          refine ⟨after, ?_, hfits.move hmove hin i⟩
          have halone : ∀ j, (Function.update s.phase i after j).inside = true → j = i := by
            intro j hj
            by_contra hne
            exact hne (hholder.alone hin (hothers j hne ▸ hj))
          rcases hmove.inside hin with ⟨hkept, hbusy⟩ | ⟨rfl, hbusy⟩
          · exact .held i (hbusy.trans (hholder.busy hin)) hself hkept halone
          · refine .free hbusy fun j => Bool.eq_false_iff.mpr fun hj => ?_
            obtain rfl := halone j hj
            cases (congrArg Phase.inside hself).symm.trans hj
      | false =>
          rcases hmove.outside hin with ⟨hout, rfl, hissued, hending, hpublished⟩ |
              ⟨job, rfl, rfl, hbusy, rfl⟩
          · -- the step changes nothing that matters
            refine ⟨φ, ?_, hfits.outside i hissued hending hpublished⟩
            have hinside : ∀ j, (Function.update s.phase i after j).inside = (s.phase j).inside := by
              intro j
              by_cases hj : j = i
              · rw [hj, hself, hout, hin]
              · rw [hothers j hj]
            cases hholder with
            | free hbusy hall => exact .free hbusy fun j => (hinside j).trans (hall j)
            | held k hbusy hphase hk halone =>
                have hki : k ≠ i := by
                  rintro rfl
                  rw [hphase, hk] at hin
                  cases hin
                exact .held k hbusy ((hothers k hki).trans hphase) hk fun j hj =>
                  halone j (hinside j ▸ hj)
          · -- the lock was free
            obtain rfl := hholder.eq_idle hbusy
            refine ⟨.entered job, .held i rfl hself rfl fun j hj => ?_, hfits.lock i job⟩
            by_contra hne
            have hin := hholder.busy ((congrArg Phase.inside (hothers j hne)).symm.trans hj)
            rw [hbusy] at hin
            cases hin

/-- **Every moment of a run is sound.** -/
theorem Sound.run (h : s.Sound t) (hrun : s.Run u s') : s'.Sound (t ++ u) := by
  induction hrun generalizing t with
  | nil => rwa [List.append_nil]
  | cons first _ ih =>
      have hrest := ih (h.step first)
      rwa [List.append_assoc] at hrest

end System

end Workspace

end LiveUnits
