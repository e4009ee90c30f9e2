import LiveUnits.Proofs.Workspace.Safety

/-!
# When a build is refused

A request to build unless a build is running tries the build lock and is refused if somebody holds it.
Builds hold it, and so does a shutdown.  At any moment of any interleaving (`System.admits_run`):

* such a request is refused exactly if some call holds the lock: a rebuild, another such request, or a
  shutdown.  So a shutdown makes it say that a build is running although nobody builds
  (`System.TwoThreads.admits_run_shutting_down`), and only a shutdown does;
* in every other state it takes the lock, poisoned or not, and does not return before it has built.

What one thread does is a strand of the run (`Strand`).  Which call a thread is at work on can be seen
from its phase and its last call, and this is kept along strands (`Strand.serves`).
-/

namespace LiveUnits

namespace Workspace

/-! ## Strands -/

/-- A thread takes steps, whatever the other threads do in between. -/
inductive Strand : Phase → List Action → Phase → Prop
  | nil {φ : Phase} : Strand φ [] φ
  | cons {φ φ' φ'' : Phase} {m m' : Shared} {a : Action} {as : List Action}
      (first : Move φ m a φ' m') (rest : Strand φ' as φ'') : Strand φ (a :: as) φ''

/-- What one thread did. -/
def Trace.of {ι : Type} [DecidableEq ι] (t : Trace ι) (i : ι) : List Action :=
  t.filterMap fun e => if e.1 = i then some e.2 else none

/-- **What a thread does in a run is a strand.** -/
theorem System.Run.strand {ι : Type} [DecidableEq ι] {s s' : System ι} {t : Trace ι} (h : s.Run t s')
    (i : ι) : Strand (s.phase i) (t.of i) (s'.phase i) := by
  induction h with
  | nil => exact .nil
  | @cons s _ _ e t first _ ih =>
      cases first with
      | @move j a before after m hphase hmove =>
          by_cases hj : j = i
          · subst hj hphase
            rw [show Trace.of ((j, a) :: t) j = a :: t.of j by simp [Trace.of]]
            have hrest : Strand (Function.update s.phase j after j) _ _ := ih
            rw [Function.update_self] at hrest
            exact .cons hmove hrest
          · rw [show Trace.of ((j, a) :: t) i = t.of i by simp [Trace.of, hj]]
            have hrest : Strand (Function.update s.phase j after i) _ _ := ih
            rwa [Function.update_of_ne (Ne.symm hj)] at hrest

/-! ## Calls at work -/

/-- The request that an action makes. -/
def Action.request? : Action → Option Request
  | call r => some r
  | _ => none

/-- The last request among actions. -/
def lastRequest? (as : List Action) : Option Request := (as.filterMap Action.request?).getLast?

/-- A thread in a phase is at work on a request. -/
structure Phase.Serves (φ : Phase) (request : Option Request) : Prop where
  called : ∀ r, φ = .called r → request = some r
  /-- Whoever holds the lock was asked for something that needs it. -/
  inside : φ.inside = true → ∃ r job, request = some r ∧ r.job? = some job

/-- Every step keeps a thread at work on its last request. -/
theorem Move.serves {φ φ' : Phase} {m m' : Shared} {a : Action} (h : Move φ m a φ' m')
    {request : Option Request} (hφ : φ.Serves request) : φ'.Serves (a.request?.or request) := by
  cases h with
  | call r => exact ⟨fun r' hr => congrArg some (Phase.called.inj hr), nofun⟩
  | look => exact ⟨nofun, nofun⟩
  | refuse _ => exact ⟨nofun, nofun⟩
  | @lock _ r job hjob _ => exact ⟨nofun, fun _ => ⟨r, job, hφ.called r rfl, hjob⟩⟩
  | take _ => exact ⟨nofun, fun _ => hφ.inside rfl⟩
  | @takeNone _ job _ => cases job <;> exact ⟨nofun, fun _ => hφ.inside rfl⟩
  | @retire _ job _ => cases job <;> exact ⟨nofun, fun _ => hφ.inside rfl⟩
  | issue => exact ⟨nofun, fun _ => hφ.inside rfl⟩
  | finish outcome => cases outcome <;> exact ⟨nofun, fun _ => hφ.inside rfl⟩
  | publish => exact ⟨nofun, fun _ => hφ.inside rfl⟩
  | unlock => exact ⟨nofun, nofun⟩

/-- The last request of a strand is the one that counts. -/
theorem lastRequest?_cons (a : Action) (as : List Action) (request : Option Request) :
    (lastRequest? as).or (a.request?.or request) = (lastRequest? (a :: as)).or request := by
  unfold lastRequest?
  cases h : a.request? with
  | none => rw [List.filterMap_cons_none h, Option.none_or]
  | some r =>
      rw [List.filterMap_cons_some h, List.getLast?_cons]
      cases (as.filterMap Action.request?).getLast? <;> rfl

/-- **A thread is at work on its last request.** -/
theorem Strand.serves {φ φ' : Phase} {as : List Action} (h : Strand φ as φ') {request : Option Request}
    (hφ : φ.Serves request) : φ'.Serves ((lastRequest? as).or request) := by
  induction h generalizing request with
  | nil => exact hφ
  | @cons _ _ _ _ _ a as first _ ih =>
      rw [← lastRequest?_cons]
      exact ih (first.serves hφ)

/-! ## Builds -/

/-- A strand that is building finishes before it is idle. -/
theorem Strand.finish_mem {n : Nat} {as : List Action} (h : Strand (.building n) as .idle) :
    ∃ outcome, .finish n outcome ∈ as := by
  cases h with
  | cons first _ =>
      cases first with
      | finish outcome => exact ⟨outcome, List.mem_cons_self⟩

/-- After the withdrawal it takes a number and finishes the build with it. -/
theorem Strand.builds_of_withdrawn {as : List Action} (h : Strand .withdrawn as .idle) :
    ∃ n outcome, [.issue n, .finish n outcome].Sublist as := by
  cases h with
  | cons first rest =>
      cases first with
      | issue =>
          obtain ⟨outcome, hmem⟩ := rest.finish_mem
          exact ⟨_, outcome, (List.singleton_sublist.mpr hmem).cons_cons _⟩

/-- Whoever took the lock for a build gives it back after a build. -/
theorem Strand.builds {as : List Action} (h : Strand (.entered .build) as .idle) :
    ∃ n outcome, [.issue n, .finish n outcome].Sublist as := by
  cases h with
  | cons first rest =>
      cases first with
      | takeNone _ =>
          obtain ⟨n, outcome, hbuilds⟩ := rest.builds_of_withdrawn
          exact ⟨n, outcome, hbuilds.cons _⟩
      | take _ =>
          cases rest with
          | cons second rest =>
              cases second with
              | retire =>
                  obtain ⟨n, outcome, hbuilds⟩ := rest.builds_of_withdrawn
                  exact ⟨n, outcome, (hbuilds.cons _).cons _⟩

namespace System

variable {ι : Type} [DecidableEq ι] {s s' : System ι} {t : Trace ι}

/-- A thread is at work on a request. -/
def AtWork (s : System ι) (t : Trace ι) (i : ι) (r : Request) : Prop :=
  s.phase i ≠ .idle ∧ lastRequest? (t.of i) = some r

/-- What is promised about requests to build unless a build is running, given what was done so far. -/
structure Admits (s : System ι) (t : Trace ι) : Prop where
  /-- Such a request is refused exactly if somebody holds the lock. -/
  refused : ∀ i, s.phase i = .called .tryRebuild →
    ((∃ s', s.Step (i, .refuse) s') ↔ ∃ j, j ≠ i ∧ (s.phase j).inside = true)
  /-- Whoever holds the lock is at work on a build or on a shutdown. -/
  holder : ∀ j, (s.phase j).inside = true →
    s.AtWork t j .rebuild ∨ s.AtWork t j .tryRebuild ∨ s.AtWork t j .shutdown
  /-- So unless a shutdown holds the lock, a request is refused only while a build is in flight. -/
  building : ∀ i s', s.Step (i, .refuse) s' →
    (∀ j, (s.phase j).inside = true → ¬ s.AtWork t j .shutdown) →
      ∃ j, j ≠ i ∧ (s.phase j).inside = true ∧ (s.AtWork t j .rebuild ∨ s.AtWork t j .tryRebuild)
  /-- In every other state it takes the lock and can do nothing else, whether or not the lock is
  poisoned; and if it goes on undisturbed, it builds, however the build ends. -/
  granted : ∀ i, s.phase i = .called .tryRebuild → (∀ j, (s.phase j).inside = false) →
    (∀ a s', s.Step (i, a) s' → a = .lock) ∧ ∀ outcome, ∃ s',
      s.Run ((s.workspace.rebuilding .tryRebuild outcome).tail.map fun a => (i, a)) s'
  /-- Whatever the others do, it does not return before it has built. -/
  builds : ∀ i, s.phase i = .called .tryRebuild → ∀ (u : Trace ι) s', s.Run ((i, .lock) :: u) s' →
    s'.phase i = .idle → ∃ n outcome, [Action.issue n, .finish n outcome].Sublist (u.of i)

/-- The moment at which a request is refused. -/
theorem Step.of_refuse {i : ι} (h : s.Step (i, .refuse) s') :
    s.phase i = .called .tryRebuild ∧ s.workspace.busy = true := by
  cases h with
  | move hphase hmove =>
      cases hmove with
      | refuse hbusy => exact ⟨hphase, hbusy⟩

/-- A thread is at work on its last request. -/
theorem serves_run {w : Workspace} (h : (start ι w).Run t s) (i : ι) :
    (s.phase i).Serves (lastRequest? (t.of i)) := by
  have hstart : ((start ι w).phase i).Serves none := ⟨nofun, nofun⟩
  have hend := (h.strand i).serves hstart
  rwa [Option.or_none] at hend

/-- Whoever holds the lock is at work on a build or on a shutdown. -/
theorem atWork_of_inside {w : Workspace} (h : (start ι w).Run t s) {j : ι}
    (hj : (s.phase j).inside = true) :
    s.AtWork t j .rebuild ∨ s.AtWork t j .tryRebuild ∨ s.AtWork t j .shutdown := by
  have hbusy : s.phase j ≠ .idle := fun hidle => by
    rw [hidle] at hj
    cases hj
  obtain ⟨r, job, hr, hjob⟩ := (serves_run h j).inside hj
  cases r with
  | rebuild => exact .inl ⟨hbusy, hr⟩
  | tryRebuild => exact .inr (.inl ⟨hbusy, hr⟩)
  | shutdown => exact .inr (.inr ⟨hbusy, hr⟩)
  | current => cases hjob

/-- The lock is taken exactly if some thread holds it. -/
theorem busy_iff {w : Workspace} (h : (start ι w).Run t s) :
    s.workspace.busy = true ↔ ∃ j, (s.phase j).inside = true := by
  obtain ⟨φ, hholder, -⟩ := sound_run h
  cases hholder with
  | free hbusy hout => simp [hbusy, hout]
  | held i hbusy hphase hin _ => exact iff_of_true hbusy ⟨i, hphase ▸ hin⟩

/-- **A request to build unless a build is running** is refused exactly while a build or a shutdown holds
the lock, and builds in every other state, at any moment of any interleaving. -/
theorem admits_run {w : Workspace} (h : (start ι w).Run t s) : s.Admits t := by
  have hrefused : ∀ i, s.phase i = .called .tryRebuild → s.workspace.busy = true →
      ∃ j, j ≠ i ∧ (s.phase j).inside = true := by
    intro i hi hbusy
    obtain ⟨j, hj⟩ := (busy_iff h).mp hbusy
    refine ⟨j, ?_, hj⟩
    rintro rfl
    rw [hi] at hj
    cases hj
  constructor
  case refused =>
    intro i hi
    constructor
    · rintro ⟨s', hstep⟩
      exact hrefused i hi hstep.of_refuse.2
    · rintro ⟨j, -, hj⟩
      exact ⟨_, .move hi (.refuse ((busy_iff h).mpr ⟨j, hj⟩))⟩
  case holder => exact fun j hj => atWork_of_inside h hj
  case building =>
    intro i s' hstep hopen
    obtain ⟨hi, hbusy⟩ := hstep.of_refuse
    obtain ⟨j, hne, hj⟩ := hrefused i hi hbusy
    rcases atWork_of_inside h hj with hwork | hwork | hwork
    · exact ⟨j, hne, hj, .inl hwork⟩
    · exact ⟨j, hne, hj, .inr hwork⟩
    · exact absurd hwork (hopen j hj)
  case granted =>
    intro i hi hall
    have hfree : s.workspace.busy = false := by
      rw [Bool.eq_false_iff]
      intro hbusy
      obtain ⟨j, hj⟩ := (busy_iff h).mp hbusy
      rw [hall j] at hj
      cases hj
    refine ⟨fun a s' hstep => ?_, fun outcome => ?_⟩
    · cases hstep with
      | move hphase hmove =>
          rw [hi] at hphase
          subst hphase
          cases hmove with
          | refuse hbusy =>
              rw [hfree] at hbusy
              cases hbusy
          | lock _ _ => rfl
    · cases moves_rebuilding s.toShared hfree (r := .tryRebuild) rfl outcome with
      | cons first rest =>
          cases first with
          | call r => exact ⟨_, run_of_moves rest rfl hi⟩
  case builds =>
    intro i hi u s' hrun hidle
    cases hrun with
    | cons first rest =>
        cases first with
        | @move _ _ _ after _ hphase hmove =>
            rw [hi] at hphase
            subst hphase
            cases hmove with
            | @lock _ _ job hjob _ =>
                obtain rfl : Job.build = job := Option.some.inj hjob
                have hstrand : Strand (Function.update s.phase i (.entered .build) i) (u.of i)
                  (s'.phase i) := rest.strand i
                rw [hidle, Function.update_self] at hstrand
                exact hstrand.builds

namespace TwoThreads

/-- One thread shuts the workspace down, and the other one asks for a build. -/
def shuttingDown : Trace Bool := [(true, .call .shutdown), (true, .lock), (false, .call .tryRebuild)]

/-- The request is refused although no other thread ever asked for a build. -/
theorem admits_run_shutting_down : ∃ (w : Workspace) (s s' : System Bool),
    (start Bool w).Run shuttingDown s ∧ s.Step (false, .refuse) s' ∧
      (∀ j, j ≠ false → ¬ s.AtWork shuttingDown j .rebuild ∧ ¬ s.AtWork shuttingDown j .tryRebuild) ∧
        s.Admits shuttingDown := by
  let w : Workspace :=
    { host := .empty, settings := {}, sourceRoot := .ofString "src", outputRoot := .ofString "out" }
  have hrun : ∃ s, (start Bool w).Run shuttingDown s ∧ ∃ s', s.Step (false, .refuse) s' :=
    ⟨_, .cons (.move rfl (.call _)) <| .cons (.move rfl (.lock rfl rfl)) <|
      .cons (.move rfl (.call _)) <| .nil, _, .move rfl (.refuse rfl)⟩
  obtain ⟨s, hrun, s', hstep⟩ := hrun
  have hrequest : lastRequest? (shuttingDown.of true) = some .shutdown := rfl
  refine ⟨w, s, s', hrun, hstep, fun j hj => ?_, admits_run hrun⟩
  obtain rfl : j = true := by simpa using hj
  constructor <;>
    · rintro ⟨-, hwork⟩
      rw [hrequest] at hwork
      cases hwork

end TwoThreads

end System

end Workspace

end LiveUnits
