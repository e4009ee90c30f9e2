import Mathlib.Logic.Function.Basic
import LiveUnits.Workspace.Journal
import LiveUnits.Proofs.Build.Calls

/-!
# Threads in a workspace

Any number of threads call one workspace, and nothing is said about the order in which they get on.  A
rebuild or a shutdown takes the build lock, takes the published generation out and retires it, each in
a step of its own; a rebuild goes on to get a number, to build, and to publish what it built.  Between
any two steps of a thread the others may take steps of theirs, and in particular look for the current
generation.

How a build ends is left open: it returns a generation, fails, or panics.  A thread that panics gives
the lock back poisoned, and a poisoned lock is taken like any other one.

One call after the other, the steps add up to `Workspace.rebuild`, `Workspace.tryRebuild`,
`Workspace.shutdown` and `Workspace.current` (`System.run_rebuild`, `System.run_tryRebuild`,
`System.run_shutdown`, `System.run_current`), if the compiler leaves the workspace alone.  A compiler
that asks for rebuilds in the middle of a build does so as well (`aloof_journal`).
-/

namespace LiveUnits

namespace Workspace

/-- What a thread asks of a workspace. -/
inductive Request where
  /-- A build, after the one that is running. -/
  | rebuild
  /-- A build, unless one is running. -/
  | tryRebuild
  | shutdown
  /-- The generation that can be queried. -/
  | current
  deriving DecidableEq

/-- What the build lock is taken for. -/
inductive Job where
  | build
  | shutdown
  deriving DecidableEq

/-- What a request needs the build lock for. -/
def Request.job? : Request → Option Job
  | rebuild => some .build
  | tryRebuild => some .build
  | shutdown => some .shutdown
  | current => none

/-- Where a thread is. -/
inductive Phase where
  | idle
  /-- It has called and waits for its turn. -/
  | called (r : Request)
  /-- It holds the lock and has done nothing yet. -/
  | entered (job : Job)
  /-- It took a generation out that is not retired yet. -/
  | taken (job : Job) (number : Nat)
  /-- It is about to build, and nothing is published. -/
  | withdrawn
  /-- Its build is running. -/
  | building (number : Nat)
  /-- Its build is through, and the generation is not published yet. -/
  | built (number : Nat)
  /-- It has only to give the lock back. -/
  | leaving (panicked : Bool)
  deriving DecidableEq

/-- Where a job goes on when the published generation is withdrawn. -/
def Job.next : Job → Phase
  | build => .withdrawn
  | shutdown => .leaving false

/-- Whether a build that ends so panicked. -/
def panicked : Except Halt Unit → Bool
  | .error .crashed => true
  | _ => false

/-- Where a thread goes on when its build ended. -/
def Phase.after (number : Nat) : Except Halt Unit → Phase
  | .ok _ => .built number
  | .error halt => .leaving (panicked (.error halt))

/-- What a thread does in one step. -/
inductive Action where
  | call (r : Request)
  /-- It is told the current generation. -/
  | look (answer : Option Nat)
  /-- It is told that a build is running. -/
  | refuse
  | lock
  | take (previous : Option Nat)
  | retire (number : Nat)
  | issue (number : Nat)
  | finish (number : Nat) (outcome : Except Halt Unit)
  | publish (number : Nat)
  | unlock

/-- What the threads have in common. -/
structure Shared where
  workspace : Workspace
  /-- Whether a thread panicked with the build lock in its hands. -/
  poisoned : Bool := false

/-- Changes the workspace. -/
def Shared.map (m : Shared) (f : Workspace → Workspace) : Shared := { m with workspace := f m.workspace }

/-- The steps of one thread. -/
inductive Move : Phase → Shared → Action → Phase → Shared → Prop
  | call {m : Shared} (r : Request) : Move .idle m (.call r) (.called r) m
  | look {m : Shared} : Move (.called .current) m (.look m.workspace.current) .idle m
  | refuse {m : Shared} (h : m.workspace.busy = true) : Move (.called .tryRebuild) m .refuse .idle m
  | lock {m : Shared} {r : Request} {job : Job} (hjob : r.job? = some job)
      (h : m.workspace.busy = false) : Move (.called r) m .lock (.entered job) (m.map lock)
  | take {m : Shared} {job : Job} {n : Nat} (h : m.workspace.published = some n) :
      Move (.entered job) m (.take (some n)) (.taken job n) (m.map (·.take.2))
  | takeNone {m : Shared} {job : Job} (h : m.workspace.published = none) :
      Move (.entered job) m (.take none) job.next (m.map (·.take.2))
  | retire {m : Shared} {job : Job} {n : Nat} :
      Move (.taken job n) m (.retire n) job.next (m.map (·.retire n))
  | issue {m : Shared} :
      Move .withdrawn m (.issue m.workspace.issue.1) (.building m.workspace.issue.1) (m.map (·.issue.2))
  | finish {m : Shared} {n : Nat} (outcome : Except Halt Unit) :
      Move (.building n) m (.finish n outcome) (.after n outcome) m
  | publish {m : Shared} {n : Nat} :
      Move (.built n) m (.publish n) (.leaving false) (m.map (·.publish n))
  | unlock {m : Shared} {panicked : Bool} :
      Move (.leaving panicked) m .unlock .idle ⟨m.workspace.unlock, m.poisoned || panicked⟩

/-- A workspace and the threads that work with it. -/
structure System (ι : Type) extends Shared where
  phase : ι → Phase := fun _ => .idle

/-- What the threads did, in the order in which they did it. -/
abbrev Trace (ι : Type) := List (ι × Action)

/-- One thread takes a step. -/
inductive System.Step {ι : Type} [DecidableEq ι] (s : System ι) : ι × Action → System ι → Prop
  | move {i : ι} {a : Action} {before after : Phase} {m : Shared} (hphase : s.phase i = before)
      (hmove : Move before s.toShared a after m) : Step s (i, a) ⟨m, Function.update s.phase i after⟩

/-- The threads take steps, in any order. -/
inductive System.Run {ι : Type} [DecidableEq ι] : System ι → Trace ι → System ι → Prop
  | nil {s : System ι} : Run s [] s
  | cons {s s' s'' : System ι} {e : ι × Action} {t : Trace ι} (first : s.Step e s')
      (rest : Run s' t s'') : Run s (e :: t) s''

/-! ## What a trace tells -/

/-- The number that an action gives out. -/
def Action.issued? : Action → Option Nat
  | issue n => some n
  | _ => none

/-- The number of the build that an action ends, and how it ends. -/
def Action.ending? : Action → Option (Nat × Except Halt Unit)
  | finish n outcome => some (n, outcome)
  | _ => none

/-- The number of the generation that an action publishes. -/
def Action.published? : Action → Option Nat
  | publish n => some n
  | _ => none

/-- The number of the generation that a build produced, if it did. -/
def produced? (ending : Nat × Except Halt Unit) : Option Nat := ending.2.toOption.map fun _ => ending.1

namespace Trace

variable {ι : Type}

/-- The numbers that were given out. -/
def issued (t : Trace ι) : List Nat := t.filterMap (·.2.issued?)

/-- The builds that ended. -/
def endings (t : Trace ι) : List (Nat × Except Halt Unit) := t.filterMap (·.2.ending?)

/-- The generations that were built. -/
def produced (t : Trace ι) : List Nat := t.endings.filterMap produced?

/-- The generations that were published. -/
def published (t : Trace ι) : List Nat := t.filterMap (·.2.published?)

variable (t u : Trace ι) (i : ι) (a : Action)

@[simp] theorem issued_append : issued (t ++ u) = t.issued ++ u.issued := List.filterMap_append

@[simp] theorem endings_append : endings (t ++ u) = t.endings ++ u.endings := List.filterMap_append

@[simp] theorem published_append : published (t ++ u) = t.published ++ u.published :=
  List.filterMap_append

@[simp] theorem produced_append : produced (t ++ u) = t.produced ++ u.produced := by
  rw [produced, endings_append, List.filterMap_append]
  rfl

@[simp] theorem issued_single : issued [(i, a)] = a.issued?.toList := by
  cases h : a.issued? <;> simp [issued, h]

@[simp] theorem endings_single : endings [(i, a)] = a.ending?.toList := by
  cases h : a.ending? <;> simp [endings, h]

@[simp] theorem published_single : published [(i, a)] = a.published?.toList := by
  cases h : a.published? <;> simp [published, h]

@[simp] theorem produced_single : produced [(i, a)] = (a.ending?.bind produced?).toList := by
  rw [produced, endings_single]
  cases a.ending? with
  | none => rfl
  | some ending => cases h : produced? ending <;> simp [h]

/-- A generation that was produced is that of a build that ended. -/
theorem mem_endings_of_mem_produced {n : Nat} (h : n ∈ t.produced) : n ∈ t.endings.map (·.1) := by
  obtain ⟨⟨m, outcome⟩, hmem, hn⟩ := List.mem_filterMap.mp h
  obtain ⟨-, -, rfl⟩ := Option.map_eq_some_iff.mp hn
  exact List.mem_map_of_mem hmem

end Trace

namespace System

variable {ι : Type} [DecidableEq ι]

theorem Run.append {s s' s'' : System ι} {t u : Trace ι} (h : s.Run t s') (hu : s'.Run u s'') :
    s.Run (t ++ u) s'' := by
  induction h with
  | nil => exact hu
  | cons first _ ih => exact .cons first (ih hu)

theorem run_append {s s'' : System ι} {t u : Trace ι} :
    s.Run (t ++ u) s'' ↔ ∃ s', s.Run t s' ∧ s'.Run u s'' := by
  refine ⟨fun h => ?_, fun ⟨_, h, hu⟩ => h.append hu⟩
  induction t generalizing s with
  | nil => exact ⟨s, .nil, h⟩
  | cons e t ih =>
      cases h with
      | cons first rest =>
          obtain ⟨s', hs, hu⟩ := ih rest
          exact ⟨s', .cons first hs, hu⟩

end System

/-! ## One thread alone -/

/-- A thread takes steps, and no other thread does. -/
inductive Moves : Phase → Shared → List Action → Phase → Shared → Prop
  | nil {φ : Phase} {m : Shared} : Moves φ m [] φ m
  | cons {φ φ' φ'' : Phase} {m m' m'' : Shared} {a : Action} {as : List Action}
      (first : Move φ m a φ' m') (rest : Moves φ' m' as φ'' m'') : Moves φ m (a :: as) φ'' m''

theorem Moves.append {φ φ' φ'' : Phase} {m m' m'' : Shared} {as bs : List Action}
    (h : Moves φ m as φ' m') (hb : Moves φ' m' bs φ'' m'') : Moves φ m (as ++ bs) φ'' m'' := by
  induction h with
  | nil => exact hb
  | cons first _ ih => exact .cons first (ih hb)

/-- What a thread can do alone it can do in a system. -/
theorem System.run_of_moves {ι : Type} [DecidableEq ι] {s : System ι} {i : ι} {φ φ' : Phase}
    {m m' : Shared} {as : List Action} (h : Moves φ m as φ' m') (hshared : s.toShared = m)
    (hphase : s.phase i = φ) :
    s.Run (as.map fun a => (i, a)) ⟨m', Function.update s.phase i φ'⟩ := by
  induction h generalizing s with
  | nil =>
      subst hshared hphase
      rw [Function.update_eq_self]
      exact .nil
  | @cons φ middle φ'' m between m'' a as first rest ih =>
      subst hshared
      have hrest := ih (s := ⟨between, Function.update s.phase i middle⟩) rfl
        (Function.update_self i middle s.phase)
      rw [Function.update_idem] at hrest
      exact .cons (.move hphase first) hrest

/-- A withdrawal retires the published generation and publishes nothing. -/
theorem withdraw_eq (w : Workspace) :
    w.withdraw = { w with published := none, retired := w.published.toList ++ w.retired } := by
  obtain ⟨host, settings, source, output, next, busy, published, retired⟩ := w
  cases published <;> rfl

/-- The steps that withdraw what is published. -/
def withdrawal (w : Workspace) : List Action :=
  .take w.published :: w.published.toList.map .retire

/-- **A job withdraws the published generation in steps** that lead to its next phase. -/
theorem moves_withdrawal (job : Job) (m : Shared) :
    Moves (.entered job) m m.workspace.withdrawal job.next (m.map withdraw) := by
  unfold withdrawal Shared.map withdraw
  cases h : m.workspace.published with
  | none =>
      simp only [Workspace.take, h]
      exact .cons (.takeNone h) .nil
  | some n =>
      simp only [Workspace.take, h]
      exact .cons (.take h) (.cons .retire .nil)

/-- The steps of a build that ends so, from the call to the return. -/
def rebuilding (w : Workspace) (r : Request) (outcome : Except Halt Unit) : List Action :=
  .call r :: .lock :: (w.withdrawal ++ .issue w.nextNumber :: .finish w.nextNumber outcome ::
    ((produced? (w.nextNumber, outcome)).toList.map .publish ++ [.unlock]))

/-- What a build that ends so leaves. -/
def rebuilt (w : Workspace) (outcome : Except Halt Unit) : Workspace :=
  { w with
    nextNumber := w.nextNumber + 1
    busy := false
    published := produced? (w.nextNumber, outcome)
    retired := w.published.toList ++ w.retired }

/-- A build takes all its steps, however it ends. -/
theorem moves_rebuilding (m : Shared) (hfree : m.workspace.busy = false) {r : Request}
    (hr : r.job? = some .build) (outcome : Except Halt Unit) :
    Moves .idle m (m.workspace.rebuilding r outcome) .idle
      ⟨m.workspace.rebuilt outcome, m.poisoned || panicked outcome⟩ := by
  have hwithdraw := moves_withdrawal .build (m.map lock)
  have hbuild : (m.map lock).map withdraw = m.map fun w =>
      { w with busy := true, published := none, retired := w.published.toList ++ w.retired } :=
    congrArg (Shared.mk · m.poisoned) (withdraw_eq _)
  rw [hbuild] at hwithdraw
  refine .cons (.call r) (.cons (.lock hr hfree) (hwithdraw.append ?_))
  refine .cons .issue (.cons (.finish outcome) ?_)
  cases outcome with
  | ok => exact .cons .publish (.cons .unlock .nil)
  | error halt => exact .cons .unlock .nil

/-! ## Calls to the workspace -/

variable {τ : Type}

/-- A compiler that leaves the workspace alone while the build lock is held. -/
def Aloof (c : Compiler (Workspace × τ)) : Prop :=
  ∀ i site, site.state.1.busy = true → (c i site).2.state.1 = site.state.1

/-- What looking around keeps, a script keeps. -/
theorem state_follow {σ : Type} {P : σ → Prop} {o : Observer σ}
    (ho : ∀ site, P site.state → P (o.probed site).2.state) (i : Invocation) (script : List ScriptStep)
    {site : Site σ} (h : P site.state) : P (Scripts.follow o i script site).2.state := by
  induction script generalizing site with
  | nil => exact h
  | cons step rest ih =>
      cases step with
      | copy =>
          change P ((Scripts.follow o i (.copy :: rest)).run site).2.state
          simp only [Scripts.follow, StateT.run_bind, StateT.run_get, StateT.run_set, pure_bind]
          cases (Scripts.copy i site.files).1 with
          | compiled => exact ih h
          | failed e => exact h
          | crashed => exact h
      | fail text => exact h
      | crash => exact h
      | probe =>
          have hprobed := ho site h
          show P ((if (o.probed site).1 = true then Scripts.follow o i rest
            else pure .crashed : StateM (Site σ) Verdict) (o.probed site).2).2.state
          split
          · exact ih hprobed
          · exact hprobed
      | edit e => exact ih h
      | pass => exact ih h

/-- **A compiler that asks for rebuilds in the middle of a build** leaves the workspace alone: its
requests are refused. -/
theorem aloof_journal (scripts : Scripts) (depth : Nat) : Aloof (Journal.compiler scripts depth) := by
  intro i site hbusy
  cases depth with
  | zero => rfl
  | succ depth =>
      refine state_follow (P := fun state : Workspace × Journal => state.1 = site.state.1)
        (fun site' hsite' => ?_) i _ rfl
      have hrefused : tryRebuild (Journal.compiler scripts depth) site' =
          (.error (.error .buildInProgress), site') := if_pos (hsite' ▸ hbusy)
      show (Journal.probe (Journal.compiler scripts depth) site').2.state.1 = site.state.1
      unfold Journal.probe
      rw [hrefused]
      exact hsite'

/-- How a build ended. -/
def ending {α : Type} (result : Except Halt α) : Except Halt Unit := result.map fun _ => ()

/-- A build gets the next number and leaves the workspace alone. -/
theorem state_build {c : Compiler (Workspace × τ)} (hc : Aloof c) (source output : Path)
    {site : Site (Workspace × τ)} (hbusy : site.state.1.busy = true) :
    (build c source output site).2.state.1 = site.state.1.issue.2 ∧
      ∀ g, (build c source output site).1 = .ok g → g.number = site.state.1.nextNumber := by
  refine ⟨?_, fun g hg => Build.number_of_ok (Prod.ext hg rfl)⟩
  refine Build.state_run (P := fun state : Workspace × τ => state.1 = site.state.1.issue.2)
    (fun i before hbefore => ?_) rfl
  exact (hc i before (hbefore ▸ hbusy)).trans hbefore

/-- **A rebuild** leaves what its steps leave. -/
theorem rebuild_eq {c : Compiler (Workspace × τ)} (hc : Aloof c) (site : Site (Workspace × τ)) :
    (rebuild c site).2.state.1 = site.state.1.rebuilt (ending (rebuild c site).1) := by
  have hbusy : (update (·.lock.withdraw) site).state.1.busy = true := by
    rw [update, withdraw_eq]
    rfl
  obtain ⟨hstate, hnumber⟩ :=
    state_build hc site.state.1.sourceRoot site.state.1.outputRoot hbusy
  unfold rebuild
  simp only
  generalize build c _ _ _ = result at hstate hnumber ⊢
  obtain ⟨outcome, left⟩ := result
  simp only [update, withdraw_eq] at hstate hnumber
  cases outcome with
  | ok g =>
      simp only [update, hstate, hnumber g rfl]
      rfl
  | error halt =>
      simp only [update, hstate]
      rfl

namespace System

variable {ι : Type} [DecidableEq ι] {s : System ι} {i : ι} {site : Site (Workspace × τ)}

/-- **A rebuild** that nobody is in the way of. -/
theorem run_rebuild {c : Compiler (Workspace × τ)} (hc : Aloof c)
    (hsite : site.state.1 = s.workspace) (hphase : s.phase i = .idle)
    (hfree : s.workspace.busy = false) :
    s.Run ((s.workspace.rebuilding .rebuild (ending (rebuild c site).1)).map fun a => (i, a))
      ⟨⟨(rebuild c site).2.state.1, s.poisoned || panicked (ending (rebuild c site).1)⟩, s.phase⟩ := by
  have hmoves := moves_rebuilding s.toShared hfree (r := .rebuild) rfl (ending (rebuild c site).1)
  have hrun := run_of_moves hmoves rfl hphase
  rw [← hphase, Function.update_eq_self] at hrun
  rwa [rebuild_eq hc, hsite]

/-- **A rebuild on condition** that nobody is in the way of. -/
theorem run_tryRebuild {c : Compiler (Workspace × τ)} (hc : Aloof c)
    (hsite : site.state.1 = s.workspace) (hphase : s.phase i = .idle)
    (hfree : s.workspace.busy = false) :
    s.Run ((s.workspace.rebuilding .tryRebuild (ending (tryRebuild c site).1)).map fun a => (i, a))
      ⟨⟨(tryRebuild c site).2.state.1, s.poisoned || panicked (ending (tryRebuild c site).1)⟩,
        s.phase⟩ := by
  have htry : tryRebuild c site = rebuild c site := if_neg (by rw [hsite, hfree]; decide)
  have hmoves :=
    moves_rebuilding s.toShared hfree (r := .tryRebuild) rfl (ending (rebuild c site).1)
  have hrun := run_of_moves hmoves rfl hphase
  rw [← hphase, Function.update_eq_self] at hrun
  rwa [htry, rebuild_eq hc, hsite]

/-- A rebuild on condition is refused while the build lock is held. -/
theorem run_refuse (c : Compiler (Workspace × τ)) (hsite : site.state.1 = s.workspace)
    (hphase : s.phase i = .idle) (hbusy : s.workspace.busy = true) :
    tryRebuild c site = (.error (.error .buildInProgress), site) ∧
      s.Run [(i, .call .tryRebuild), (i, .refuse)] s := by
  refine ⟨if_pos (by rw [hsite, hbusy]), ?_⟩
  have hrun := run_of_moves (.cons (.call .tryRebuild) (.cons (.refuse hbusy) .nil)) rfl hphase
  rwa [← hphase, Function.update_eq_self] at hrun

/-- **A shutdown** that nobody is in the way of. -/
theorem run_shutdown (hphase : s.phase i = .idle) (hfree : s.workspace.busy = false) :
    s.Run ((.call .shutdown :: .lock :: (s.workspace.withdrawal ++ [.unlock])).map fun a => (i, a))
      ⟨⟨s.workspace.shutdown, s.poisoned⟩, s.phase⟩ := by
  have hwithdraw := moves_withdrawal .shutdown (s.toShared.map lock)
  have hmoves : Moves .idle s.toShared
      (.call .shutdown :: .lock :: (s.workspace.withdrawal ++ [.unlock])) .idle
      ⟨s.workspace.shutdown, s.poisoned || false⟩ :=
    .cons (.call .shutdown) (.cons (.lock rfl hfree) (hwithdraw.append (.cons .unlock .nil)))
  have hrun := run_of_moves hmoves rfl hphase
  rwa [← hphase, Function.update_eq_self, Bool.or_false] at hrun

/-- **A look** at the current generation. -/
theorem run_current (hphase : s.phase i = .idle) :
    s.Run [(i, .call .current), (i, .look s.workspace.current)] s := by
  have hrun := run_of_moves (.cons (.call .current) (.cons .look .nil)) rfl hphase
  rwa [← hphase, Function.update_eq_self] at hrun

end System

end Workspace

end LiveUnits
