import LiveUnits.Proofs.Workspace.Renewal

/-!
# Workspaces under any interleaving

However the steps of the threads are interleaved and however builds end, a workspace is safe at every
moment (`System.safe_run`): one thread at most holds the build lock, what is stored is not retired and
was built last, numbers grow, what was withdrawn is retired before the next build begins and for ever,
nothing is current from a withdrawal to the next publication, and after a build that failed or panicked
the workspace is like new.
-/

namespace LiveUnits

namespace Workspace

/-- What was retired stays retired. -/
theorem Move.retired_subset {φ φ' : Phase} {m m' : Shared} {a : Action} (h : Move φ m a φ' m') :
    m.workspace.retired ⊆ m'.workspace.retired := by
  cases h with
  | retire => exact List.subset_cons_self _ _
  | _ => exact List.Subset.refl _

/-- Only publishing stores a generation. -/
theorem Move.published_none {φ φ' : Phase} {m m' : Shared} {a : Action} (h : Move φ m a φ' m')
    (hnone : m.workspace.published = none) (ha : a.published? = none) :
    m'.workspace.published = none := by
  cases h with
  | publish => cases ha
  | take _ => rfl
  | takeNone _ => rfl
  | _ => exact hnone

/-- Taking the stored generation out leaves none. -/
theorem Move.published_of_take {φ φ' : Phase} {m m' : Shared} {previous : Option Nat}
    (h : Move φ m (.take previous) φ' m') : m'.workspace.published = none := by
  cases h <;> rfl

/-- If nothing is published, nothing is current. -/
theorem current_eq_none {w : Workspace} (h : w.published = none) : w.current = none := by
  rw [current, h]
  rfl

namespace System

variable {ι : Type} [DecidableEq ι] {s s' : System ι} {t u : Trace ι}

/-- **What is retired stays retired.** -/
theorem Run.retired_subset (h : s.Run u s') : s.workspace.retired ⊆ s'.workspace.retired := by
  induction h with
  | nil => exact List.Subset.refl _
  | cons first _ ih =>
      cases first with
      | move _ hmove => exact fun _ hn => ih (hmove.retired_subset hn)

/-- As long as nothing is published nothing is stored, and whoever looks finds nothing. -/
theorem Run.hidden (h : s.Run u s') (hnone : s.workspace.published = none) (hu : u.published = []) :
    s'.workspace.published = none ∧ ∀ j answer, (j, .look answer) ∈ u → answer = none := by
  induction h with
  | nil => exact ⟨hnone, nofun⟩
  | @cons s s₁ s' e u first _ ih =>
      cases first with
      | @move i a before after m hphase hmove =>
          have hsplit : Trace.published ([(i, a)] ++ u) = [] := hu
          rw [Trace.published_append, List.append_eq_nil_iff] at hsplit
          have ha : a.published? = none := by simpa using hsplit.1
          obtain ⟨hend, hlooks⟩ := ih (hmove.published_none hnone ha) hsplit.2
          refine ⟨hend, fun j answer hlook => ?_⟩
          rcases List.mem_cons.mp hlook with heq | hlook
          · obtain ⟨-, rfl⟩ := Prod.mk.inj heq
            cases hmove with
            | look => exact current_eq_none hnone
          · exact hlooks j answer hlook

/-- What is promised about a moment of a workspace, given what was done so far. -/
structure Safe (s : System ι) (t : Trace ι) : Prop where
  /-- One build at most is in flight, and no shutdown beside it. -/
  alone : ∀ i j, (s.phase i).inside = true → (s.phase j).inside = true → i = j
  /-- What is stored is not retired, and no build produced a later generation. -/
  stored : ∀ n, s.workspace.published = some n →
    s.workspace.isRetired n = false ∧ n ∈ t.produced ∧ ∀ m ∈ t.produced, m ≤ n
  /-- Numbers grow. -/
  numbers : t.issued.Pairwise (· < ·)
  /-- A build uses up the number it got, however it ends. -/
  used : t.endings.map (·.1) = t.issued ∨
    ∃ i n, s.phase i = .building n ∧ t.endings.map (·.1) ++ [n] = t.issued
  /-- Before a build compiles, everything that was published is retired. -/
  retired : ∀ i n, s.phase i = .building n → ∀ m ∈ t.published, s.workspace.isRetired m = true
  /-- What was published and is not stored any more is retired for ever, unless the thread that took
  it out is just about to retire it. -/
  withdrawn : ∀ n ∈ t.published, s.workspace.published ≠ some n →
    (∃ i job, s.phase i = .taken job n) ∨ ∀ u s', s.Run u s' → s'.workspace.isRetired n = true
  /-- Nothing is current from a withdrawal to the next publication. -/
  hidden : ∀ (u v : Trace ι) (i : ι) previous, t = u ++ (i, .take previous) :: v → v.published = [] →
    s.workspace.current = none ∧ ∀ j answer, (j, .look answer) ∈ v → answer = none
  /-- After a build that failed or panicked, once the lock is free and nothing was published since, the
  workspace is like new. -/
  renewed : ∀ (u v : Trace ι) (i : ι) n halt, t = u ++ (i, .finish n (.error halt)) :: v → v.published = [] →
    s.workspace.busy = false → s.LikeNew t.issued.length

/-- A workspace at its start, with threads that have not called yet. -/
def start (ι : Type) (w : Workspace) : System ι := { workspace := w.fresh }

/-- Every run from the start is sound. -/
theorem sound_run {w : Workspace} (h : (start ι w).Run t s) : s.Sound t :=
  Sound.run ⟨.idle, .free rfl fun _ => rfl, .start rfl rfl rfl⟩ h

/-- A build that failed or panicked leaves nothing stored. -/
theorem published_none_of_error {w : Workspace} {i : ι} {n : Nat} {halt : Halt}
    (h : (start ι w).Run t s) (hstep : s.Step (i, .finish n (.error halt)) s') :
    s'.workspace.published = none := by
  obtain ⟨φ, hholder, hfits⟩ := sound_run h
  cases hstep with
  | move hphase hmove =>
      cases hmove with
      | finish _ =>
          have hφ := hholder.eq (congrArg Phase.inside hphase)
          exact hfits.hidden (congrArg Phase.hides (hφ.trans hphase))

/-- **Workspaces are safe under any interleaving.** -/
theorem safe_run {w : Workspace} (h : (start ι w).Run t s) : s.Safe t := by
  have hsound := sound_run h
  obtain ⟨φ, hholder, hfits⟩ := hsound
  constructor
  case alone => exact fun i j hi hj => hholder.alone hj hi
  case stored =>
    intro n hn
    refine ⟨?_, hfits.latest n (.inl hn)⟩
    have hnot : n ∉ s.workspace.retired := fun hmem => ((hfits.retired n).mp hmem).2.1 hn
    simpa [isRetired] using hnot
  case numbers => exact hfits.pairwise_issued
  case used =>
    have hendings := hfits.endings
    cases hholder with
    | free _ _ => exact .inl (hendings.trans (List.append_nil _)).symm
    | @held _ i _ hphase _ _ =>
        cases φ with
        | building n => exact .inr ⟨i, n, hphase, hendings.symm⟩
        | _ => exact .inl (hendings.trans (List.append_nil _)).symm
  case retired =>
    intro i n hphase m hm
    have hφ : φ = .building n := (hholder.eq (congrArg Phase.inside hphase)).trans hphase
    subst hφ
    have hmem : m ∈ s.workspace.retired :=
      (hfits.retired m).mpr ⟨hm, by rw [hfits.hidden rfl]; nofun, nofun⟩
    simpa [isRetired] using hmem
  case withdrawn =>
    intro n hn hstored
    by_cases hpending : φ.pending? = some n
    · left
      cases hholder with
      | free _ _ => cases hpending
      | @held _ i _ hphase _ _ =>
          cases φ with
          | taken job m =>
              obtain rfl := Option.some.inj hpending
              exact ⟨i, job, hphase⟩
          | _ => cases hpending
    · right
      intro u s' hrun
      have hmem := hrun.retired_subset ((hfits.retired n).mpr ⟨hn, hstored, hpending⟩)
      simpa [isRetired] using hmem
  case hidden =>
    rintro u v i previous rfl hv
    obtain ⟨s₁, -, hrest⟩ := run_append.mp h
    cases hrest with
    | cons first rest =>
        cases first with
        | move _ hmove =>
            obtain ⟨hend, hlooks⟩ := rest.hidden hmove.published_of_take hv
            exact ⟨current_eq_none hend, hlooks⟩
  case renewed =>
    rintro u v i n halt rfl hv hfree
    obtain ⟨s₁, hbefore, hrest⟩ := run_append.mp h
    cases hrest with
    | cons first rest =>
        obtain ⟨hend, -⟩ := rest.hidden (published_none_of_error hbefore first) hv
        exact (sound_run h).likeNew hend hfree

namespace TwoThreads

/-- The first build is published.  The second one panics, while the other thread looks for a generation
and is refused a build.  The third one takes the poisoned lock. -/
def trace : Trace Bool := [
  (true, .call .rebuild), (true, .lock), (true, .take none), (true, .issue 1),
  (true, .finish 1 (.ok ())), (true, .publish 1), (true, .unlock),
  (true, .call .rebuild), (true, .lock), (true, .take (some 1)), (false, .call .current),
  (true, .retire 1), (false, .look none), (true, .issue 2), (false, .call .tryRebuild),
  (false, .refuse), (true, .finish 2 (.error .crashed)), (true, .unlock),
  (false, .call .tryRebuild), (false, .lock), (false, .take none), (false, .issue 3),
  (false, .finish 3 (.ok ())), (false, .publish 3), (false, .unlock)]

/-- A run in which a build panics, and the next one publishes its generation all the same. -/
theorem run (w : Workspace) : ∃ s, (start Bool w).Run trace s ∧ s.poisoned = true ∧
    s.workspace.current = some 3 ∧ s.workspace.isRetired 1 = true := by
  refine ⟨_,
    .cons (.move rfl (.call _)) <| .cons (.move rfl (.lock rfl rfl)) <|
    .cons (.move rfl (.takeNone rfl)) <| .cons (.move rfl .issue) <|
    .cons (.move rfl (.finish _)) <| .cons (.move rfl .publish) <| .cons (.move rfl .unlock) <|
    .cons (.move rfl (.call _)) <| .cons (.move rfl (.lock rfl rfl)) <|
    .cons (.move rfl (.take rfl)) <| .cons (.move rfl (.call _)) <| .cons (.move rfl .retire) <|
    .cons (.move rfl .look) <| .cons (.move rfl .issue) <| .cons (.move rfl (.call _)) <|
    .cons (.move rfl (.refuse rfl)) <| .cons (.move rfl (.finish _)) <|
    .cons (.move rfl .unlock) <| .cons (.move rfl (.call _)) <|
    .cons (.move rfl (.lock rfl rfl)) <| .cons (.move rfl (.takeNone rfl)) <|
    .cons (.move rfl .issue) <| .cons (.move rfl (.finish _)) <| .cons (.move rfl .publish) <|
    .cons (.move rfl .unlock) <| .nil, ?_⟩
  exact ⟨rfl, rfl, rfl⟩

/-- A panic in the middle does no harm. -/
theorem safe_run_two_threads : ∃ (w : Workspace) (s : System Bool), (start Bool w).Run trace s ∧
    trace.endings = [(1, .ok ()), (2, .error .crashed), (3, .ok ())] ∧ s.poisoned = true ∧
      s.workspace.current = some 3 ∧ s.workspace.isRetired 1 = true ∧ s.Safe trace := by
  let w : Workspace :=
    { host := .empty, settings := {}, sourceRoot := .ofString "src", outputRoot := .ofString "out" }
  obtain ⟨s, hrun, hpoisoned, hcurrent, hretired⟩ := run w
  exact ⟨w, s, hrun, rfl, hpoisoned, hcurrent, hretired, safe_run hrun⟩

end TwoThreads

end System

end Workspace

end LiveUnits
