import LiveUnits.Proofs.Build.Artifacts

/-!
# The calls of the compiler

Source files are handed to the compiler one after the other.  `Build.Reached` tells which unit is next
at which moment, and `Build.Called` what the compiler said about a unit and what it left behind.  If
all source files get through, every one was called and its outcome is what was seen after the call
(`Build.exists_called`); if not, the first unit that did not get through was reached
(`Build.exists_reached_of_error`).  What the calls keep of the compiler's state, a build keeps
(`Build.state_run`).

A confined compiler that starts with an empty output root finds everything ready at every call
(`Build.ready_reached`), and what a call left is there to the end (`Build.kept_called`).
-/

namespace LiveUnits

namespace Build

open FileSystem

variable {σ : Type}

/-- Makes the directories above an artifact. -/
def makeRoom (artifact : Path) : Work σ Unit :=
  match artifact.parent? with
  | some parent => prepare parent (·.makeDirectories parent)
  | none => pure ()

/-- **Compiling a unit** is making room for its artifact and then calling the compiler. -/
theorem compile_eq (c : Compiler σ) (b : Build) (u : SourceUnit) :
    b.compile c u =
      match u.identity.artifactPath? b.outputRoot b.settings.artifactExtension with
      | none => throw .crashed
      | some artifact => makeRoom artifact >>= fun _ => invoke c ⟨u, b.outputRoot, artifact⟩ := by
  unfold compile makeRoom
  cases u.identity.artifactPath? b.outputRoot b.settings.artifactExtension with
  | none => rfl
  | some artifact =>
      simp only
      cases artifact.parent? with
      | none => rfl
      | some parent => rfl

/-- The units before `u` got through, and `u` is next. -/
inductive Reached (c : Compiler σ) (b : Build) :
    List SourceUnit → Site σ → SourceUnit → Site σ → Prop
  | now {u : SourceUnit} {rest : List SourceUnit} {site : Site σ} :
      Reached c b (u :: rest) site u site
  | later {u v : SourceUnit} {rest : List SourceUnit} {site between before : Site σ}
      {outcome : Option CompileError} (h : b.compile c u site = (.ok outcome, between))
      (next : Reached c b rest between v before) : Reached c b (u :: rest) site v before

/-- The compiler was called for a unit, gave a verdict and left something behind. -/
structure Called (c : Compiler σ) (b : Build) (units : List SourceUnit) (site : Site σ)
    (u : SourceUnit) (artifact : Path) (ready : Site σ) (verdict : Verdict) (left : Site σ) :
    Prop where
  /-- The unit was reached, and there was room for its artifact. -/
  reached : ∃ before, Reached c b units site u before ∧
    makeRoom artifact before = (.ok (), ready)
  /-- The artifact was to be put where artifacts of the unit belong. -/
  artifact_eq : u.identity.artifactPath? b.outputRoot b.settings.artifactExtension = some artifact
  /-- The call. -/
  call : c ⟨u, b.outputRoot, artifact⟩ ready = (verdict, left)

/-- The outcome of a call is what can be seen at the place of the artifact afterwards. -/
def Shows (artifact : Path) (fs : FileSystem) (verdict : Verdict) : Option CompileError → Prop
  | none => inspect artifact fs verdict = .compiled
  | some e => inspect artifact fs verdict = .failed e

section Calls

variable {c : Compiler σ} {b : Build} {units : List SourceUnit} {u : SourceUnit}
  {site site' : Site σ}

/-- Only the units of a build are reached. -/
theorem Reached.mem {before : Site σ} (h : Reached c b units site u before) : u ∈ units := by
  induction h with
  | now => exact List.mem_cons_self
  | later _ _ ih => exact List.mem_cons_of_mem _ ih

/-- A unit is reached at one moment only. -/
theorem Reached.unique (hdistinct : (units.map (·.identity)).Nodup) {before before' : Site σ}
    (h : Reached c b units site u before) (h' : Reached c b units site u before') :
    before = before' := by
  induction h with
  | @now u rest site =>
      cases h' with
      | now => rfl
      | later _ next => exact absurd (List.mem_map_of_mem next.mem) (List.nodup_cons.mp hdistinct).1
  | @later v u rest site between before outcome hcompile next ih =>
      cases h' with
      | now => exact absurd (List.mem_map_of_mem next.mem) (List.nodup_cons.mp hdistinct).1
      | later hcompile' next' =>
          obtain ⟨-, rfl⟩ := Prod.mk.inj (hcompile.symm.trans hcompile')
          exact ih (List.nodup_cons.mp hdistinct).2 next'

/-- There is one call for a unit. -/
theorem Called.unique (hdistinct : (units.map (·.identity)).Nodup) {artifact artifact' : Path}
    {ready ready' left left' : Site σ} {verdict verdict' : Verdict}
    (h : Called c b units site u artifact ready verdict left)
    (h' : Called c b units site u artifact' ready' verdict' left') :
    artifact = artifact' ∧ verdict = verdict' ∧ left = left' := by
  obtain ⟨⟨before, hreached, hroom⟩, hartifact, hcall⟩ := h
  obtain ⟨⟨before', hreached', hroom'⟩, hartifact', hcall'⟩ := h'
  obtain rfl := Option.some.inj (hartifact.symm.trans hartifact')
  obtain rfl := hreached.unique hdistinct hreached'
  obtain ⟨-, rfl⟩ := Prod.mk.inj (hroom.symm.trans hroom')
  obtain ⟨rfl, rfl⟩ := Prod.mk.inj (hcall.symm.trans hcall')
  exact ⟨rfl, rfl, rfl⟩

/-- A call in the rest of a build is a call in the build. -/
theorem Called.later {v : SourceUnit} {between ready left : Site σ} {outcome : Option CompileError}
    (h : b.compile c v site = (.ok outcome, between)) {artifact : Path} {verdict : Verdict}
    (hcalled : Called c b units between u artifact ready verdict left) :
    Called c b (v :: units) site u artifact ready verdict left := by
  obtain ⟨⟨before, hreached, hroom⟩, hartifact, hcall⟩ := hcalled
  exact ⟨⟨before, .later h hreached, hroom⟩, hartifact, hcall⟩

/-- What an accepted or rejected call leaves, before and after the clean-up. -/
theorem shows_of_invoke {artifact : Path} {outcome : Option CompileError}
    (h : invoke c ⟨u, b.outputRoot, artifact⟩ site = (.ok outcome, site')) :
    ∃ verdict left, c ⟨u, b.outputRoot, artifact⟩ site = (verdict, left) ∧
      Shows artifact left.files verdict outcome ∧ (outcome = none → left = site') := by
  unfold invoke at h
  generalize c ⟨u, b.outputRoot, artifact⟩ site = call at h ⊢
  obtain ⟨verdict, left⟩ := call
  refine ⟨verdict, left, rfl, ?_⟩
  simp only at h
  split at h
  · next hverdict =>
    obtain ⟨houtcome, hsite⟩ := Prod.mk.inj h
    obtain rfl := Except.ok.inj houtcome
    exact ⟨hverdict, fun _ => hsite⟩
  · cases h
  · next e hverdict =>
    obtain ⟨⟨⟩, discarded, -, hend⟩ := Attempt.ok_of_bind h
    obtain rfl := Except.ok.inj (Prod.mk.inj hend).1
    exact ⟨hverdict, nofun⟩

/-- A unit that got through was called. -/
theorem called_of_compile {outcome : Option CompileError}
    (h : b.compile c u site = (.ok outcome, site')) (rest : List SourceUnit) :
    ∃ artifact ready verdict left, Called c b (u :: rest) site u artifact ready verdict left ∧
      Shows artifact left.files verdict outcome ∧ (outcome = none → left = site') := by
  rw [compile_eq] at h
  split at h
  · cases h
  · next artifact hartifact =>
    obtain ⟨⟨⟩, ready, hroom, hinvoke⟩ := Attempt.ok_of_bind h
    obtain ⟨verdict, left, hcall, hshows⟩ := shows_of_invoke hinvoke
    exact ⟨artifact, ready, verdict, left, ⟨⟨site, .now, hroom⟩, hartifact, hcall⟩, hshows⟩

/-- **If all units got through, every one was called**, and its outcome is what was seen then. -/
theorem exists_called {outcomes : List (SourceUnit × Option CompileError)}
    (h : b.compileAll c units site = (.ok outcomes, site')) {outcome : Option CompileError}
    (hu : (u, outcome) ∈ outcomes) :
    ∃ artifact ready verdict left, Called c b units site u artifact ready verdict left ∧
      Shows artifact left.files verdict outcome := by
  induction units generalizing site outcomes with
  | nil =>
      obtain ⟨houtcomes, -⟩ := Prod.mk.inj h
      obtain rfl := Except.ok.inj houtcomes
      cases hu
  | cons v rest ih =>
      obtain ⟨first, between, hfirst, hbind⟩ := Attempt.ok_of_bind h
      obtain ⟨others, last, hothers, hend⟩ := Attempt.ok_of_bind hbind
      obtain ⟨houtcomes, rfl⟩ := Prod.mk.inj hend
      obtain rfl := Except.ok.inj houtcomes
      rcases List.mem_cons.mp hu with hsame | hu
      · obtain ⟨rfl, rfl⟩ := Prod.mk.inj hsame
        obtain ⟨artifact, ready, verdict, left, hcalled, hshows, -⟩ := called_of_compile hfirst rest
        exact ⟨artifact, ready, verdict, left, hcalled, hshows⟩
      · obtain ⟨artifact, ready, verdict, left, hcalled, hshows⟩ := ih hothers hu
        exact ⟨artifact, ready, verdict, left, hcalled.later hfirst, hshows⟩

/-- **If not all units get through, there is a first one that does not.** -/
theorem exists_reached_of_error {halt : Halt}
    (h : b.compileAll c units site = (.error halt, site')) :
    ∃ u before, Reached c b units site u before ∧ b.compile c u before = (.error halt, site') := by
  induction units generalizing site with
  | nil => cases h
  | cons v rest ih =>
      rcases Attempt.error_of_bind h with hfirst | ⟨outcome, between, hfirst, hbind⟩
      · exact ⟨v, site, .now, hfirst⟩
      · rcases Attempt.error_of_bind hbind with hothers | ⟨others, last, -, hend⟩
        · obtain ⟨u, before, hreached, herror⟩ := ih hothers
          exact ⟨u, before, .later hfirst hreached, herror⟩
        · cases hend

/-- A preparation fails with the fault of the change. -/
theorem error_of_prepare {p : Path} {f : FileSystem → Change} {halt : Halt}
    (h : prepare p f site = (.error halt, site')) :
    ∃ fault, (f site.files).fault = some fault ∧ halt = .error (.outputPreparation p fault) := by
  unfold prepare at h
  simp only at h
  split at h
  · cases h
  · next fault hfault =>
    obtain ⟨hhalt, -⟩ := Prod.mk.inj h
    exact ⟨fault, hfault, (Except.error.inj hhalt).symm⟩

/-- A call ends a build only if the compiler breaks down, or if what a failed call left cannot be
removed. -/
theorem error_of_invoke {i : Invocation} {halt : Halt} (h : invoke c i site = (.error halt, site')) :
    ∃ verdict left, c i site = (verdict, left) ∧
      (verdict = .crashed ∧ halt = .crashed ∨
        ∃ e f, inspect i.artifact left.files verdict = .failed e ∧
          (left.files.discard i.artifact).fault = some f ∧
          halt = .error (.outputPreparation i.artifact f)) := by
  unfold invoke at h
  generalize c i site = call at h ⊢
  obtain ⟨verdict, left⟩ := call
  refine ⟨verdict, left, rfl, ?_⟩
  simp only at h
  split at h
  · cases h
  · next hverdict =>
    left
    refine ⟨?_, (Except.error.inj (Prod.mk.inj h).1).symm⟩
    unfold inspect at hverdict
    split at hverdict
    · split at hverdict <;> cases hverdict
    · exact hverdict
  · next e hverdict =>
    right
    rcases Attempt.error_of_bind h with hprepare | ⟨⟨⟩, discarded, -, hend⟩
    · obtain ⟨f, hf, hhalt⟩ := error_of_prepare hprepare
      exact ⟨e, f, hverdict, hf, hhalt⟩
    · cases hend

/-- **What can end a build at a unit**: no room can be made for its artifact, or its call ends the
build. -/
theorem error_of_compile {artifact : Path}
    (hartifact : u.identity.artifactPath? b.outputRoot b.settings.artifactExtension = some artifact)
    {halt : Halt} (h : b.compile c u site = (.error halt, site')) :
    (∃ parent f, artifact.parent? = some parent ∧ (site.files.makeDirectories parent).fault = some f ∧
        halt = .error (.outputPreparation parent f)) ∨
      ∃ ready, makeRoom artifact site = (.ok (), ready) ∧
        invoke c ⟨u, b.outputRoot, artifact⟩ ready = (.error halt, site') := by
  rw [compile_eq, hartifact] at h
  rcases Attempt.error_of_bind h with hroom | ⟨⟨⟩, ready, hroom, hinvoke⟩
  · left
    unfold makeRoom at hroom
    cases hparent : artifact.parent? with
    | none =>
        rw [hparent] at hroom
        cases hroom
    | some parent =>
        rw [hparent] at hroom
        obtain ⟨f, hf, hhalt⟩ := error_of_prepare hroom
        exact ⟨parent, f, rfl, hf, hhalt⟩
  · exact .inr ⟨ready, hroom, hinvoke⟩

end Calls

/-! ## Before the first call -/

section Phases

variable {b : Build} {site : Site σ}

/-- The output root has been prepared. -/
def cleared (b : Build) (site : Site σ) : Site σ :=
  { site with files := (site.files.clear b.outputRoot).files }

/-- **A build up to the first call**: the roots are checked, the output root is prepared, and the
source files are discovered. -/
theorem run_phases (c : Compiler σ) (b : Build) (site : Site σ) :
    b.run c site =
      if site.files.liesInside b.sourceRoot b.outputRoot then
        (.error (.error (.overlappingRoots b.sourceRoot b.outputRoot)), site)
      else
        match (site.files.clear b.outputRoot).fault with
        | some f => (.error (.error (.outputPreparation b.outputRoot f)), b.cleared site)
        | none =>
          match (b.cleared site).files.discover b.sourceRoot b.settings.sourceExtension with
          | .error f => (.error (.error (.sourceDiscovery b.sourceRoot f)), b.cleared site)
          | .ok found =>
            (b.compileAll c found.units >>= b.conclude found.issues) (b.cleared site) := by
  unfold run
  rw [Attempt.bind_run]
  by_cases hroots : site.files.liesInside b.sourceRoot b.outputRoot = true
  · have hcheck : b.checkRoots site =
        (.error (.error (.overlappingRoots b.sourceRoot b.outputRoot)), site) := if_pos hroots
    rw [hcheck, if_pos hroots]
  · have hcheck : b.checkRoots site = (.ok (), site) := if_neg hroots
    rw [hcheck, if_neg hroots]
    simp only
    rw [Attempt.bind_run]
    cases hfault : (site.files.clear b.outputRoot).fault with
    | some f =>
        have hprepare : prepare b.outputRoot (·.clear b.outputRoot) site =
            (.error (.error (.outputPreparation b.outputRoot f)), b.cleared site) := by
          simp only [prepare, hfault, cleared]
        rw [hprepare]
    | none =>
        have hprepare : prepare b.outputRoot (·.clear b.outputRoot) site = (.ok (), b.cleared site) := by
          simp only [prepare, hfault, cleared]
        rw [hprepare]
        simp only
        rw [Attempt.bind_run]
        unfold survey
        cases (b.cleared site).files.discover b.sourceRoot b.settings.sourceExtension with
        | error f => rfl
        | ok found => rfl

/-- A build that gets through went through all its phases. -/
theorem phases_of_ok {c : Compiler σ} {site' : Site σ} {g : Generation}
    (h : b.run c site = (.ok g, site')) :
    ∃ found outcomes,
      (b.cleared site).files.discover b.sourceRoot b.settings.sourceExtension = .ok found ∧
      b.compileAll c found.units (b.cleared site) = (.ok outcomes, site') ∧
      b.finish site'.files found.issues outcomes = .ok g := by
  rw [run_phases] at h
  split at h
  · cases h
  · split at h
    · cases h
    · split at h
      · cases h
      · next found hfound =>
        obtain ⟨outcomes, compiled, hcompile, hend⟩ := Attempt.ok_of_bind h
        obtain ⟨hfinish, rfl⟩ := Prod.mk.inj hend
        exact ⟨found, outcomes, hfound, hcompile, hfinish⟩

/-- A generation has the number of its build. -/
theorem number_of_ok {c : Compiler σ} {site' : Site σ} {g : Generation}
    (h : b.run c site = (.ok g, site')) : g.number = b.number := by
  obtain ⟨found, outcomes, -, -, hfinish⟩ := phases_of_ok h
  unfold finish at hfinish
  simp only at hfinish
  split at hfinish
  · cases hfinish
  · obtain rfl := Except.ok.inj hfinish
    rfl

end Phases

/-! ## The state of the compiler -/

section State

variable {c : Compiler σ} {b : Build} {P : σ → Prop}

/-- A property of the state survives two steps if each of them keeps it. -/
theorem state_bind {α β : Type} {x : Work σ α} {f : α → Work σ β} {site : Site σ}
    (hx : P (x site).2.state) (hf : ∀ a between, P between.state → P (f a between).2.state) :
    P ((x >>= f) site).2.state :=
  after_bind (P := fun site => P site.state) (Q := fun site => P site.state) hx (fun _ h => h) hf

/-- Preparing a place leaves the state of the compiler alone. -/
theorem state_prepare (p : Path) (f : FileSystem → Change) (site : Site σ) :
    (prepare p f site).2.state = site.state := by
  unfold prepare
  simp only
  split <;> rfl

/-- A property of the state that every call keeps survives a call with its clean-up. -/
theorem state_invoke (hc : ∀ i before, P before.state → P (c i before).2.state) (i : Invocation)
    {site : Site σ} (h : P site.state) : P (invoke c i site).2.state := by
  have hcall := hc i site h
  unfold invoke
  generalize c i site = call at hcall ⊢
  obtain ⟨verdict, left⟩ := call
  simp only
  cases inspect i.artifact left.files verdict with
  | compiled => exact hcall
  | crashed => exact hcall
  | failed e =>
      refine state_bind ?_ fun _ between hbetween => hbetween
      rwa [state_prepare]

theorem state_compile (hc : ∀ i before, P before.state → P (c i before).2.state) (u : SourceUnit)
    {site : Site σ} (h : P site.state) : P (b.compile c u site).2.state := by
  rw [compile_eq]
  split
  · exact h
  · next artifact _ =>
    refine state_bind ?_ fun _ between hbetween => state_invoke hc _ hbetween
    unfold makeRoom
    cases artifact.parent? with
    | some parent => rwa [state_prepare]
    | none => exact h

theorem state_compileAll (hc : ∀ i before, P before.state → P (c i before).2.state)
    (units : List SourceUnit) {site : Site σ} (h : P site.state) :
    P (b.compileAll c units site).2.state := by
  induction units generalizing site with
  | nil => exact h
  | cons u rest ih =>
      refine state_bind (state_compile hc u h) fun _ between hbetween => ?_
      exact state_bind (ih hbetween) fun _ after hafter => hafter

/-- **What the calls keep of the state of the compiler, the build keeps.** -/
theorem state_run (hc : ∀ i before, P before.state → P (c i before).2.state) {site : Site σ}
    (h : P site.state) : P (b.run c site).2.state := by
  rw [run_phases]
  split
  · exact h
  · split
    · exact h
    · split
      · exact h
      · exact state_bind (state_compileAll hc _ h) fun _ between hbetween => hbetween

end State

/-! ## Calls into an empty output root -/

section Ready

variable {c : Compiler σ} {b : Build} {units : List SourceUnit} {u : SourceUnit} {L : Location}
  {pending : List Identity} {site site' : Site σ}

/-- Making room for an artifact leaves the output root ready. -/
theorem ready_makeRoom (hextension : '/' ∉ b.settings.artifactExtension.toList)
    (hready : site.files.Ready b.outputRoot L b.settings.artifactExtension pending)
    (h : makeRoom (b.artifactOf u) site = (.ok (), site')) :
    Kept site.files site'.files ∧
      site'.files.Ready b.outputRoot L b.settings.artifactExtension pending := by
  unfold makeRoom at h
  cases hparent : (b.artifactOf u).parent? with
  | none =>
      rw [hparent] at h
      obtain ⟨-, rfl⟩ := Prod.mk.inj h
      exact ⟨Kept.refl _, hready⟩
  | some parent =>
      rw [hparent] at h
      rw [ok_of_prepare h]
      exact hready.makeDirectories u.identity hextension hparent

/-- A call keeps what exists, whatever it says. -/
theorem ready_call (hc : c.Confined) (hextension : '/' ∉ b.settings.artifactExtension.toList)
    (hnew : u.identity ∉ pending)
    (hready : site.files.Ready b.outputRoot L b.settings.artifactExtension (u.identity :: pending))
    {verdict : Verdict} (h : c ⟨u, b.outputRoot, b.artifactOf u⟩ site = (verdict, site')) :
    Kept site.files site'.files ∧
      site'.files.Ready b.outputRoot L b.settings.artifactExtension pending := by
  have hapart := apart_call (i := ⟨u, b.outputRoot, b.artifactOf u⟩) hc
    (not_trailing_artifactOf hextension) fun spot hlocate =>
      hready.staged.location_artifact hextension hlocate
  rw [h] at hapart
  exact hready.of_apart hnew hapart

/-- **Everything is ready whenever a unit is reached.** -/
theorem ready_reached (hc : c.Confined) (hne : b.settings.artifactExtension.toList ≠ [])
    (hextension : '/' ∉ b.settings.artifactExtension.toList)
    (hdistinct : (units.map (·.identity)).Nodup)
    (hready : site.files.Ready b.outputRoot L b.settings.artifactExtension (units.map (·.identity)))
    {before : Site σ} (h : Reached c b units site u before) :
    ∃ pending, u.identity ∉ pending ∧
      before.files.Ready b.outputRoot L b.settings.artifactExtension (u.identity :: pending) := by
  induction h with
  | @now u rest site =>
      rw [List.map_cons] at hdistinct hready
      exact ⟨_, (List.nodup_cons.mp hdistinct).1, hready⟩
  | later hcompile _ ih =>
      obtain ⟨hnew, hrest⟩ := List.nodup_cons.mp hdistinct
      exact ih hrest (ready_compile hc hne hextension hnew hready hcompile).2.1

/-- **What an accepted call left is there to the end.** -/
theorem kept_called (hc : c.Confined) (hne : b.settings.artifactExtension.toList ≠ [])
    (hextension : '/' ∉ b.settings.artifactExtension.toList)
    (hdistinct : (units.map (·.identity)).Nodup)
    (hready : site.files.Ready b.outputRoot L b.settings.artifactExtension (units.map (·.identity)))
    {outcomes : List (SourceUnit × Option CompileError)}
    (h : b.compileAll c units site = (.ok outcomes, site')) (hu : u ∈ compiledUnits outcomes) :
    ∃ artifact ready verdict left, Called c b units site u artifact ready verdict left ∧
      inspect artifact left.files verdict = .compiled ∧ Kept left.files site'.files := by
  induction units generalizing site outcomes with
  | nil =>
      obtain ⟨houtcomes, -⟩ := Prod.mk.inj h
      obtain rfl := Except.ok.inj houtcomes
      cases hu
  | cons v rest ih =>
      obtain ⟨hnew, hrest⟩ := List.nodup_cons.mp hdistinct
      obtain ⟨first, between, hfirst, hbind⟩ := Attempt.ok_of_bind h
      obtain ⟨others, last, hothers, hend⟩ := Attempt.ok_of_bind hbind
      obtain ⟨houtcomes, rfl⟩ := Prod.mk.inj hend
      obtain rfl := Except.ok.inj houtcomes
      obtain ⟨-, hready', -⟩ := ready_compile hc hne hextension hnew hready hfirst
      have hlater : u ∈ compiledUnits others → ∃ artifact ready verdict left,
          Called c b (v :: rest) site u artifact ready verdict left ∧
            inspect artifact left.files verdict = .compiled ∧ Kept left.files last.files := by
        intro hu
        obtain ⟨artifact, ready, verdict, left, hcalled, hrest⟩ := ih hrest hready' hothers hu
        exact ⟨artifact, ready, verdict, left, hcalled.later hfirst, hrest⟩
      cases first with
      | some e => exact hlater hu
      | none =>
          rcases List.mem_cons.mp hu with rfl | hu
          · obtain ⟨artifact, ready, verdict, left, hcalled, hshows, hleft⟩ :=
              called_of_compile hfirst rest
            obtain rfl := hleft rfl
            obtain ⟨hkept, -⟩ := ready_compileAll hc hne hextension hrest hready' hothers
            exact ⟨artifact, ready, verdict, left, hcalled, hshows, hkept⟩
          · exact hlater hu

end Ready

end Build

end LiveUnits
