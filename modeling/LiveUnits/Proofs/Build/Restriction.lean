import Mathlib
import LiveUnits.Compiler.Script
import LiveUnits.Proofs.Build.Calls
import LiveUnits.Proofs.Discovery

/-!
# Only the calls of a build matter to it

A build that gets the same answers to its calls runs the same (`Build.run_congr`), whatever the compiler
would say to others.  So a compiler whose calls in a build are confined is as good as a confined one: its
restriction, which does nothing in any other call, is confined, and the build runs the same with it
(`Build.run_restricted`).

A compiler that writes its artifact and touches nothing else is an example.  It is not confined, since a
link that stands at the place of the artifact takes the writing elsewhere.  But a build that starts with an
empty output root finds nothing at the places of its artifacts, and the calls that it makes are confined
(`Build.confinedAt_called`).
-/

namespace LiveUnits

namespace Build

open FileSystem

variable {σ : Type} {c c' : Compiler σ} {b : Build} {units : List SourceUnit} {u : SourceUnit}
  {site between : Site σ}

/-! ## The same answers -/

/-- A compiler answers the calls of a build like the one that gets them. -/
def Echoes (c c' : Compiler σ) (b : Build) (units : List SourceUnit) (site : Site σ) : Prop :=
  ∀ u artifact ready verdict left, Called c b units site u artifact ready verdict left →
    c' ⟨u, b.outputRoot, artifact⟩ ready = (verdict, left)

/-- A compiler that echoes another one still does so after a unit is compiled. -/
theorem Echoes.later (h : Echoes c c' b (u :: units) site) {outcome : Option CompileError}
    (hcompile : b.compile c u site = (.ok outcome, between)) : Echoes c c' b units between :=
  fun v artifact ready verdict left hcalled => h v artifact ready verdict left (hcalled.later hcompile)

/-- Compiling a unit asks the compiler for one call. -/
theorem compile_congr (h : ∀ artifact ready,
    u.identity.artifactPath? b.outputRoot b.settings.artifactExtension = some artifact →
      makeRoom artifact site = (.ok (), ready) →
        c' ⟨u, b.outputRoot, artifact⟩ ready = c ⟨u, b.outputRoot, artifact⟩ ready) :
    b.compile c' u site = b.compile c u site := by
  rw [compile_eq, compile_eq]
  cases hartifact : u.identity.artifactPath? b.outputRoot b.settings.artifactExtension with
  | none => rfl
  | some artifact =>
      simp only
      rw [Attempt.bind_run, Attempt.bind_run]
      cases hroom : makeRoom artifact site with
      | mk outcome ready =>
          cases outcome with
          | error halt => rfl
          | ok done => simp only [invoke, h artifact ready hartifact hroom]

/-- A compiler and its echo do the same with the first unit. -/
theorem Echoes.compile_eq (h : Echoes c c' b (u :: units) site) :
    b.compile c' u site = b.compile c u site :=
  compile_congr fun artifact ready hartifact hroom =>
    h u artifact ready _ _ ⟨⟨site, .now, hroom⟩, hartifact, rfl⟩

/-- A compiler and its echo do the same with all units. -/
theorem Echoes.compileAll_eq (h : Echoes c c' b units site) :
    b.compileAll c' units site = b.compileAll c units site := by
  induction units generalizing site with
  | nil => rfl
  | cons u rest ih =>
      unfold compileAll
      rw [Attempt.bind_run, Attempt.bind_run, h.compile_eq]
      cases hcompile : b.compile c u site with
      | mk outcome between =>
          cases outcome with
          | error halt => rfl
          | ok first =>
              simp only
              rw [Attempt.bind_run, Attempt.bind_run, ih (h.later hcompile)]

/-- A compiler and its echo reach the same units at the same sites. -/
theorem Echoes.reached_iff (h : Echoes c c' b units site) {before : Site σ} :
    Reached c' b units site u before ↔ Reached c b units site u before := by
  constructor
  · intro hreached
    induction hreached with
    | now => exact .now
    | later hcompile _ ih =>
        rw [h.compile_eq] at hcompile
        exact .later hcompile (ih (h.later hcompile))
  · intro hreached
    induction hreached with
    | now => exact .now
    | later hcompile _ ih => exact .later (h.compile_eq.trans hcompile) (ih (h.later hcompile))

/-- Both get the same calls. -/
theorem Echoes.called_iff (h : Echoes c c' b units site) {artifact : Path} {ready left : Site σ}
    {verdict : Verdict} :
    Called c' b units site u artifact ready verdict left ↔
      Called c b units site u artifact ready verdict left := by
  constructor
  · rintro ⟨⟨before, hreached, hroom⟩, hartifact, hcall⟩
    have hcalled : Called c b units site u artifact ready _ _ :=
      ⟨⟨before, h.reached_iff.mp hreached, hroom⟩, hartifact, rfl⟩
    rw [h _ _ _ _ _ hcalled] at hcall
    obtain ⟨rfl, rfl⟩ := Prod.mk.inj hcall
    exact hcalled
  · intro hcalled
    obtain ⟨⟨before, hreached, hroom⟩, hartifact, -⟩ := id hcalled
    exact ⟨⟨before, h.reached_iff.mpr hreached, hroom⟩, hartifact, h _ _ _ _ _ hcalled⟩

/-- **A build that gets the same answers runs the same.** -/
theorem run_congr (h : ∀ found,
    (b.cleared site).files.discover b.sourceRoot b.settings.sourceExtension = .ok found →
      Echoes c c' b found.units (b.cleared site)) : b.run c' site = b.run c site := by
  rw [run_phases, run_phases]
  split
  · rfl
  · split
    · rfl
    · split
      · rfl
      · next found hfound => rw [Attempt.bind_run, Attempt.bind_run, (h found hfound).compileAll_eq]

end Build

/-! ## Restrictions -/

namespace Compiler

variable {σ : Type} {c : Compiler σ} {i : Invocation} {site : Site σ}

open Classical in
/-- The compiler that makes the confined calls of another one.  Any other call it refuses, and leaves
everything as it is. -/
noncomputable def restricted (c : Compiler σ) : Compiler σ := fun i site =>
  if c.ConfinedAt i site then c i site else (.failed (.missingArtifact i.artifact), site)

/-- A confined call is left as it is. -/
theorem restricted_of_confinedAt (h : c.ConfinedAt i site) : c.restricted i site = c i site := if_pos h

/-- What is left of a compiler by its restriction is confined. -/
theorem confined_restricted (c : Compiler σ) : c.restricted.Confined := by
  intro i site
  by_cases h : c.ConfinedAt i site
  · unfold ConfinedAt at h ⊢
    rwa [restricted_of_confinedAt h]
  · unfold ConfinedAt restricted
    rw [if_neg h]
    cases site.files.locate false i.artifact with
    | error f => rfl
    | ok spot => exact FileSystem.Apart.refl spot.location site.files

end Compiler

namespace Build

open FileSystem

variable {σ : Type} {c : Compiler σ} {b : Build} {units : List SourceUnit} {u : SourceUnit}
  {site : Site σ}

/-- A compiler whose calls are confined is echoed by its restriction. -/
theorem echoes_restricted (h : ∀ u artifact ready verdict left,
    Called c b units site u artifact ready verdict left → c.ConfinedAt ⟨u, b.outputRoot, artifact⟩ ready) :
    Echoes c c.restricted b units site :=
  fun u artifact ready verdict left hcalled =>
    (Compiler.restricted_of_confinedAt (h u artifact ready verdict left hcalled)).trans hcalled.call

/-- **A build whose calls are confined runs like one with a confined compiler.** -/
theorem run_restricted (h : ∀ found,
    (b.cleared site).files.discover b.sourceRoot b.settings.sourceExtension = .ok found →
      ∀ u artifact ready verdict left, Called c b found.units (b.cleared site) u artifact ready verdict left →
        c.ConfinedAt ⟨u, b.outputRoot, artifact⟩ ready) :
    b.run c.restricted site = b.run c site :=
  run_congr fun found hfound => echoes_restricted (h found hfound)

end Build

/-! ## Compilers that write their artifact -/

/-- A compiler that leaves everything as it is, or writes the artifact. -/
def Compiler.Writes {σ : Type} (c : Compiler σ) : Prop :=
  ∀ (i : Invocation) (site : Site σ), (c i site).2.files = site.files ∨
    ∃ contents, (c i site).2.files = (site.files.write i.artifact contents).files

/-- Copying writes the artifact or nothing. -/
theorem Scripts.copy_writes (i : Invocation) (fs : FileSystem) :
    (copy i fs).2 = fs ∨ ∃ contents, (copy i fs).2 = (fs.write i.artifact contents).files := by
  unfold copy
  split
  · exact .inl rfl
  · split
    · exact .inl rfl
    · next contents _ =>
      right
      refine ⟨contents, ?_⟩
      split
      · next fs' hwrite => rw [hwrite]
      · next fs' hwrite => rw [hwrite]

/-- The script that copies does just that. -/
theorem Scripts.follow_copy {σ : Type} (o : Observer σ) (i : Invocation) (site : Site σ) :
    follow o i [.copy] site = ((copy i site.files).1, { site with files := (copy i site.files).2 }) := by
  unfold follow
  simp only [bind, StateT.bind, get, getThe, MonadStateOf.get, StateT.get, set, StateT.set, pure]
  cases (copy i site.files).1 <;> rfl

/-- Without scripts, sources are copied to their artifacts. -/
theorem Scripts.writes_compiler {σ : Type} (o : Observer σ) : (compiler [] o).Writes := by
  intro i site
  have hfiles : (compiler [] o i site).2.files = (copy i site.files).2 := by
    show (follow o i [.copy] ⟨site.files, o.called i site.state⟩).2.files = _
    rw [follow_copy]
  rw [hfiles]
  exact copy_writes i site.files

namespace FileSystem

/-- Where nothing is at the place of an artifact, its path leads there whether a link at its end is
followed or not. -/
theorem Staged.locate_of_vacant {fs : FileSystem} {root : Path} {L : Location} {extension : String}
    (h : fs.Staged root L) (hextension : '/' ∉ extension.toList) {n : Identity}
    (hvacant : fs.root.get? (L ++ n.artifactNames extension) = none) {spot : Spot}
    (hlocate : fs.locateWith true false (root.descend (n.artifactNames extension)) = .ok spot) :
    fs.locateWith false false (root.descend (n.artifactNames extension)) = .ok spot := by
  refine locateWith_of_unlinked h.arrives (n.artifactNames_ne_nil extension)
    (Identity.plain_artifactNames hextension) (fun front hfront target => ?_) hlocate false
  by_cases hends : front = n.artifactNames extension
  · rw [hends, hvacant]
    exact nofun
  · exact (h.open_artifact n extension).not_link hfront hends target

end FileSystem

namespace Build

open FileSystem

variable {σ : Type} {c : Compiler σ} {b : Build} {units : List SourceUnit} {u : SourceUnit}
  {L : Location} {pending : List Identity} {site : Site σ}

/-- Writing an artifact where nothing is touches nothing else. -/
theorem confinedAt_of_writes (hwrites : c.Writes) (hextension : '/' ∉ b.settings.artifactExtension.toList)
    (hready : site.files.Ready b.outputRoot L b.settings.artifactExtension (u.identity :: pending)) :
    c.ConfinedAt ⟨u, b.outputRoot, b.artifactOf u⟩ site := by
  have htrailing : isTrailing (b.artifactOf u) = false := not_trailing_artifactOf hextension
  unfold Compiler.ConfinedAt locate
  simp only
  rw [htrailing]
  rcases hwrites ⟨u, b.outputRoot, b.artifactOf u⟩ site with hsame | ⟨contents, hwrite⟩
  · rw [hsame]
    split
    · exact Apart.refl _ _
    · rfl
  · rw [hwrite]
    rcases write_cases site.files (b.artifactOf u) contents with hsame | ⟨spot, hlocate, hfiles⟩
    · rw [hsame]
      split
      · exact Apart.refl _ _
      · rfl
    · rw [locate, htrailing] at hlocate
      rw [show site.files.locateWith false false (b.artifactOf u) = .ok spot from
        hready.staged.locate_of_vacant hextension (hready.vacant _ List.mem_cons_self) hlocate, hfiles]
      exact apart_put site.files spot.location _

/-- **Nothing is at the place of an artifact when its unit is reached**, if earlier calls wrote artifacts
only. -/
theorem ready_reached_of_writes (hwrites : c.Writes) (hne : b.settings.artifactExtension.toList ≠ [])
    (hextension : '/' ∉ b.settings.artifactExtension.toList)
    (hdistinct : (units.map (·.identity)).Nodup)
    (hready : site.files.Ready b.outputRoot L b.settings.artifactExtension (units.map (·.identity)))
    {before : Site σ} (h : Reached c b units site u before) :
    ∃ pending, u.identity ∉ pending ∧
      before.files.Ready b.outputRoot L b.settings.artifactExtension (u.identity :: pending) := by
  induction h with
  | now => exact ⟨_, (List.nodup_cons.mp hdistinct).1, hready⟩
  | @later u v rest site between before outcome hcompile _ ih =>
      obtain ⟨hnew, hrest⟩ := List.nodup_cons.mp hdistinct
      have hsame : b.compile c.restricted u site = b.compile c u site := by
        refine compile_congr fun artifact ready hartifact hroom => Compiler.restricted_of_confinedAt ?_
        rw [u.identity.artifactPath?_eq b.outputRoot hne hextension] at hartifact
        obtain rfl : b.artifactOf u = artifact := Option.some.inj hartifact
        exact confinedAt_of_writes hwrites hextension (ready_makeRoom hextension hready hroom).2
      exact ih hrest (ready_compile c.confined_restricted hne hextension hnew hready
        (hsame.trans hcompile)).2.1

/-- **The calls for writing artifacts are confined** in a build that starts with an empty output root. -/
theorem confinedAt_called (hwrites : c.Writes) (hne : b.settings.artifactExtension.toList ≠ [])
    (hextension : '/' ∉ b.settings.artifactExtension.toList)
    (hdistinct : (units.map (·.identity)).Nodup)
    (hready : site.files.Ready b.outputRoot L b.settings.artifactExtension (units.map (·.identity)))
    {artifact : Path} {ready left : Site σ} {verdict : Verdict}
    (h : Called c b units site u artifact ready verdict left) :
    c.ConfinedAt ⟨u, b.outputRoot, artifact⟩ ready := by
  obtain ⟨⟨before, hreached, hroom⟩, hartifact, -⟩ := h
  rw [u.identity.artifactPath?_eq b.outputRoot hne hextension] at hartifact
  obtain rfl : b.artifactOf u = artifact := Option.some.inj hartifact
  obtain ⟨pending, -, hbefore⟩ := ready_reached_of_writes hwrites hne hextension hdistinct hready hreached
  exact confinedAt_of_writes hwrites hextension (ready_makeRoom hextension hbefore hroom).2

/-- **A compiler that writes its artifact is as good as a confined one** in a build that starts with an
empty output root. -/
theorem run_restricted_of_writes (hwrites : c.Writes) (htidy : site.files.root.Tidy)
    (hne : b.settings.artifactExtension.toList ≠ [])
    (hextension : '/' ∉ b.settings.artifactExtension.toList)
    (hempty : (b.cleared site).files.list b.outputRoot = .ok []) :
    b.run c.restricted site = b.run c site := by
  refine run_restricted fun found hfound u artifact ready verdict left hcalled => ?_
  obtain ⟨L, hready⟩ := ready_of_empty hempty b.settings.artifactExtension (found.units.map (·.identity))
  have horderly := orderly_discover (tidy_clear htidy b.outputRoot) hfound
  exact confinedAt_called hwrites hne hextension horderly.identities_nodup hready hcalled

/-- The compiler that copies every source file to its artifact runs like its restriction. -/
theorem run_restricted_copying (o : Observer σ) (htidy : site.files.root.Tidy)
    (hne : b.settings.artifactExtension.toList ≠ [])
    (hextension : '/' ∉ b.settings.artifactExtension.toList)
    (hempty : (b.cleared site).files.list b.outputRoot = .ok []) :
    b.run (Compiler.restricted (Scripts.compiler [] o)) site = b.run (Scripts.compiler [] o) site :=
  run_restricted_of_writes (Scripts.writes_compiler o) htidy hne hextension hempty

end Build

end LiveUnits
