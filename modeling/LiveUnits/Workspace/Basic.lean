import LiveUnits.Build.Basic

/-!
# Workspaces

A workspace rebuilds one source tree on request and publishes at most one generation at a time.
Builds take turns: whoever builds holds the build lock.  A rebuild withdraws and retires the published
generation, takes the next number, builds, and publishes the new generation if there is one.  The
steps between which others may look at the workspace are functions of their own: `lock`, `take`,
`retire`, `issue`, `publish` and `unlock`.
-/

namespace LiveUnits

structure Workspace where
  host : HostUnits
  settings : Settings
  sourceRoot : Path
  /-- Where the artifacts go. -/
  outputRoot : Path
  /-- The number of the next build. -/
  nextNumber : Nat := 1
  /-- Whether somebody holds the build lock. -/
  busy : Bool := false
  /-- The number of the published generation. -/
  published : Option Nat := none
  /-- The numbers of the generations that were retired. -/
  retired : List Nat := []

namespace Workspace

/-! ## Steps -/

/-- Takes the build lock. -/
def lock (w : Workspace) : Workspace := { w with busy := true }

/-- Gives the build lock back. -/
def unlock (w : Workspace) : Workspace := { w with busy := false }

/-- Takes the published generation out. -/
def take (w : Workspace) : Option Nat × Workspace := (w.published, { w with published := none })

/-- Retires a generation. -/
def retire (w : Workspace) (number : Nat) : Workspace :=
  { w with retired := number :: w.retired }

/-- Gives out the number of a build. -/
def issue (w : Workspace) : Nat × Workspace := (w.nextNumber, { w with nextNumber := w.nextNumber + 1 })

/-- Publishes a generation. -/
def publish (w : Workspace) (number : Nat) : Workspace := { w with published := some number }

/-- Withdraws the published generation and retires it. -/
def withdraw (w : Workspace) : Workspace :=
  match w.take with
  | (some number, w') => w'.retire number
  | (none, w') => w'

/-- Whether a generation was retired. -/
def isRetired (w : Workspace) (number : Nat) : Bool := w.retired.contains number

/-- The number of the generation that can be queried. -/
def current (w : Workspace) : Option Nat := w.published.filter fun n => !w.isRetired n

/-- Withdraws the published generation, with the build lock held. -/
def shutdown (w : Workspace) : Workspace := w.lock.withdraw.unlock

/-! ## Builds -/

variable {τ : Type}

/-- What works on a workspace, on files and on a state of type `τ`. -/
abbrev Task (τ α : Type) := Build.Work (Workspace × τ) α

/-- Changes the workspace. -/
def update (f : Workspace → Workspace) (site : Site (Workspace × τ)) : Site (Workspace × τ) :=
  { site with state := (f site.state.1, site.state.2) }

/-- Builds from one root to another one, and publishes nothing. -/
def build (c : Compiler (Workspace × τ)) (sourceRoot outputRoot : Path) : Task τ Generation :=
  fun site =>
    let w := site.state.1
    let (number, w') := w.issue
    Build.run c ⟨number, w.host, w.settings, sourceRoot, outputRoot⟩ (update (fun _ => w') site)

/-- Builds with the build lock held and publishes what was built.  The published generation is
withdrawn first, and nothing takes its place if the build does not get through. -/
def rebuild (c : Compiler (Workspace × τ)) : Task τ Generation := fun site =>
  let w := site.state.1
  let (result, site') := build c w.sourceRoot w.outputRoot (update (·.lock.withdraw) site)
  match result with
  | .ok g => (.ok g, update (fun w' => (w'.publish g.number).unlock) site')
  | .error halt => (.error halt, update unlock site')

/-- Rebuilds unless a build is running. -/
def tryRebuild (c : Compiler (Workspace × τ)) : Task τ Generation := fun site =>
  if site.state.1.busy then (.error (.error .buildInProgress), site) else rebuild c site

/-- What builds the generations, as a description shows it. -/
def describe (w : Workspace) : String :=
  Description.record "BuildPipeline" [
    ("host", w.host.describe),
    ("config", w.settings.describe),
    ("next_generation", toString w.nextNumber)] true

end Workspace

end LiveUnits
