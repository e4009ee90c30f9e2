import LiveUnits.Build.Report
import LiveUnits.FileSystem.Change
import LiveUnits.Settings.Basic

/-!
# Builds

A build discovers the source files, compiles every one of them into the cleared output root, and only
then links the artifacts, so that units may refer to units which are compiled later.  A file that
cannot be compiled or linked is reported and holds up nothing else.  Whatever a failed compilation
left at the place of its artifact is removed before anything is linked.

The output root is cleared only if the source root does not lie inside it.
-/

namespace LiveUnits

/-- What is to be built. -/
structure Build where
  number : Nat
  /-- The units behind everything that is built. -/
  host : HostUnits
  settings : Settings
  sourceRoot : Path
  /-- Where the artifacts go. -/
  outputRoot : Path

namespace FileSystem

/-- The components of the place where a path leads, or those of the path itself if it leads
nowhere. -/
def placeOf (fs : FileSystem) (p : Path) : List Path.Component :=
  match fs.canonical p with
  | .ok l => .root :: l.map .name
  | .error _ => p.components

/-- Whether one path lies inside another one or leads to the same place. -/
def liesInside (fs : FileSystem) (inner outer : Path) : Bool :=
  (fs.placeOf outer).isPrefixOf (fs.placeOf inner)

/-- Leaves an empty directory at a path. -/
def clear (fs : FileSystem) (p : Path) : Change :=
  match fs.removeTree p with
  | ⟨none, fs'⟩ => fs'.makeDirectories p
  | ⟨some f, fs'⟩ => if f = .notFound then fs'.makeDirectories p else ⟨some f, fs'⟩

/-- Leaves nothing at a path. -/
def discard (fs : FileSystem) (p : Path) : Change :=
  match if fs.isDirectory p then fs.removeTree p else fs.removeFile p with
  | ⟨some f, fs'⟩ => if f = .notFound then fs'.done else ⟨some f, fs'⟩
  | gone => gone

end FileSystem

namespace Build

variable {σ : Type}

/-- A part of a build. -/
abbrev Work (σ α : Type) := Attempt (Site σ) Halt α

/-- Changes the files; a fault ends the build. -/
def prepare (p : Path) (f : FileSystem → Change) : Work σ Unit := fun site =>
  let c := f site.files
  let site' := { site with files := c.files }
  match c.fault with
  | none => (.ok (), site')
  | some fault => (.error (.error (.outputPreparation p fault)), site')

/-- What the compiler says, once the artifact has been looked for. -/
def inspect (artifact : Path) (fs : FileSystem) : Verdict → Verdict
  | .compiled => if fs.isFile artifact then .compiled else .failed (.missingArtifact artifact)
  | v => v

/-- Calls the compiler, and removes what is at the place of the artifact if the call fails. -/
def invoke (c : Compiler σ) (i : Invocation) : Work σ (Option CompileError) := fun site =>
  let (verdict, site') := c i site
  match inspect i.artifact site'.files verdict with
  | .compiled => (.ok none, site')
  | .crashed => (.error .crashed, site')
  | .failed e => (prepare i.artifact (·.discard i.artifact) *> pure (some e)) site'

/-- Compiles a source file; the error is absent if there is an artifact now. -/
def compile (c : Compiler σ) (b : Build) (u : SourceUnit) : Work σ (Option CompileError) :=
  match u.identity.artifactPath? b.outputRoot b.settings.artifactExtension with
  | none => throw .crashed
  | some artifact => do
    if let some parent := artifact.parent? then prepare parent (·.makeDirectories parent)
    invoke c ⟨u, b.outputRoot, artifact⟩

/-- Compiles source files, one after the other. -/
def compileAll (c : Compiler σ) (b : Build) :
    List SourceUnit → Work σ (List (SourceUnit × Option CompileError))
  | [] => pure []
  | u :: rest => do
    let outcome ← b.compile c u
    let others ← compileAll c b rest
    pure ((u, outcome) :: others)

/-- Resolves the identities of compiled source files. -/
def link (l : Loader) : List SourceUnit → Registry → (List CatalogEntry × List LinkFailure) × Registry
  | [], r => (([], []), r)
  | u :: rest, r =>
    match l.resolve u.identity r with
    | (.ok v, r') =>
      let ((entries, failures), r'') := link l rest r'
      ((⟨v, some u.path⟩ :: entries, failures), r'')
    | (.error e, r') =>
      let ((entries, failures), r'') := link l rest r'
      ((entries, ⟨u.identity, u.path, e⟩ :: failures), r'')

/-- The source files that issues take out of a build. -/
def refused (issues : List DiscoveryIssue) : List CompileFailure :=
  issues.filterMap fun
    | .invalidIdentity path error => some ⟨path, none, .invalidIdentity error⟩
    | .unreadableDirectory _ _ => none

/-- The issues that take no source file out of a build. -/
def overlooked (issues : List DiscoveryIssue) : List BuildWarning :=
  issues.filterMap fun
    | .invalidIdentity _ _ => none
    | .unreadableDirectory path fault => some (.discovery (.unreadableDirectory path fault))

/-- The session over the output and the libraries, and what cannot be opened of them. -/
def openSession (b : Build) (fs : FileSystem) : Session × List ContainerError :=
  let (media, skipped) := Medium.openAll fs (b.outputRoot :: b.settings.libraries)
  ({ number := b.number, media, host := b.host
     artifactExtension := b.settings.artifactExtension }, skipped)

/-- The source files with an artifact. -/
def compiledUnits (outcomes : List (SourceUnit × Option CompileError)) : List SourceUnit :=
  (outcomes.filter (·.2.isNone)).map (·.1)

/-- The source files that were handed to the compiler and gave no artifact. -/
def rejected (outcomes : List (SourceUnit × Option CompileError)) : List CompileFailure :=
  outcomes.filterMap fun (u, outcome) => outcome.map fun e => ⟨u.path, some u.identity, e⟩

/-- Links what was compiled, and reports on everything.  A container that breaks down takes the
build with it. -/
def finish (b : Build) (fs : FileSystem) (issues : List DiscoveryIssue)
    (outcomes : List (SourceUnit × Option CompileError)) : Except Halt Generation :=
  let (session, skipped) := b.openSession fs
  let loader := session.loader fs
  let compiled := compiledUnits outcomes
  let ((entries, failedLinks), linked) := link loader compiled {}
  let (catalog, registry) := Catalog.make loader entries linked
  if loader.breaksDown (compiled.map (·.identity)) {}
      || loader.breaksDown (Catalog.uncompiled loader catalog.compiled) linked then
    .error .crashed
  else .ok {
    number := b.number
    session := { session with registry }
    catalog
    failedSources :=
      (refused issues ++ rejected outcomes).mergeSort fun x y => x.path.compare y.path != .gt
    failedLinks := failedLinks.mergeSort fun x y => x.identity.compare y.identity != .gt
    warnings := overlooked issues ++ skipped.map .containerSkipped }

/-- Refuses roots of which the source root lies inside the output root. -/
def checkRoots (b : Build) : Work σ Unit := fun site =>
  if site.files.liesInside b.sourceRoot b.outputRoot then
    (.error (.error (.overlappingRoots b.sourceRoot b.outputRoot)), site)
  else (.ok (), site)

/-- Discovers the source files. -/
def survey (b : Build) : Work σ Findings := fun site =>
  match site.files.discover b.sourceRoot b.settings.sourceExtension with
  | .error f => (.error (.error (.sourceDiscovery b.sourceRoot f)), site)
  | .ok found => (.ok found, site)

/-- Links and reports over the files as they are now. -/
def conclude (b : Build) (issues : List DiscoveryIssue)
    (outcomes : List (SourceUnit × Option CompileError)) : Work σ Generation := fun site =>
  (b.finish site.files issues outcomes, site)

def run (c : Compiler σ) (b : Build) : Work σ Generation := do
  b.checkRoots
  prepare b.outputRoot (·.clear b.outputRoot)
  let found ← b.survey
  let outcomes ← b.compileAll c found.units
  b.conclude found.issues outcomes

end Build

end LiveUnits
