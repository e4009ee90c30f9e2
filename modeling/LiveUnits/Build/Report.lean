import LiveUnits.Catalog
import LiveUnits.Compiler.Basic
import LiveUnits.Loader.Session

/-!
# What a build reports

A build that gets through leaves a generation: the loader over its output, the catalog, and the list
of everything that went wrong with single files.  Only faults of the roots themselves end a build
without one.
-/

namespace LiveUnits

/-- A source file that gave no artifact. -/
structure CompileFailure where
  path : Path
  /-- The identity that the path spells, if it spells one. -/
  identity : Option Identity
  /-- Why there is no artifact. -/
  error : CompileError

/-- The text of a compile failure. -/
def CompileFailure.message (f : CompileFailure) : String :=
  s!"Failed to compile '{f.path.display}': {f.error.message}"

/-- A source file whose artifact could not be linked. -/
structure LinkFailure where
  identity : Identity
  sourceFile : Path
  /-- Why the identity cannot be resolved. -/
  error : ResolveError

/-- The text of a link failure. -/
def LinkFailure.message (w : Wording) (f : LinkFailure) : String :=
  s!"Failed to link '{f.identity.text}' (from '{f.sourceFile.display}'): {f.error.message w}"

/-- What goes wrong with a build without failing any file of it. -/
inductive BuildWarning where
  /-- A container could not be opened and is left out. -/
  | containerSkipped (error : ContainerError)
  /-- A part of the source tree could not be read. -/
  | discovery (issue : DiscoveryIssue)

/-- The text of a warning. -/
def BuildWarning.message (w : Wording) : BuildWarning → String
  | containerSkipped error => s!"Container skipped: {error.message w}"
  | discovery issue => issue.message

/-- Why there is no build. -/
inductive BuildError where
  /-- Room for the artifacts could not be made. -/
  | outputPreparation (path : Path) (fault : Fault)
  /-- The source root cannot be read. -/
  | sourceDiscovery (path : Path) (fault : Fault)
  /-- The source root lies inside the output root. -/
  | overlappingRoots (sourceRoot outputRoot : Path)
  /-- Another build is running. -/
  | buildInProgress
  deriving DecidableEq

/-- The text of a build error. -/
def BuildError.message : BuildError → String
  | outputPreparation path fault =>
    s!"Failed to prepare output directory '{path.display}': {fault.message}"
  | sourceDiscovery path fault =>
    s!"Failed to read source directory '{path.display}': {fault.message}"
  | overlappingRoots sourceRoot outputRoot =>
    s!"Source directory '{sourceRoot.display}' lies inside output directory '{outputRoot.display}'"
  | buildInProgress => "A build is already in progress"

/-- What ends a build before its time. -/
inductive Halt where
  | error (e : BuildError)
  /-- The compiler or a container broke down, or the extension of artifacts names no place. -/
  | crashed
  deriving DecidableEq

/-- A finished build. -/
structure Generation where
  number : Nat
  /-- The loader over the output and the libraries. -/
  session : Session
  catalog : Catalog
  /-- The source files without an artifact, in the order of their paths. -/
  failedSources : List CompileFailure
  /-- The artifacts that could not be linked, in the order of their identities. -/
  failedLinks : List LinkFailure
  /-- What else went wrong. -/
  warnings : List BuildWarning

/-- Whether every source file is in the catalog. -/
def Generation.isClean (g : Generation) : Bool := g.failedSources.isEmpty && g.failedLinks.isEmpty

end LiveUnits
