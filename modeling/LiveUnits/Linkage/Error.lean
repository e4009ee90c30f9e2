import LiveUnits.Linkage.Metadata
import LiveUnits.Container.Basic
import LiveUnits.Wasm.Types

/-!
# Why linking and resolving fail

A name cannot be resolved, or the bytes under it cannot be linked; and linking fails when a name that
the unit refers to cannot be resolved.  The two kinds of errors contain each other.
-/

namespace LiveUnits

mutual

/-- Why the bytes of a unit cannot be turned into a linked unit. -/
inductive LinkageError where
  /-- The bytes are no valid module. -/
  | malformed (name : Identity) (reason : Wasm.Malformation)
  /-- A metadata section is unusable. -/
  | invalidMetadata (name : Identity) (reason : MetadataFault)
  /-- The supertype could not be resolved. -/
  | unresolvedSupertype (name supertype : Identity) (cause : ResolveError)
  /-- An import is from a module whose name is no identity. -/
  | invalidDependency (name : Identity) (moduleName : String)
  /-- A unit that is imported from could not be resolved. -/
  | unresolvedDependency (name dependency : Identity) (cause : ResolveError)
  /-- A dependency does not export an item that is imported, or exports one of another kind. -/
  | missingImport (name dependency : Identity) (item : String) (kind : Wasm.Kind)
  /-- A reference led back to a unit that is still being linked. -/
  | loopDetected (chain : List Identity)

/-- Why a name cannot be resolved. -/
inductive ResolveError where
  /-- Neither a container nor the host has a unit of this name. -/
  | notFound (name : Identity)
  /-- The bytes were found but could not be linked. -/
  | linkage (error : LinkageError)
  /-- A container could not be read. -/
  | container (error : ContainerError)
  /-- The loader broke down before. -/
  | lockRejected

end

mutual

/-- The text of a linkage error. -/
def LinkageError.message (w : Wording) : LinkageError → String
  | .malformed name reason => s!"Malformed unit '{name.text}': {w.malformed reason}"
  | .invalidMetadata name reason => s!"Invalid metadata in '{name.text}': {reason.message}"
  | .unresolvedSupertype name supertype cause =>
    s!"Supertype '{supertype.text}' of '{name.text}' could not be resolved: {cause.message w}"
  | .invalidDependency name moduleName =>
    s!"Import module '{moduleName}' of '{name.text}' is not a valid identity"
  | .unresolvedDependency name dependency cause =>
    s!"Dependency '{dependency.text}' of '{name.text}' could not be resolved: {cause.message w}"
  | .missingImport name dependency item kind =>
    s!"'{name.text}' imports '{item}' from '{dependency.text}', which exports no such {kind.text}"
  | .loopDetected chain => "Loop detected linking: " ++ " -> ".intercalate (chain.map Identity.text)

/-- The text of a resolve error. -/
def ResolveError.message (w : Wording) : ResolveError → String
  | .notFound name => s!"Not found: {name.text}"
  | .linkage error => s!"Linkage failure: {error.message w}"
  | .container error => s!"Container error: {error.message w}"
  | .lockRejected => "Lock Rejected"

end

mutual

/-- The root of the container that broke down, if the error goes back to one. -/
def LinkageError.crash? : LinkageError → Option Path
  | .unresolvedSupertype _ _ cause => cause.crash?
  | .unresolvedDependency _ _ cause => cause.crash?
  | _ => none

/-- The root of the container that broke down, if the error goes back to one. -/
def ResolveError.crash? : ResolveError → Option Path
  | .linkage error => error.crash?
  | .container (.crashed root) => some root
  | _ => none

end

end LiveUnits
