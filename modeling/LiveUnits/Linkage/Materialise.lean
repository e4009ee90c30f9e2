import LiveUnits.Linkage.Error
import LiveUnits.Linkage.LinkedUnit
import LiveUnits.Wasm.Image

/-!
# Materialising units

Bytes become a linked unit in a fixed order: the metadata are read, the module is validated, the
supertype is resolved, the names of the modules imported from are checked and then resolved in the
order of the first import from each, and at last every import is looked for among the exports of its
dependency.  Names are resolved through a function that may change a state.
-/

namespace LiveUnits

/-- A computation that changes a state of type `σ` and may fail without undoing that. -/
abbrev Attempt (σ ε α : Type) := ExceptT ε (StateM σ) α

/-- How names are resolved. -/
abbrev Resolving (σ : Type) := Identity → Attempt σ ResolveError LinkedUnit

namespace Linkage

variable {σ : Type}

/-- What the bytes of a unit say about it. -/
structure Declared where
  metadata : Metadata
  /-- The imports and exports. -/
  interface : Wasm.Interface

/-- Reads the bytes of a unit: first the metadata, then the module as a whole. -/
def declared (name : Identity) (bytes : Bytes) : Except LinkageError Declared := do
  let image ← (Wasm.Image.read bytes).mapError (.malformed name)
  let metadata ← (Metadata.read image.sections).mapError fun
    | .malformed m => .malformed name m
    | .invalid fault => .invalidMetadata name fault
  let interface ← image.interface.mapError (.malformed name)
  pure ⟨metadata, interface⟩

/-- How a failed reference shows in the error of the unit that makes it: a loop as it is, and
everything else as the cause of another error. -/
def blame (wrap : ResolveError → LinkageError) : ResolveError → LinkageError
  | .linkage (.loopDetected chain) => .loopDetected chain
  | e => wrap e

/-- Resolves a reference. -/
def follow (resolve : Resolving σ) (n : Identity) (wrap : ResolveError → LinkageError) :
    Attempt σ LinkageError LinkedUnit := fun s =>
  match resolve n s with
  | (.ok u, s') => (.ok u, s')
  | (.error e, s') => (.error (blame wrap e), s')

/-- Resolves the supertype, if one is declared. -/
def supertype (resolve : Resolving σ) (name : Identity) :
    Option Identity → Attempt σ LinkageError (Option LinkedUnit)
  | none => pure none
  | some n => do pure (some (← follow resolve n (.unresolvedSupertype name n)))

/-- Resolves dependencies, one after the other. -/
def dependencies (resolve : Resolving σ) (name : Identity) :
    List Identity → Attempt σ LinkageError (List LinkedUnit)
  | [] => pure []
  | n :: rest => do
    let u ← follow resolve n (.unresolvedDependency name n)
    let others ← dependencies resolve name rest
    pure (u :: others)

/-- The names of the modules imported from, each once, in the order of the first import. -/
def moduleNames (i : Wasm.Interface) : List String := (i.imports.map (·.moduleName)).eraseDups

/-- The identities that names of modules stand for. -/
def moduleIdentities (name : Identity) : List String → Except LinkageError (List Identity)
  | [] => .ok []
  | m :: rest =>
    match Identity.parse m with
    | .error _ => .error (.invalidDependency name m)
    | .ok n => (moduleIdentities name rest).map (n :: ·)

/-- Looks for an import among the exports of the dependency it names. -/
def checkImport (name : Identity) (units : List LinkedUnit) (i : Wasm.Import) :
    Except LinkageError PUnit :=
  match units.find? fun u => u.name.text == i.moduleName with
  | none => .ok ⟨⟩
  | some u =>
    if u.interface.exportKind? i.item = some i.kind then .ok ⟨⟩
    else .error (.missingImport name u.name i.item i.kind)

/-- Lifts a result that needs no state. -/
def lift {α : Type} (r : Except LinkageError α) : Attempt σ LinkageError α := fun s => (r, s)

/-- Turns bytes into a linked unit.  `handle` tells the unit from others; it is taken from the state
after everything else has been done. -/
def materialise (resolve : Resolving σ) (handle : σ → Handle) (name : Identity) (bytes : Bytes)
    (origin : Origin) : Attempt σ LinkageError LinkedUnit := do
  let d ← lift (declared name bytes)
  let above ← supertype resolve name d.metadata.supertype
  let names ← lift (moduleIdentities name (moduleNames d.interface))
  let units ← dependencies resolve name names
  lift (d.interface.imports.forM (checkImport name units))
  let s ← get
  pure ⟨handle s, name, d.interface, d.metadata.markers, origin, above, units⟩

end Linkage

end LiveUnits
