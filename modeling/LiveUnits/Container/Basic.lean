import LiveUnits.Path
import LiveUnits.FileSystem.Fault
import LiveUnits.Wording

/-!
# Containers

A container serves the bytes of units by resource names such as `tools/Brush.wasm`.  Its answers may
differ from one lookup to the next, which is why a lookup takes the number of lookups made before
it; but only finitely many names are ever found.  Resolution ends because of that.
-/

namespace LiveUnits

/-- Why a container cannot be opened or read. -/
inductive ContainerError where
  /-- Nothing is where the container should be. -/
  | unavailable (root : Path)
  /-- Reading failed. -/
  | io (path : Path) (fault : Fault)
  /-- The archive cannot be read. -/
  | archive (path : Path) (fault : ArchiveFault)
  /-- The bytes of an archive entry are damaged. -/
  | damaged (path : Path)
  /-- The container is locked for good. -/
  | lockRejected (root : Path)
  /-- The container broke down while it was asked. -/
  | crashed (root : Path)
  deriving DecidableEq

/-- The text of a container error. -/
def ContainerError.message (w : Wording) : ContainerError → String
  | .unavailable root => s!"Container root '{root.display}' is unavailable"
  | .io path fault => s!"I/O error reading '{path.display}': {fault.message}"
  | .archive path fault => s!"Corrupted archive '{path.display}': {w.archive fault}"
  | .damaged path => s!"I/O error reading '{path.display}': {w.damage}"
  | .lockRejected root => s!"Lock rejected on '{root.display}'"
  | .crashed root => s!"Container '{root.display}' crashed"

/-- What serves the bytes of units. -/
structure Container where
  /-- The path from which the container was opened. -/
  root : Path
  /-- The bytes under a resource name, absent if the container has none, after a number of earlier
  lookups. -/
  lookup : Nat → String → Except ContainerError (Option Bytes)
  /-- The resource names that the container lists, in no particular order. -/
  resources : Except ContainerError (List String)
  /-- Only finitely many names are ever found.  Requests that end cannot tell such a container from others:
  they ask for finitely many names, and it makes no difference to them what would be found under any other
  name. -/
  finite : ∃ served : List String, ∀ clock name bytes,
    lookup clock name = .ok (some bytes) → name ∈ served

/-- Whether a part of a resource name is a plain one. -/
def isPlainPart (part : List Char) : Bool := !(part == [] || part == ['.'] || part == ['.', '.'])

/-- The parts of a resource name.  Names that could lead out of the container have none: empty
ones, those with a backslash, and those with an empty part or a part of one or two dots. -/
def resourceParts? (name : String) : Option (List (List Char)) :=
  let parts := splitOn '/' name.toList
  if name.toList = [] ∨ '\\' ∈ name.toList then none
  else if parts.all isPlainPart then some parts
  else none

end LiveUnits
