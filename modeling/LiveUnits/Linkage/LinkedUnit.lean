import LiveUnits.Identity
import LiveUnits.Text.Description
import LiveUnits.Wasm.Module

/-!
# Linked units

A linked unit holds its supertype and its dependencies, which are linked units themselves, so a unit
is a finite tree.  Two units are the same if they have the same handle.  The lineage of a unit is the
unit, its supertype, the supertype of that, and so on.
-/

namespace LiveUnits

/-- Where the bytes of a unit came from. -/
inductive Origin where
  /-- The container opened from a path. -/
  | container (root : Path)
  | host
  deriving DecidableEq

/-- Who made a unit. -/
inductive Realm where
  | host
  | loader (number : Nat)
  deriving DecidableEq, Repr

/-- What tells a unit from all others. -/
structure Handle where
  /-- Who made the unit. -/
  realm : Realm
  /-- How many units were made there before. -/
  serial : Nat
  deriving DecidableEq, Repr

/-- A unit with everything it refers to. -/
structure LinkedUnit where
  /-- What tells the unit from others. -/
  handle : Handle
  /-- The name it was linked under. -/
  name : Identity
  /-- What it imports and exports. -/
  interface : Wasm.Interface
  /-- The markers it declares, in ascending order. -/
  markers : List String
  /-- Where its bytes came from. -/
  origin : Origin
  supertype : Option LinkedUnit
  /-- The units it imports from, in the order of the first import from each. -/
  dependencies : List LinkedUnit

namespace LinkedUnit

/-- Whether the unit declares a marker. -/
def hasMarker (u : LinkedUnit) (marker : String) : Bool := u.markers.contains marker

mutual

/-- The unit followed by its supertypes, the nearest first. -/
def lineage : LinkedUnit → List LinkedUnit
  | ⟨handle, name, interface, markers, origin, supertype, dependencies⟩ =>
    ⟨handle, name, interface, markers, origin, supertype, dependencies⟩ :: lineageAbove supertype

/-- The lineage of a supertype, if there is one. -/
def lineageAbove : Option LinkedUnit → List LinkedUnit
  | none => []
  | some u => u.lineage

end

/-- Whether the unit or one of its supertypes has a name. -/
def isSubtypeOf (u : LinkedUnit) (name : String) : Bool :=
  u.lineage.any fun v => v.name.text == name

/-- Whether `v` is the unit itself or one of its supertypes. -/
def descendsFrom (u v : LinkedUnit) : Bool := u.lineage.any fun w => w.handle == v.handle

/-- The unit as a description shows it. -/
def describe (u : LinkedUnit) : String :=
  Description.record "LoadedUnit" [
    ("name", u.name.describe),
    ("module", Quoted.text "<Module>"),
    ("markers", Description.set (u.markers.map Quoted.text)),
    ("supertype", Description.option (u.supertype.map fun s => s.name.describe)),
    ("dependencies", Description.list (u.dependencies.map fun d => d.name.describe)),
    ("origin", match u.origin with
      | .container root => "Container(" ++ root.quoted ++ ")"
      | .host => "Host")] false

end LinkedUnit

end LiveUnits
