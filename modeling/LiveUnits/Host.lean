import LiveUnits.Linkage.Materialise

/-!
# Host units

The units that the host defines before any build.  Each definition is linked against the ones before
it and against nothing else, so a unit refers only to units that were defined earlier.
-/

namespace LiveUnits

/-- The units of the host, in the order of their names. -/
structure HostUnits where
  units : List LinkedUnit := []

/-- Why a host unit cannot be defined. -/
inductive HostError where
  | invalidName (error : IdentityError)
  /-- There is a unit of this name. -/
  | duplicate (name : Identity)
  /-- The bytes cannot be linked. -/
  | linkage (error : LinkageError)

/-- The text of a host error. -/
def HostError.message (w : Wording) : HostError → String
  | .invalidName error => s!"Invalid host unit name: {error.message}"
  | .duplicate name => s!"Host unit '{name.text}' is already defined"
  | .linkage error => s!"Failed to define host unit: {error.message w}"

namespace HostUnits

def empty : HostUnits := {}

def lookup (h : HostUnits) (name : String) : Option LinkedUnit :=
  h.units.find? fun u => u.name.text == name

/-- Resolves a name among the host units. -/
def resolve (h : HostUnits) : Resolving PUnit := fun n s =>
  match h.lookup n.text with
  | some u => (.ok u, s)
  | none => (.error (.notFound n), s)

/-- Links the bytes of a unit against the units defined so far. -/
def link (h : HostUnits) (name : Identity) (bytes : Bytes) : Except LinkageError LinkedUnit :=
  (Linkage.materialise h.resolve (fun _ => ⟨.host, h.units.length⟩) name bytes .host ⟨⟩).1

def define (h : HostUnits) (name : String) (bytes : Bytes) : Except HostError HostUnits :=
  match Identity.parse name with
  | .error e => .error (.invalidName e)
  | .ok n =>
    if (h.lookup n.text).isSome then .error (.duplicate n)
    else
      match h.link n bytes with
      | .error e => .error (.linkage e)
      | .ok u => .ok ⟨insertByKey (·.name.text) u h.units⟩

/-- The units as a description shows them. -/
def describe (h : HostUnits) : String :=
  Description.record "HostNamespace"
    [("units", Description.mapping (h.units.map fun u => (u.name.describe, u.describe)))] false

/-- The units as a description shows them while more may be defined. -/
def describeOpen (h : HostUnits) : String :=
  Description.record "HostNamespaceBuilder"
    [("units", Description.list (h.units.map fun u => u.name.describe))] true

end HostUnits

end LiveUnits
