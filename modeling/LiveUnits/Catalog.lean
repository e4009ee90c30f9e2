import LiveUnits.Loader.Basic

/-!
# Catalogs

A catalog answers which units carry a marker, and which units are of a type, for one loader.  It holds
the units that were compiled, with their source files, and apart from them every other unit that can
be reached without a source file: what the containers list, what was registered as a dependency, and
the host units whose names no container lists.  A unit that a container lists hides the host unit of
its name even if it cannot be linked.  The catalog is made once and never changes.
-/

namespace LiveUnits

/-- A unit of a catalog. -/
structure CatalogEntry where
  unit : LinkedUnit
  /-- The file it was compiled from, if it was. -/
  sourceFile : Option Path

namespace CatalogEntry

def name (e : CatalogEntry) : Identity := e.unit.name

/-- The dotted name of the unit. -/
def text (e : CatalogEntry) : String := e.unit.name.text

end CatalogEntry

namespace Loader

/-- Resolves names one after the other, whatever comes of it. -/
def visit (l : Loader) : List Identity → Registry → Registry
  | [], r => r
  | n :: rest, r => l.visit rest (l.resolve n r).2

/-- Whether a container breaks down while names are resolved one after the other. -/
def breaksDown (l : Loader) : List Identity → Registry → Bool
  | [], _ => false
  | n :: rest, r =>
    match l.resolve n r with
    | (.ok _, r') => l.breaksDown rest r'
    | (.error e, r') => e.crash?.isSome || l.breaksDown rest r'

end Loader

structure Catalog where
  /-- The compiled units, in the order of their names. -/
  compiled : List CatalogEntry
  /-- The other units, in the order of their names.  None has the name of a compiled one. -/
  foreign : List CatalogEntry

namespace Catalog

def find? (entries : List CatalogEntry) (name : String) : Option CatalogEntry :=
  entries.find? fun e => e.text == name

/-- The units of the host and of a registry that have no source file here: a registered unit comes
before a host unit of its name, and names in `listed` belong to no host unit. -/
def foreignUnits (h : HostUnits) (r : Registry) (listed : List Identity) : List LinkedUnit :=
  sortByKey (·.name.text) (h.units.filter (fun u => !listed.contains u.name) ++ r.units)

/-- The names that the containers list and that belong to no compiled unit. -/
def uncompiled (l : Loader) (kept : List CatalogEntry) : List Identity :=
  l.available.1.filter fun n => (find? kept n.text).isNone

/-- The catalog of units that were compiled, and the registry after every listed unit has been
resolved. -/
def make (l : Loader) (compiled : List CatalogEntry) (r : Registry) : Catalog × Registry :=
  let kept := sortByKey CatalogEntry.text compiled
  let r' := l.visit (uncompiled l kept) r
  let others := (foreignUnits l.host r' l.available.1).filter fun u =>
    (find? kept u.name.text).isNone
  (⟨kept, others.map fun u => ⟨u, none⟩⟩, r')

/-- The entry of a name, compiled or not. -/
def get? (c : Catalog) (name : String) : Option CatalogEntry :=
  match find? c.compiled name with
  | some e => some e
  | none => find? c.foreign name

/-- All entries in the order of their names. -/
def entries (c : Catalog) : List CatalogEntry :=
  c.compiled.merge c.foreign fun a b => !b.name.precedes a.name

/-- The compiled entries that declare a marker. -/
def byMarker (c : Catalog) (marker : String) : List CatalogEntry :=
  c.compiled.filter fun e => e.unit.hasMarker marker

/-- The entries that are of a type: its own entry, and those whose unit has the unit of the type in
its lineage.  A name without an entry is no type. -/
def byType (c : Catalog) (type : String) : List CatalogEntry :=
  match c.get? type with
  | none => []
  | some target => c.entries.filter fun e => e.unit.descendsFrom target.unit

/-- The file from which the unit of a name was compiled. -/
def sourceFileOf (c : Catalog) (name : String) : Option Path :=
  (find? c.compiled name).bind CatalogEntry.sourceFile

end Catalog

end LiveUnits
