import LiveUnits.Identity
import LiveUnits.Text.Ascending
import LiveUnits.Wasm.Section

/-!
# Metadata of units

A unit declares its markers and its supertype in custom sections: one section for each marker, and at
most one for the supertype.  `Metadata.read` visits the sections in order and stops at the first one
that is unusable, or at the damage that ended the walk over the module.
-/

namespace LiveUnits

/-- The name of the sections that declare a marker. -/
def markerSection : String := "hotload.marker"

/-- The name of the section that declares the supertype. -/
def extendsSection : String := "hotload.extends"

/-- What a unit declares. -/
structure Metadata where
  /-- The markers, in ascending order and each once. -/
  markers : List String := []
  supertype : Option Identity := none
  deriving DecidableEq

/-- Why a metadata section is unusable. -/
inductive MetadataFault where
  /-- Nothing but blanks stands in the section. -/
  | empty (sectionName : String)
  | notText (sectionName : String) (fault : Utf8.Fault)
  | badSupertype (error : IdentityError)
  /-- The supertype is declared again. -/
  | repeatedSupertype
  deriving DecidableEq

/-- The text of a metadata fault. -/
def MetadataFault.message : MetadataFault → String
  | empty sectionName => s!"empty '{sectionName}' section"
  | notText sectionName fault => s!"'{sectionName}' section: {fault.message}"
  | badSupertype error => error.message
  | repeatedSupertype => s!"more than one '{extendsSection}' section"

/-- Why there are no metadata. -/
inductive MetadataError where
  /-- The module is damaged. -/
  | malformed (m : Wasm.Malformation)
  /-- A metadata section is unusable. -/
  | invalid (fault : MetadataFault)
  deriving DecidableEq

namespace Metadata

/-- The text of a metadata section, trimmed. -/
def sectionText (sectionName : String) (data : Bytes) : Except MetadataFault String :=
  match Utf8.decode data with
  | .error fault => .error (.notText sectionName fault)
  | .ok s => if (trim s).toList = [] then .error (.empty sectionName) else .ok (trim s)

/-- Takes the declaration of a supertype into account. -/
def addSupertype (m : Metadata) (data : Bytes) : Except MetadataFault Metadata := do
  let s ← sectionText extendsSection data
  match Identity.parse s with
  | .error e => throw (.badSupertype e)
  | .ok n =>
    match m.supertype with
    | some _ => throw .repeatedSupertype
    | none => pure { m with supertype := some n }

/-- Takes a section into account. -/
def addSection (m : Metadata) : Wasm.Section → Except MetadataFault Metadata
  | .custom name data =>
    if name = markerSection then do
      pure { m with markers := insertByKey id (← sectionText markerSection data) m.markers }
    else if name = extendsSection then m.addSupertype data
    else .ok m
  | _ => .ok m

/-- Takes sections into account, in order. -/
def addSections (m : Metadata) : List Wasm.Section → Except MetadataFault Metadata
  | [] => .ok m
  | s :: rest => do (← m.addSection s).addSections rest

/-- The metadata that sections declare. -/
def read (sections : Wasm.Sections) : Except MetadataError Metadata :=
  match addSections {} sections.items with
  | .error fault => .error (.invalid fault)
  | .ok m =>
    match sections.damage with
    | some d => .error (.malformed d)
    | none => .ok m

end Metadata

end LiveUnits
