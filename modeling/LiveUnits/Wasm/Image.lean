import LiveUnits.Wasm.Text.Document

/-!
# Images

The bytes of a unit are a module in the binary form or in the text form.  An image is what both have
in common: the sections of the module in order, and its interface if the module is valid.
-/

namespace LiveUnits.Wasm

/-- What the bytes of a unit stand for. -/
structure Image where
  /-- The sections in order, up to the first damage. -/
  sections : Sections
  /-- The interface, or why the module is not valid. -/
  interface : Except Malformation Interface

namespace Image

/-- The four bytes at the start of the binary form. -/
def magic : Bytes := [0x00, 0x61, 0x73, 0x6D]

/-- The image of a module in the binary form. -/
def ofBinary (bytes : Bytes) : Image :=
  let sections := Sections.ofBytes bytes
  ⟨sections, Module.interface sections.items⟩

/-- Sections that are written one after the other.  The walk over them ends at a custom section whose
name is too long. -/
def written : List Section → Sections
  | [] => Sections.stop none
  | .custom name data :: rest =>
    if Module.nameLimit < name.utf8ByteSize then Sections.stop (some .badName)
    else Sections.cons (.custom name data) (written rest)
  | s :: rest => Sections.cons s (written rest)

/-- The image of a module given by its fields. -/
def ofFields (fields : List Field) (unsupported : Bool) : Except Malformation Image := do
  let m ← Assembly.ofFields fields
  pure ⟨written (Assembly.customs fields), { m with unsupported }.check⟩

/-- The names of the modules among the parts of a component. -/
def moduleNames (parts : List ComponentPart) : List (Option String) :=
  parts.filterMap fun
    | .inner name _ => some name
    | _ => none

/-- The names of the components among the parts of a component. -/
def componentNames (parts : List ComponentPart) : List (Option String) :=
  parts.filterMap fun
    | .component name _ => some name
    | _ => none

mutual

def partSections : ComponentPart → Except Malformation (List Section)
  | .inner _ fields => do
    let _ ← Assembly.ofFields fields
    pure (.foreign 1 :: Assembly.customs fields)
  | .component _ parts => do
    Assembly.checkNames (moduleNames parts)
    Assembly.checkNames (componentNames parts)
    pure (.foreign 4 :: (← sectionsOfParts parts))
  | .custom name data => .ok [.custom name data]
  | .other => .ok []

def sectionsOfParts : List ComponentPart → Except Malformation (List Section)
  | [] => .ok []
  | p :: rest => do pure ((← partSections p) ++ (← sectionsOfParts rest))

end

def ofDocument (d : Document) (unsupported : Bool) : Except Malformation Image :=
  match d with
  | .fields list => ofFields list unsupported
  | .binary bytes => .ok (ofBinary bytes)
  | .component parts => do
    pure ⟨written (← partSections (.component none parts)), .error .component⟩

/-- The image of the bytes of a unit. -/
def read (bytes : Bytes) : Except Malformation Image :=
  if magic.isPrefixOf bytes then .ok (ofBinary bytes)
  else
    match Utf8.decode bytes with
    | .error fault => .error (.notText fault)
    | .ok text => do
      let (d, unsupported) ← Document.ofText text.toList
      ofDocument d unsupported

end Image

end LiveUnits.Wasm
