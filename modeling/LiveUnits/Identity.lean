import LiveUnits.Path
import LiveUnits.Text.Blank

/-!
# Identities

A unit is known by a dotted name such as `tools.paint.Brush`.  An identity is the list of its
segments; the dotted name, the name of the unit's artifact inside a container and the place of the
artifact below a directory are all read off the segments.  Since no segment holds a dot or a
separator, each of these determines the identity.
-/

namespace LiveUnits

/-- Whether a character may stand in a segment of an identity. -/
def isSegmentChar (c : Char) : Bool :=
  !(c == '/' || c == '\\' || c == '.' || isControl c)

/-- Whether a text is a segment: not empty, and without separators, dots and control
characters. -/
def isSegment (s : String) : Bool := !s.toList.isEmpty && s.toList.all isSegmentChar

/-- The name of a unit, as the list of its segments. -/
structure Identity where
  /-- The segments, the outermost namespace first. -/
  segments : List String
  /-- There is at least one segment. -/
  nonempty : segments ≠ []
  valid : ∀ s ∈ segments, isSegment s = true
  deriving DecidableEq

/-- Why a text or a path gives no identity. -/
inductive IdentityError where
  /-- There are no segments. -/
  | empty
  /-- A part of the name cannot be a segment. -/
  | invalidSegment (name segment : String)
  /-- The path does not end in the extension asked for. -/
  | wrongExtension (path : Path)
  /-- The path is absolute or holds `..` or a leading `.`. -/
  | notRelative (path : Path)
  deriving DecidableEq

/-- The text of an identity error. -/
def IdentityError.message : IdentityError → String
  | .empty => "Empty identity name"
  | .invalidSegment name segment => s!"Invalid segment '{segment}' in identity '{name}'"
  | .wrongExtension path => s!"Path '{path.display}' does not carry the expected extension"
  | .notRelative path => s!"Path '{path.display}' is not a plain relative path"

namespace Identity

/-- The dotted name. -/
def text (n : Identity) : String := ".".intercalate n.segments

/-- Identities are ordered by their dotted names. -/
def compare (a b : Identity) : Ordering := Ord.compare a.text b.text

/-- Whether the dotted name of `a` comes before that of `b`. -/
def precedes (a b : Identity) : Bool := a.compare b == .lt

/-- The identity with these segments, or the first one that is none. -/
def ofSegments (name : String) (segments : List String) : Except IdentityError Identity :=
  if hne : segments = [] then .error .empty
  else
    match hbad : segments.find? (fun s => !isSegment s) with
    | some s => .error (.invalidSegment name s)
    | none => .ok ⟨segments, hne, fun s hs => by
        simpa using List.find?_eq_none.1 hbad s hs⟩

/-- Reads a dotted name. -/
def parse (name : String) : Except IdentityError Identity :=
  if name.toList = [] then .error .empty
  else ofSegments name ((splitOn '.' name.toList).map String.ofList)

/-- The identity a dotted name stands for, if it stands for one. -/
def parse? (name : String) : Option Identity := (parse name).toOption

/-- The segment a component of a source path gives. -/
def segmentOfComponent (path : Path) : Path.Component → Except IdentityError String
  | .name n =>
    match Utf8.decode? n with
    | some s => if isSegment s then .ok s else .error (.invalidSegment path.display s)
    | none => .error (.invalidSegment path.display (Utf8.lossy n))
  | _ => .error (.notRelative path)

/-- The identity of a source file, from its path below the source root: the names on the path, the
last one without its extension. -/
def ofSourcePath (path : Path) (extension : String) : Except IdentityError Identity :=
  if path.extension?.bind Utf8.decode? = some extension then do
    let segments ← path.withoutExtension.components.mapM (segmentOfComponent path)
    ofSegments (".".intercalate segments) segments
  else .error (.wrongExtension path)

def simpleName (n : Identity) : String := n.segments.getLast n.nonempty

/-- The name of the artifact inside a container. -/
def resourceName (n : Identity) (extension : String) : String :=
  "/".intercalate n.segments ++ "." ++ extension

/-- The place of the artifact below `root`.  An extension with a separator names no place. -/
def artifactPath? (n : Identity) (root : Path) (extension : String) : Option Path :=
  if '/' ∈ extension.toList then none
  else
    let stem := root.descend (n.segments.map Utf8.encode)
    if extension.toList = [] then some stem
    else some ⟨stem.bytes ++ fullStop :: Utf8.encode extension⟩

/-- The identity as a description shows it. -/
def describe (n : Identity) : String := s!"IdentityName({Quoted.text n.text})"

end Identity

end LiveUnits
