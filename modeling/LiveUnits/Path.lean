import LiveUnits.Text.Utf8
import LiveUnits.Text.Split
import LiveUnits.Text.Quoted

/-!
# Paths

A path is a byte string in which `/` separates names.  Paths are compared and taken apart by their
components: repeated separators and `.` components count for nothing, except that a leading `.`
stays a component of its own.  Joining, cutting and changing the extension work on the bytes, so a
path keeps the spelling it was given.
-/

namespace LiveUnits

/-- The name of a directory entry. -/
abbrev Name := Bytes

/-- The byte `/`. -/
def slash : UInt8 := 0x2F

/-- The byte `.`. -/
def fullStop : UInt8 := 0x2E

/-- A path, as it is spelt. -/
structure Path where
  /-- The spelling. -/
  bytes : Bytes
  deriving DecidableEq, Inhabited, Repr

namespace Path

/-- A path spelt by a text. -/
def ofString (s : String) : Path := ⟨Utf8.encode s⟩

/-- The spelling of a path as a text, with U+FFFD for what is not UTF-8. -/
def display (p : Path) : String := Utf8.lossy p.bytes

/-- The spelling of a path in quotes. -/
def quoted (p : Path) : String := Quoted.bytes p.bytes

def empty : Path := ⟨[]⟩

/-- Whether the path starts at the root of the file system. -/
def isAbsolute (p : Path) : Bool := p.bytes.head? == some slash

/-- A step of a path. -/
inductive Component where
  /-- The root of the file system. -/
  | root
  /-- A leading `.`. -/
  | here
  /-- The component `..`. -/
  | up
  | name (n : Name)
  deriving DecidableEq, Repr

/-- The component a part of a path stands for, if it stands for one. -/
def Component.ofPart? (part : Bytes) : Option Component :=
  if part = [] ∨ part = [fullStop] then none
  else if part = [fullStop, fullStop] then some .up
  else some (.name part)

/-- The parts of a path between its separators. -/
def parts (p : Path) : List Bytes := splitOn slash p.bytes

def components (p : Path) : List Component :=
  let body := p.parts.filterMap Component.ofPart?
  if p.isAbsolute then .root :: body
  else if p.parts.head? = some [fullStop] then .here :: body
  else body

/-- The place of a component among those of another kind. -/
def Component.rank : Component → Nat
  | .root => 0
  | .here => 1
  | .up => 2
  | .name _ => 3

/-- The order of components: the root, a leading `.`, `..`, then the names by their bytes. -/
def Component.compare : Component → Component → Ordering
  | .name a, .name b => Ord.compare a b
  | a, b => Ord.compare a.rank b.rank

/-- The first difference of two lists of components decides; a start of the other comes first. -/
def compareComponents : List Component → List Component → Ordering
  | [], [] => .eq
  | [], _ :: _ => .lt
  | _ :: _, [] => .gt
  | a :: as, b :: bs => (a.compare b).then (compareComponents as bs)

/-- The order of paths, component by component. -/
def compare (p q : Path) : Ordering := compareComponents p.components q.components

/-- The name a path ends in, unless it ends in `..`, in the root or nowhere. -/
def fileName? (p : Path) : Option Name :=
  match p.components.getLast? with
  | some (.name n) => some n
  | _ => none

/-- A name cut at its last dot, unless nothing stands before that dot. -/
def splitExtension (n : Name) : Name × Option Bytes :=
  match splitLast fullStop n with
  | some (stem, extension) => if stem = [] then (n, none) else (stem, some extension)
  | none => (n, none)

/-- What follows the last dot of the name a path ends in. -/
def extension? (p : Path) : Option Bytes := p.fileName?.bind fun n => (splitExtension n).2

/-- Drops separators and `.` components from the end, of the reversed spelling. -/
def dropTrailingReversed : Bytes → Bytes
  | [] => []
  | a :: rest =>
    if a = slash then dropTrailingReversed rest
    else if a = fullStop then
      match rest with
      | b :: rest₂ => if b = slash then dropTrailingReversed (b :: rest₂) else a :: b :: rest₂
      | [] => [a]
    else a :: rest

/-- A spelling without the separators and `.` components at its end. -/
def dropTrailing (bytes : Bytes) : Bytes := (dropTrailingReversed bytes.reverse).reverse

/-- Cuts everything after the stem of the name that a path ends in; a path without such a name
stays as it is. -/
def cutAtStem (p : Path) : Path :=
  match p.fileName? with
  | none => p
  | some n =>
    let body := dropTrailing p.bytes
    ⟨body.take (body.length - n.length) ++ (splitExtension n).1⟩

/-- Takes the extension off a path: first as many bytes as the extension has, from the end of the
spelling, and then everything after the stem of what is left. -/
def withoutExtension (p : Path) : Path :=
  match p.extension? with
  | none => p.cutAtStem
  | some e => cutAtStem ⟨p.bytes.take (p.bytes.length - e.length)⟩

/-- Appends a separator and `bytes` to a path, the separator only where one is needed. -/
def joinBytes (p : Path) (bytes : Bytes) : Path :=
  if p.bytes = [] ∨ p.bytes.getLast? = some slash then ⟨p.bytes ++ bytes⟩
  else ⟨p.bytes ++ slash :: bytes⟩

/-- Where `q` leads from `p`; an absolute `q` leads where it always does. -/
def join (p q : Path) : Path := if q.isAbsolute then q else p.joinBytes q.bytes

/-- A path and further names below it. -/
def descend (p : Path) (names : List Name) : Path := names.foldl joinBytes p

/-- The path without its last component, and without the separators before that.  The root and the
empty path have none. -/
def parent? (p : Path) : Option Path :=
  match p.components.getLast? with
  | none => none
  | some .root => none
  | some _ =>
    let body := dropTrailing p.bytes
    let rest := (body.reverse.dropWhile (· ≠ slash)).reverse
    let cut := dropTrailing rest
    some ⟨if cut = [] ∧ p.isAbsolute then [slash] else cut⟩

/-- A path, the path of its parent, and so on up, at most `fuel` of them. -/
def ancestorsUpTo : Nat → Path → List Path
  | 0, _ => []
  | fuel + 1, p => p :: (p.parent?.map (ancestorsUpTo fuel)).getD []

/-- A path, its parent, the parent of that, and so on. -/
def ancestors (p : Path) : List Path := ancestorsUpTo (p.bytes.length + 1) p

/-- Whether the components of `q` are the first ones of `p`. -/
def startsWith (p q : Path) : Bool := q.components.isPrefixOf p.components

end Path

end LiveUnits
