import LiveUnits.Path

/-!
# Trees of files

A node is a file, a symbolic link or a directory with its entries in the order in which they are
listed.  A location is the list of names that leads to a node from the top.  `get?` looks a
location up and `put` changes what is there; a change at one location leaves the nodes at all
locations that do not meet it as they are.
-/

namespace LiveUnits

/-- A file, a link or a directory. -/
inductive Node where
  /-- A regular file with its contents. -/
  | file (contents : Bytes)
  | link (target : Path)
  | directory (entries : List (Name × Node))
  deriving Inhabited

/-- The names that lead to a node from the top. -/
abbrev Location := List Name

namespace Node

def isDirectory : Node → Bool
  | directory _ => true
  | _ => false

/-- Whether the node is a regular file. -/
def isFile : Node → Bool
  | file _ => true
  | _ => false

/-- Whether the node is a symbolic link. -/
def isLink : Node → Bool
  | link _ => true
  | _ => false

/-- The entries of a directory; other nodes have none. -/
def entries : Node → List (Name × Node)
  | directory es => es
  | _ => []

def child? (x : Node) (name : Name) : Option Node := x.entries.lookup name

def get? : Node → Location → Option Node
  | x, [] => some x
  | x, name :: rest => (x.child? name).bind fun y => y.get? rest

/-- Gives an entry another node, adds it at the end, or removes it. -/
def setEntry (name : Name) (y : Option Node) : List (Name × Node) → List (Name × Node)
  | [] => y.toList.map fun z => (name, z)
  | (other, z) :: rest =>
    if other = name then y.toList.map (fun z => (name, z)) ++ rest
    else (other, z) :: setEntry name y rest

/-- Puts a node at a location below existing directories, or removes what is there.  A location
that passes through anything else is left alone. -/
def put (y : Option Node) : Location → Node → Node
  | [], x => y.getD x
  | name :: rest, directory es =>
    match rest with
    | [] => directory (setEntry name y es)
    | _ :: _ =>
      match es.lookup name with
      | some z => directory (setEntry name (some (put y rest z)) es)
      | none => directory es
  | _ :: _, x => x

mutual

/-- Everything below a node, with the location relative to it; a directory comes before what is in
it. -/
def descendants : Node → List (Location × Node)
  | directory es => descendantsIn es
  | _ => []

/-- The entries of a directory and everything below them. -/
def descendantsIn : List (Name × Node) → List (Location × Node)
  | [] => []
  | (name, x) :: rest =>
    ([name], x) :: x.descendants.map (fun (l, y) => (name :: l, y)) ++ descendantsIn rest

end

/-- Directories nested in one another, `count` of them, all of one name. -/
def nest (name : Name) : Nat → Node
  | 0 => directory []
  | count + 1 => directory [(name, nest name count)]

end Node

end LiveUnits
