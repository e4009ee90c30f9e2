import LiveUnits.FileSystem.Fault
import LiveUnits.FileSystem.Node

/-!
# File systems and the way paths are followed in them

A file system is a tree with a working directory.  `locate` follows a path component by component:
`..` leads to the directory above, links are followed where they stand, and the walk ends at a node
or at a vacant place in an existing directory.  Names have at most 255 bytes, paths at most 4095,
and at most 40 links are followed on one walk.
-/

namespace LiveUnits

/-- A tree of files and the location from which relative paths start. -/
structure FileSystem where
  /-- The top of the tree. -/
  root : Node
  /-- The working directory. -/
  cwd : Location

/-- Where a path leads. -/
inductive Spot where
  /-- To something that exists. -/
  | found (location : Location) (node : Node)
  /-- To a name that an existing directory does not have. -/
  | vacant (directory : Location) (name : Name)

namespace FileSystem

/-- The number of bytes of the longest name. -/
def nameLimit : Nat := 255

/-- The number of bytes of the longest path. -/
def pathLimit : Nat := 4095

/-- The number of links that one walk follows. -/
def linkLimit : Nat := 40

/-- A file system with nothing but an empty working directory. -/
def blank : FileSystem :=
  let home : Name := Utf8.encode "work"
  ⟨.directory [(home, .directory [])], [home]⟩

/-- The parts of a path that lead somewhere. -/
def steps (p : Path) : List Bytes := p.parts.filter (· ≠ [])

/-- The parts a link adds to a walk.  A separator at its end asks for a directory, which the
part `.` does as well. -/
def linkSteps (target : Path) : List Bytes :=
  steps target ++ if target.bytes.getLast? = some slash then [[fullStop]] else []

/-- Follows `todo` from the directory `here`.  `follow` tells whether a link at the very end is
followed, `trailing` whether a directory has to stand there.

If nothing is at `here`, nothing is found.  So a working directory that was removed leads nowhere, whereas
Linux still resolves `..` from such a directory. -/
def walk (fs : FileSystem) (follow trailing : Bool) (links : Nat) (here : Location)
    (todo : List Bytes) : Except Fault Spot :=
  match fs.root.get? here with
  | some (.directory entries) =>
    match todo with
    | [] => .ok (.found here (.directory entries))
    | part :: rest =>
      if part = [fullStop] then fs.walk follow trailing links here rest
      else if part = [fullStop, fullStop] then fs.walk follow trailing links here.dropLast rest
      else if nameLimit < part.length then .error .nameTooLong
      else
        match entries.lookup part with
        | none => if rest = [] then .ok (.vacant here part) else .error .notFound
        | some (.directory _) => fs.walk follow trailing links (here ++ [part]) rest
        | some (.file contents) =>
          if rest = [] && !trailing then .ok (.found (here ++ [part]) (.file contents))
          else .error .notDirectory
        | some (.link target) =>
          if rest = [] && !follow && !trailing then .ok (.found (here ++ [part]) (.link target))
          else
            match links with
            | 0 => .error .tooManyLinks
            | links + 1 =>
              fs.walk follow trailing links (if target.isAbsolute then [] else here)
                (linkSteps target ++ rest)
  | _ => .error .notFound
termination_by (links, todo.length)

/-- Whether a path ends in a separator. -/
def isTrailing (p : Path) : Bool := p.bytes.getLast? == some slash

/-- Follows a path whose spelling the operating system accepts. -/
def locateWith (fs : FileSystem) (follow trailing : Bool) (p : Path) : Except Fault Spot :=
  if 0 ∈ p.bytes then .error .interiorNul
  else if p.bytes = [] then .error .notFound
  else if pathLimit < p.bytes.length then .error .nameTooLong
  else fs.walk follow trailing linkLimit (if p.isAbsolute then [] else fs.cwd) (steps p)

/-- Follows a path.  A link at its end is followed on request, and always before a separator. -/
def locate (fs : FileSystem) (follow : Bool) (p : Path) : Except Fault Spot :=
  fs.locateWith follow (isTrailing p) p

/-- The node a path leads to, links followed. -/
def node (fs : FileSystem) (p : Path) : Except Fault Node := do
  match ← fs.locate true p with
  | .found _ x => .ok x
  | .vacant _ _ => .error .notFound

/-- The location a path leads to, links followed. -/
def canonical (fs : FileSystem) (p : Path) : Except Fault Location := do
  match ← fs.locate true p with
  | .found l _ => .ok l
  | .vacant _ _ => .error .notFound

/-- Whether a path leads to a regular file. -/
def isFile (fs : FileSystem) (p : Path) : Bool :=
  match fs.node p with
  | .ok x => x.isFile
  | .error _ => false

/-- Whether a path leads to a directory. -/
def isDirectory (fs : FileSystem) (p : Path) : Bool :=
  match fs.node p with
  | .ok x => x.isDirectory
  | .error _ => false

/-- The contents of a file. -/
def read (fs : FileSystem) (p : Path) : Except Fault Bytes := do
  match ← fs.node p with
  | .file contents => .ok contents
  | _ => .error .isDirectory

/-- The contents of a file as a text. -/
def readText (fs : FileSystem) (p : Path) : Except Fault String := do
  match Utf8.decode? (← fs.read p) with
  | some s => .ok s
  | none => .error .notText

/-- The entries of a directory. -/
def list (fs : FileSystem) (p : Path) : Except Fault (List (Name × Node)) := do
  match ← fs.node p with
  | .directory entries => .ok entries
  | _ => .error .notDirectory

end FileSystem

end LiveUnits
