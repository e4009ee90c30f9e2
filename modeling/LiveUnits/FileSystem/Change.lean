import LiveUnits.FileSystem.Walk

/-!
# Changing a file system

Writing files, making directories and links, and removing them.  Every operation returns the
changed file system together with the fault that ended it, because an operation may fail after it
has done a part of its work: removing the directory `.` empties it before it is refused.
-/

namespace LiveUnits

/-- What an operation did: the fault that ended it, if one did, and the file system it left. -/
structure Change where
  /-- The fault, absent if the operation did all its work. -/
  fault : Option Fault
  files : FileSystem

namespace FileSystem

/-- The file system with another node at a location. -/
def put (fs : FileSystem) (l : Location) (x : Option Node) : FileSystem :=
  { fs with root := fs.root.put x l }

/-- An operation that fails without a trace. -/
def fail (fs : FileSystem) (f : Fault) : Change := ⟨some f, fs⟩

/-- An operation that succeeds. -/
def done (fs : FileSystem) : Change := ⟨none, fs⟩

/-- Writes a file, making it or replacing its contents. -/
def write (fs : FileSystem) (p : Path) (contents : Bytes) : Change :=
  match fs.locate true p with
  | .error f => fs.fail f
  | .ok (.found l (.file _)) => (fs.put l (some (.file contents))).done
  | .ok (.found _ _) => fs.fail .isDirectory
  | .ok (.vacant d name) =>
    if isTrailing p then fs.fail .isDirectory
    else (fs.put (d ++ [name]) (some (.file contents))).done

/-- Makes a directory in an existing one. -/
def makeDirectory (fs : FileSystem) (p : Path) : Change :=
  match fs.locateWith false false p with
  | .error f => fs.fail f
  | .ok (.found _ _) => fs.fail .alreadyExists
  | .ok (.vacant d name) => (fs.put (d ++ [name]) (some (.directory []))).done

/-- Makes a symbolic link. -/
def makeLink (fs : FileSystem) (p target : Path) : Change :=
  if 0 ∈ target.bytes then fs.fail .interiorNul
  else if target.bytes = [] then fs.fail .notFound
  else if pathLimit < target.bytes.length then fs.fail .nameTooLong
  else
    match fs.locateWith false false p with
    | .error f => fs.fail f
    | .ok (.found _ _) => fs.fail .alreadyExists
    | .ok (.vacant d name) =>
      if isTrailing p then fs.fail .notFound
      else (fs.put (d ++ [name]) (some (.link target))).done

/-- The directories that have to be made so that `p` can be: `p` itself and the paths above it up
to one that exists or can be made.  The last one is made already. -/
def makeMissing (fs : FileSystem) : List Path → List Path → Change
  | [], missing => makeAll fs missing
  | p :: above, missing =>
    if p.bytes = [] || p.parent?.isNone then makeAll fs missing
    else
      match fs.makeDirectory p with
      | ⟨none, fs'⟩ => makeAll fs' missing
      | ⟨some .notFound, _⟩ => makeMissing fs above (p :: missing)
      | ⟨some f, _⟩ =>
        if f = .alreadyExists && fs.isDirectory p then makeAll fs missing else fs.fail f
where
  /-- Makes directories one after the other; those that exist are left alone. -/
  makeAll (fs : FileSystem) : List Path → Change
    | [] => fs.done
    | p :: rest =>
      match fs.makeDirectory p with
      | ⟨none, fs'⟩ => makeAll fs' rest
      | ⟨some f, _⟩ =>
        if f = .alreadyExists && fs.isDirectory p then makeAll fs rest else fs.fail f

/-- Makes a directory and those above it that are missing. -/
def makeDirectories (fs : FileSystem) (p : Path) : Change :=
  if p.bytes = [] || p.parent?.isNone then fs.done
  else fs.makeMissing p.ancestors []

/-- The last part of a path that leads somewhere. -/
def lastStep? (p : Path) : Option Bytes := (steps p).getLast?

/-- Removes a file or a link. -/
def removeFile (fs : FileSystem) (p : Path) : Change :=
  match fs.locateWith false false p with
  | .error f => fs.fail f
  | .ok (.vacant _ _) => fs.fail .notFound
  | .ok (.found _ (.directory _)) => fs.fail .isDirectory
  | .ok (.found l _) =>
    if isTrailing p then fs.fail .notDirectory else (fs.put l none).done

/-- Removes an empty directory. -/
def removeDirectory (fs : FileSystem) (p : Path) : Change :=
  match fs.locateWith false false p with
  | .error f => fs.fail f
  | .ok (.vacant _ _) => fs.fail .notFound
  | .ok (.found l (.directory entries)) =>
    if l = [] then fs.fail .busy
    else if lastStep? p = some [fullStop] then fs.fail .invalidArgument
    else if lastStep? p = some [fullStop, fullStop] then fs.fail .notEmpty
    else if entries = [] then (fs.put l none).done
    else fs.fail .notEmpty
  | .ok (.found _ _) => fs.fail .notDirectory

/-- Removes a directory with everything below it.  A link is removed and not followed, unless a
separator comes after it; then the directory is emptied, but the link stays. -/
def removeTree (fs : FileSystem) (p : Path) : Change :=
  match fs.locate false p with
  | .error f => fs.fail f
  | .ok (.vacant _ _) => fs.fail .notFound
  | .ok (.found _ (.link _)) => fs.removeFile p
  | .ok (.found _ (.file _)) => fs.fail .notDirectory
  | .ok (.found l (.directory _)) =>
    (fs.put l (some (.directory []))).removeDirectory p

/-- Writes a file, making the directories above it. -/
def place (fs : FileSystem) (p : Path) (contents : Bytes) : Change :=
  match (p.parent?.map fs.makeDirectories).getD fs.done with
  | ⟨none, fs'⟩ => fs'.write p contents
  | failed => failed

/-- Makes a link, and the directories above it. -/
def placeLink (fs : FileSystem) (p target : Path) : Change :=
  match (p.parent?.map fs.makeDirectories).getD fs.done with
  | ⟨none, fs'⟩ => fs'.makeLink p target
  | failed => failed

/-- Removes a file, a link or a whole directory. -/
def remove (fs : FileSystem) (p : Path) : Change :=
  match fs.locate false p with
  | .error f => fs.fail f
  | .ok (.vacant _ _) => fs.fail .notFound
  | .ok (.found _ (.directory _)) => fs.removeTree p
  | .ok (.found _ _) => fs.removeFile p

/-- Makes a directory and `count` directories of one name nested in it. -/
def placeNest (fs : FileSystem) (p : Path) (name : Name) (count : Nat) : Change :=
  match fs.makeDirectories p with
  | ⟨none, fs'⟩ =>
    match fs'.canonical p with
    | .error f => fs'.fail f
    | .ok l =>
      match count with
      | 0 => fs'.done
      | count + 1 =>
        if nameLimit < name.length then fs'.fail .nameTooLong
        else if ((fs'.root.get? l).bind (·.child? name)).isSome then fs'.fail .alreadyExists
        else (fs'.put (l ++ [name]) (some (Node.nest name count))).done
  | failed => failed

/-- A change of files that a user or a program asks for. -/
inductive Edit where
  /-- Writes a file and makes the directories above it. -/
  | write (p : Path) (contents : Bytes)
  /-- Makes a directory and those above it. -/
  | makeDirectory (p : Path)
  /-- Makes a link and the directories above it. -/
  | link (p target : Path)
  /-- Removes a file, a link or a whole directory. -/
  | remove (p : Path)
  /-- Makes directories of one name nested in each other. -/
  | nest (p : Path) (name : Name) (count : Nat)

def edit (fs : FileSystem) : Edit → Change
  | .write p contents => fs.place p contents
  | .makeDirectory p => fs.makeDirectories p
  | .link p target => fs.placeLink p target
  | .remove p => fs.remove p
  | .nest p name count => fs.placeNest p name count

end FileSystem

end LiveUnits
