import LiveUnits.Archive.Directory
import LiveUnits.Container.Basic
import LiveUnits.FileSystem.Walk
import LiveUnits.Text.Finite
import LiveUnits.Text.Description

/-!
# Media

What containers are made of: a directory, an archive, or resources kept in memory.  A directory is
read afresh at every lookup, an archive as it was when it was opened.  `Medium.container` is the
container that a medium makes over a file system.
-/

namespace LiveUnits

/-! ## Directories -/

namespace FileSystem

/-- The path that a resource name leads to below a root. -/
def resourcePath (root : Path) (parts : List (List Char)) : Path :=
  root.descend (parts.map fun part => Utf8.encode (String.ofList part))

/-- The bytes of a regular file below a root.  A path that leads nowhere, and one that leads to
something else, has none. -/
def lookupBelow (fs : FileSystem) (root : Path) (name : String) :
    Except ContainerError (Option Bytes) :=
  match resourceParts? name with
  | none => .ok none
  | some parts =>
    let path := resourcePath root parts
    match fs.node path with
    | .ok (.file contents) => .ok (some contents)
    | .ok _ => .ok none
    | .error f => if f.isAbsence then .ok none else .error (.io path f)

mutual

/-- The resources of an entry and of everything below it. -/
def listEntry (fs : FileSystem) (path : Path) (resource : String) :
    Node → Except ContainerError (List String)
  | .directory entries =>
    match fs.list path with
    | .ok _ => listEntries fs path (resource ++ "/") entries
    | .error f => .error (.io path f)
  | .file _ => .ok (if fs.isFile path then [resource] else [])
  | .link _ => .ok (if fs.isFile path then [resource] else [])

/-- The resources of the entries of a directory.  A name that is not UTF-8 is left out, with
everything below it. -/
def listEntries (fs : FileSystem) (path : Path) (start : String) :
    List (Name × Node) → Except ContainerError (List String)
  | [] => .ok []
  | (name, x) :: rest =>
    match Utf8.decode? name with
    | none => listEntries fs path start rest
    | some s => do
      let here ← listEntry fs (path.joinBytes name) (start ++ s) x
      let others ← listEntries fs path start rest
      pure (here ++ others)

end

/-- The resources below a root: the regular files, and the links that lead to one. -/
def resourcesBelow (fs : FileSystem) (root : Path) : Except ContainerError (List String) :=
  match fs.list root with
  | .ok entries => listEntries fs root "" entries
  | .error f => .error (.io root f)

end FileSystem

/-! ## Archives -/

namespace Archive

/-- The bytes of the entry with a resource name.  An entry that announces more bytes than any memory
can hold brings the container down. -/
def lookup (a : Archive) (path : Path) (name : String) : Except ContainerError (Option Bytes) :=
  match resourceParts? name with
  | none => .ok none
  | some _ =>
    match a.entries.lookup name with
    | none => .ok none
    | some e =>
      match a.kept e with
      | .error f => .error (.archive path f)
      | .ok kept =>
        if e.isHuge then .error (.crashed path)
        else
          match e.unpack? kept with
          | none => .error (.damaged (path.join (Path.ofString name)))
          | some bytes => .ok (some bytes)

/-- What a lookup gives once the container is down. -/
def refuse (path : Path) (name : String) : Except ContainerError (Option Bytes) :=
  match resourceParts? name with
  | none => .ok none
  | some _ => .error (.lockRejected path)

end Archive

/-! ## Memory -/

/-- What a container in memory holds under a name. -/
inductive Resource where
  | bytes (contents : Bytes)
  /-- Something that nobody may read. -/
  | denied
  /-- Something that locks the container. -/
  | locked
  /-- Something that brings the container down. -/
  | crash

/-- How a container in memory lists its resources. -/
inductive Listing where
  | all
  | refused
  | none

/-- A container in memory. -/
structure Memory where
  root : Path
  listing : Listing
  resources : List (String × Resource)

namespace Memory

/-- Puts a resource under a name. -/
def put (m : Memory) (name : String) (r : Resource) : Memory :=
  { m with resources := m.resources.filter (·.1 != name) ++ [(name, r)] }

/-- Takes the resource under a name away. -/
def take (m : Memory) (name : String) : Memory :=
  { m with resources := m.resources.filter (·.1 != name) }

/-- Whether there is a resource under a name. -/
def has (m : Memory) (name : String) : Bool := (m.resources.lookup name).isSome

/-- What a lookup gives. -/
def lookup (m : Memory) (name : String) : Except ContainerError (Option Bytes) :=
  match m.resources.lookup name with
  | none => .ok none
  | some (.bytes contents) => .ok (some contents)
  | some .denied => .error (.io (m.root.join (Path.ofString name)) .denied)
  | some .locked => .error (.lockRejected m.root)
  | some .crash => .error (.crashed m.root)

def list (m : Memory) : Except ContainerError (List String) :=
  match m.listing with
  | .all => .ok (m.resources.map (·.1))
  | .refused => .error (.lockRejected m.root)
  | .none => .ok []

end Memory

/-! ## Only finitely many names are found -/

/-- Only a key of a list is found in it. -/
theorem mem_map_fst_of_lookup {α β : Type} [BEq α] [LawfulBEq α] {key : α} {value : β} :
    ∀ {l : List (α × β)}, l.lookup key = some value → key ∈ l.map (·.1)
  | [], h => by simp at h
  | (k, v) :: rest, h => by
    rw [List.lookup_cons] at h
    by_cases hk : key == k
    · simp [eq_of_beq hk]
    · simp only [hk] at h
      exact List.mem_cons_of_mem _ (mem_map_fst_of_lookup h)

/-- Joining never makes a path shorter than its two parts. -/
theorem Path.length_joinBytes_le (p : Path) (b : Bytes) :
    p.bytes.length + b.length ≤ (p.joinBytes b).bytes.length := by
  unfold Path.joinBytes
  split <;> simp

/-- A path is at least as long as the names it descends through. -/
theorem Path.length_descend_le (names : List Name) (p : Path) :
    p.bytes.length + names.flatten.length ≤ (p.descend names).bytes.length := by
  induction names generalizing p with
  | nil => simp [Path.descend]
  | cons n names ih =>
    have hstep := p.length_joinBytes_le n
    have hrest := ih (p.joinBytes n)
    simp only [Path.descend, List.foldl_cons, List.flatten_cons, List.length_append] at *
    omega

/-- Splitting loses the separators and nothing else. -/
theorem length_splitOn {α : Type} [DecidableEq α] (sep : α) (xs : List α) :
    (splitOn sep xs).flatten.length + (splitOn sep xs).length = xs.length + 1 := by
  induction xs with
  | nil => simp [splitOn, parts]
  | cons x xs ih =>
    simp only [splitOn, parts, List.flatten_cons, List.length_append, List.length_cons] at *
    split <;> simp only [List.flatten_cons, List.length_append, List.length_cons, List.length_nil] <;> omega

/-- Every character takes at least one byte. -/
theorem length_le_length_encode (s : String) : s.toList.length ≤ (Utf8.encode s).length := by
  unfold Utf8.encode
  induction s.toList with
  | nil => simp
  | cons c cs ih =>
    have hc : 0 < (String.utf8EncodeChar c).length := by
      rw [String.length_utf8EncodeChar]
      exact Char.utf8Size_pos c
    simp only [List.flatMap_cons, List.length_cons, List.length_append]
    omega

/-- Plain parts are not empty, so there are no more of them than they have characters. -/
theorem length_le_flatten_of_plain {parts : List (List Char)} (h : parts.all isPlainPart = true) :
    parts.length ≤ parts.flatten.length := by
  induction parts with
  | nil => simp
  | cons part parts ih =>
    simp only [List.all_cons, Bool.and_eq_true] at h
    have hrest := ih h.2
    have hne : part ≠ [] := by
      rintro rfl
      simp [isPlainPart] at h
    have hlen := List.length_pos_iff.2 hne
    simp only [List.length_cons, List.flatten_cons, List.length_append]
    omega

/-- Parts take at least as many bytes as they have characters. -/
theorem length_flatten_le_encode (parts : List (List Char)) :
    parts.flatten.length ≤
      (parts.map fun part => Utf8.encode (String.ofList part)).flatten.length := by
  induction parts with
  | nil => simp
  | cons part parts ih =>
    have hpart := length_le_length_encode (String.ofList part)
    simp only [String.toList_ofList] at hpart
    simp only [List.map_cons, List.flatten_cons, List.length_append]
    omega

/-- A path that leads to a node is not too long. -/
theorem FileSystem.length_le_of_node {fs : FileSystem} {p : Path} {x : Node}
    (h : fs.node p = .ok x) : p.bytes.length ≤ FileSystem.pathLimit := by
  unfold FileSystem.node FileSystem.locate FileSystem.locateWith at h
  by_cases hlen : FileSystem.pathLimit < p.bytes.length
  · exfalso
    split at h
    · cases h
    · split at h
      · cases h
      · cases h
  · omega

/-- The parts of a resource name give back its length. -/
theorem length_le_of_resourceParts? {name : String} {parts : List (List Char)}
    (h : resourceParts? name = some parts) :
    name.toList.length ≤ 2 * parts.flatten.length := by
  unfold resourceParts? at h
  simp only at h
  split at h
  · cases h
  · split at h
    · next hall =>
      obtain rfl := Option.some.inj h
      have hlen := length_splitOn '/' name.toList
      have hplain := length_le_flatten_of_plain hall
      omega
    · cases h

/-- A directory serves finitely many names: longer ones make paths that are not accepted. -/
theorem FileSystem.finite_lookupBelow (fs : FileSystem) (root : Path) :
    ∃ served : List String, ∀ (_ : Nat) name bytes,
      fs.lookupBelow root name = .ok (some bytes) → name ∈ served := by
  obtain ⟨all, hall⟩ := exists_texts_upTo (2 * FileSystem.pathLimit)
  refine ⟨all, fun _ name bytes h => hall name ?_⟩
  unfold FileSystem.lookupBelow at h
  split at h
  · cases h
  · next parts hparts =>
    simp only at h
    split at h
    · next contents hnode =>
      have hpath := FileSystem.length_le_of_node hnode
      have hdescend := Path.length_descend_le
        (parts.map fun part => Utf8.encode (String.ofList part)) root
      have hsum := length_flatten_le_encode parts
      have hname := length_le_of_resourceParts? hparts
      simp only [FileSystem.resourcePath] at hpath
      omega
    · cases h
    · split at h <;> cases h

/-- An archive serves finitely many names, those of its entries. -/
theorem Archive.finite_lookup (a : Archive) (path : Path) :
    ∃ served : List String, ∀ (_ : Nat) name bytes,
      a.lookup path name = .ok (some bytes) → name ∈ served := by
  refine ⟨a.entries.map (·.1), fun _ name bytes h => ?_⟩
  unfold Archive.lookup at h
  split at h
  · cases h
  · split at h
    · cases h
    · next hlookup => exact mem_map_fst_of_lookup hlookup

/-- A broken archive serves nothing. -/
theorem Archive.finite_refuse (path : Path) :
    ∃ served : List String, ∀ (_ : Nat) name bytes,
      Archive.refuse path name = .ok (some bytes) → name ∈ served := by
  refine ⟨[], fun _ name bytes h => ?_⟩
  unfold Archive.refuse at h
  split at h <;> cases h

/-- A container in memory serves finitely many names, those of its resources. -/
theorem Memory.finite_lookup (m : Memory) :
    ∃ served : List String, ∀ (_ : Nat) name bytes,
      m.lookup name = .ok (some bytes) → name ∈ served := by
  refine ⟨m.resources.map (·.1), fun _ name bytes h => ?_⟩
  unfold Memory.lookup at h
  split at h
  · cases h
  all_goals exact mem_map_fst_of_lookup (by assumption)

/-! ## Media -/

/-- What a container is made of. -/
inductive Medium where
  | directory (root : Path)
  /-- An archive that was opened from a path, and whether a lookup has brought it down. -/
  | archive (path : Path) (contents : Archive) (down : Bool)
  | memory (contents : Memory)

namespace Medium

/-- The container that a medium makes over a file system. -/
def container (fs : FileSystem) : Medium → Container
  | directory root =>
    ⟨root, fun _ => fs.lookupBelow root, fs.resourcesBelow root, fs.finite_lookupBelow root⟩
  | archive path a false =>
    ⟨path, fun _ => a.lookup path, .ok a.fileNames, a.finite_lookup path⟩
  | archive path _ true =>
    ⟨path, fun _ => Archive.refuse path, .error (.lockRejected path), Archive.finite_refuse path⟩
  | memory m => ⟨m.root, fun _ => m.lookup, m.list, m.finite_lookup⟩

/-- The path a medium was opened from. -/
def root : Medium → Path
  | directory root => root
  | archive path _ _ => path
  | memory m => m.root

/-- The number of entries of an archive. -/
def entryCount? : Medium → Option (Except ContainerError Nat)
  | archive _ a false => some (.ok a.entryCount)
  | archive path _ true => some (.error (.lockRejected path))
  | _ => none

/-- The medium after a lookup: an archive that broke down stays down. -/
def after {α : Type} : Except ContainerError α → Medium → Medium
  | .error (.crashed _), archive path a _ => archive path a true
  | _, m => m

/-- The media after the first archive among them that was opened from a path has broken down. -/
def takeDown (root : Path) : List Medium → List Medium
  | [] => []
  | archive path a down :: rest =>
    if path = root then archive path a true :: rest
    else archive path a down :: takeDown root rest
  | m :: rest => m :: takeDown root rest

def openDirectory (fs : FileSystem) (path : Path) : Except ContainerError Medium :=
  if fs.isDirectory path then .ok (directory path) else .error (.unavailable path)

/-- Why a file could not be opened: nothing there makes the container unavailable. -/
def openFault (path : Path) (f : Fault) : ContainerError :=
  if f = .notFound then .unavailable path else .io path f

def openArchive (fs : FileSystem) (path : Path) : Except ContainerError Medium :=
  match fs.node path with
  | .error f => .error (openFault path f)
  | .ok (.file contents) =>
    match Archive.parse contents with
    | .ok a => .ok (archive path a false)
    | .error f => .error (.archive path f)
  | .ok _ => .error (.archive path .unreadable)

/-- Opens what is at a path: a directory, or else an archive. -/
def openAt (fs : FileSystem) (path : Path) : Except ContainerError Medium :=
  match fs.node path with
  | .error f => .error (openFault path f)
  | .ok (.directory _) => openDirectory fs path
  | .ok _ => openArchive fs path

/-- The medium as a description shows it. -/
def describe : Medium → String
  | directory root => Description.record "DirectoryContainer" [("root", root.quoted)] false
  | archive path _ _ =>
    Description.record "ArchiveContainer"
      [("path", path.quoted), ("archive", Quoted.text "<ZipArchive>")] false
  | memory m => Description.record "MemoryContainer" [("root", m.root.quoted)] false

end Medium

end LiveUnits
