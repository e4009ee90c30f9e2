import LiveUnits.Identity
import LiveUnits.FileSystem.Walk

/-!
# Discovery of source files

`discover` finds every regular file below a source root that carries the source extension, and
gives each the identity its path spells.  Links to files count as files; links to directories are
not entered.  A file whose path spells no identity and a directory that cannot be opened are
reported and hide nothing but themselves and what is below them.
-/

namespace LiveUnits

/-- A source file and the identity it compiles to. -/
structure SourceUnit where
  path : Path
  /-- The path from the source root. -/
  relativePath : Path
  /-- The identity spelt by that path. -/
  identity : Identity
  deriving DecidableEq

/-- A part of the source tree that gives no source files. -/
inductive DiscoveryIssue where
  /-- The path of a file with the extension spells no identity. -/
  | invalidIdentity (path : Path) (error : IdentityError)
  /-- A directory below the root cannot be opened. -/
  | unreadableDirectory (path : Path) (fault : Fault)
  deriving DecidableEq

/-- The text of an issue. -/
def DiscoveryIssue.message : DiscoveryIssue → String
  | .invalidIdentity path error =>
    s!"Cannot derive an identity for '{path.display}': {error.message}"
  | .unreadableDirectory path fault =>
    s!"Failed to read directory '{path.display}': {fault.message}"

/-- What a search found, in the order of the search. -/
structure Findings where
  units : List SourceUnit := []
  issues : List DiscoveryIssue := []

namespace Findings

/-- The findings of two searches. -/
def append (a b : Findings) : Findings := ⟨a.units ++ b.units, a.issues ++ b.issues⟩

instance : Append Findings := ⟨append⟩

/-- The findings with the units in the order of their paths from the root. -/
def sorted (f : Findings) : Findings :=
  { f with units := f.units.mergeSort fun a b => a.relativePath.compare b.relativePath != .gt }

end Findings

namespace FileSystem

/-- What is searched: below which root, and for which extension. -/
structure Search where
  root : Path
  /-- The extension of source files. -/
  extension : String

def carries (p : Path) (extension : String) : Bool :=
  p.extension?.bind Utf8.decode? == some extension

/-- A file that carries the extension: a source file, or an issue. -/
def Search.claim (s : Search) (path relative : Path) : Findings :=
  match Identity.ofSourcePath relative s.extension with
  | .ok n => { units := [⟨path, relative, n⟩] }
  | .error e => { issues := [.invalidIdentity path e] }

/-- What the operating system grants a search. -/
@[ext]
structure Access where
  /-- Why a directory cannot be opened, if it cannot. -/
  refusal? : Path → Option Fault
  /-- Whether a path leads to a regular file, links followed. -/
  isFile : Path → Bool

/-- Whether an entry is a source file: a regular file, or a link to one, that carries the extension. -/
def Access.isSource (a : Access) (s : Search) (path relative : Path) (x : Node) : Bool :=
  (x.isFile || (x.isLink && a.isFile path)) && carries relative s.extension

/-- A search on its way: the directories that wait to be opened, the last one first, and what was found
so far. -/
structure Progress where
  /-- The paths of the directories from the root, and their entries. -/
  pending : List (Path × List (Name × Node)) := []
  found : Findings := {}

/-- Takes an entry of an opened directory: a directory waits, a source file is claimed, anything else is
passed over. -/
def Access.take (a : Access) (s : Search) (relative : Path) (w : Progress) (entry : Name × Node) :
    Progress :=
  let path := (s.root.join relative).joinBytes entry.1
  let below := relative.joinBytes entry.1
  match entry.2 with
  | .directory entries => { w with pending := (below, entries) :: w.pending }
  | x => if a.isSource s path below x then { w with found := w.found ++ s.claim path below } else w

/-- Takes all entries of an opened directory. -/
def Access.read (a : Access) (s : Search) (relative : Path) (entries : List (Name × Node))
    (w : Progress) : Progress :=
  entries.foldl (a.take s relative) w

/-- How many directories wait, with everything below them. -/
def Progress.size (w : Progress) : Nat :=
  w.pending.foldr (fun d rest => (Node.descendantsIn d.2).length + 1 + rest) 0

/-- A directory that is read adds no more to what waits than what is below it. -/
theorem Access.size_read (a : Access) (s : Search) (relative : Path) (entries : List (Name × Node))
    (w : Progress) : (a.read s relative entries w).size ≤ w.size + (Node.descendantsIn entries).length := by
  induction entries generalizing w with
  | nil => exact Nat.le_add_right _ _
  | cons entry rest ih =>
      obtain ⟨name, x⟩ := entry
      have hrest := ih (a.take s relative w (name, x))
      have hentry : (a.take s relative w (name, x)).size ≤ w.size + x.descendants.length + 1 := by
        unfold take
        cases x with
        | directory entries =>
            simp only [Progress.size, List.foldr_cons, Node.descendants]
            omega
        | file contents => dsimp only; split <;> exact Nat.le_add_right _ _
        | link target => dsimp only; split <;> exact Nat.le_add_right _ _
      rw [read, List.foldl_cons, Node.descendantsIn]
      simp only [List.cons_append, List.length_cons, List.length_append, List.length_map]
      unfold read at hrest
      omega

/-- Opens one waiting directory after the other, until none waits.  A directory that cannot be opened is
an issue, but the root is a failure. -/
def Access.walk (a : Access) (s : Search) (isRoot : Bool) (w : Progress) : Except Fault Findings :=
  match w with
  | ⟨[], found⟩ => .ok found.sorted
  | ⟨(relative, entries) :: pending, found⟩ =>
    match a.refusal? (s.root.join relative) with
    | none => a.walk s false (a.read s relative entries ⟨pending, found⟩)
    | some f =>
      if isRoot then .error f
      else a.walk s isRoot
        ⟨pending, found ++ { issues := [.unreadableDirectory (s.root.join relative) f] }⟩
termination_by w.size
decreasing_by
  · have hsize := a.size_read s relative entries ⟨pending, found⟩
    simp only [Progress.size, List.foldr_cons] at hsize ⊢
    omega
  · simp only [Progress.size, List.foldr_cons]
    omega

/-- The source files below a root with these entries, in the order of their paths from the root, and
the issues. -/
def Access.discover (a : Access) (s : Search) (entries : List (Name × Node)) : Except Fault Findings :=
  a.walk s true { pending := [(.empty, entries)] }

/-- What a search is granted where nothing but the tree decides. -/
def access (fs : FileSystem) : Access where
  refusal? p :=
    match fs.list p with
    | .ok _ => none
    | .error f => some f
  isFile := fs.isFile

/-- The source files below a root, and the issues. -/
def discover (fs : FileSystem) (root : Path) (extension : String) : Except Fault Findings := do
  fs.access.discover ⟨root, extension⟩ (← fs.list (root.join .empty))

end FileSystem

end LiveUnits
