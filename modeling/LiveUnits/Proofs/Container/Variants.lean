import LiveUnits.Proofs.Container.Listing
import LiveUnits.Proofs.FileSystem.Discarding
import LiveUnits.Proofs.Loader.Step

/-!
# Directories and archives

A directory without links and an archive of its files hold the same resources (`Node.resource?`), and
serve them alike (`Archive.Mirrors.variants`).  They differ in one kind of absence.  A name that the
operating system does not even look up, since it is too long or holds a NUL, is not absent from the
directory but an error (`FileSystem.Refuses`).
-/

namespace LiveUnits

namespace Node

/-- The contents of a file. -/
def contents? : Node → Option Bytes
  | file contents => some contents
  | _ => none

/-- The contents of the file that a resource name leads to below a node. -/
def resource? (x : Node) (name : String) : Option Bytes :=
  (resourceParts? name).bind fun parts => (x.get? (namesOf parts)).bind contents?

/-- Only files have contents. -/
theorem contents?_eq_some {x : Node} {contents : Bytes} : x.contents? = some contents ↔ x = file contents := by
  cases x with
  | file bytes => exact ⟨fun h => congrArg file (Option.some.inj h), fun h => congrArg some (file.inj h)⟩
  | link target => exact ⟨nofun, nofun⟩
  | directory entries => exact ⟨nofun, nofun⟩

/-- An archive gives for a name the contents of the file that its parts lead to. -/
theorem resource?_eq_some {x : Node} {name : String} {contents : Bytes} :
    x.resource? name = some contents ↔
      ∃ parts, resourceParts? name = some parts ∧ x.get? (namesOf parts) = some (file contents) := by
  simp only [resource?, Option.bind_eq_some_iff, contents?_eq_some, exists_eq_right]

end Node

namespace FileSystem

variable {fs : FileSystem} {root : Path} {L l : Location} {names : List Name} {name : String}

/-! ## Walks without links -/

/-- A name behind a directory is too long. -/
def Overlong (fs : FileSystem) (l : Location) (names : List Name) : Prop :=
  ∃ front n rest, names = front ++ n :: rest ∧ fs.HasDirectory (l ++ front) ∧ nameLimit < n.length

/-- A name that is short enough is not the one that is too long. -/
theorem overlong_cons {n : Name} {rest : List Name} (hn : n.length ≤ nameLimit) :
    fs.Overlong l (n :: rest) ↔ fs.Overlong (l ++ [n]) rest := by
  constructor
  · rintro ⟨front, m, more, hsplit, hdirectory, hlong⟩
    cases front with
    | nil =>
        obtain ⟨rfl, -⟩ := List.cons.inj hsplit
        omega
    | cons k front =>
        obtain ⟨rfl, hrest⟩ := List.cons.inj hsplit
        refine ⟨front, m, more, hrest, ?_, hlong⟩
        rwa [List.append_assoc]
  · rintro ⟨front, m, more, rfl, hdirectory, hlong⟩
    refine ⟨n :: front, m, more, rfl, ?_, hlong⟩
    rwa [List.append_assoc] at hdirectory

/-- Below what is no directory no name is too long. -/
theorem not_overlong (h : ¬ fs.HasDirectory l) : ¬ fs.Overlong l names := by
  rintro ⟨front, n, rest, -, hdirectory, -⟩
  refine h ?_
  clear h
  induction front using List.reverseRecOn with
  | nil => rwa [List.append_nil] at hdirectory
  | append_singleton before m ih =>
      rw [← List.append_assoc] at hdirectory
      obtain ⟨entries, hentries⟩ := hdirectory
      exact ih (hasDirectory_above hentries)

/-- What following names from a directory gives if no link is on the way. -/
inductive Reaches (fs : FileSystem) (l : Location) (names : List Name) : Except Fault Spot → Prop where
  | overlong (h : fs.Overlong l names) : Reaches fs l names (.error .nameTooLong)
  | found {x : Node} (hshort : ¬ fs.Overlong l names) (h : fs.root.get? (l ++ names) = some x) :
      Reaches fs l names (.ok (.found (l ++ names) x))
  | vacant (hshort : ¬ fs.Overlong l names) (h : fs.root.get? (l ++ names) = none) (d : Location) (n : Name) :
      Reaches fs l names (.ok (.vacant d n))
  | absent (hshort : ¬ fs.Overlong l names) (h : fs.root.get? (l ++ names) = none) {f : Fault}
      (hf : f.isAbsence = true) : Reaches fs l names (.error f)

/-- What is followed from an entry is followed from its directory. -/
theorem Reaches.cons {n : Name} {rest : List Name} {r : Except Fault Spot} (hn : n.length ≤ nameLimit)
    (h : fs.Reaches (l ++ [n]) rest r) : fs.Reaches l (n :: rest) r := by
  have hbelow : l ++ [n] ++ rest = l ++ n :: rest := by simp
  cases h with
  | overlong h => exact .overlong ((overlong_cons hn).mpr h)
  | found hshort h =>
      rw [hbelow] at h ⊢
      exact .found ((overlong_cons hn).not.mpr hshort) h
  | vacant hshort h d m =>
      rw [hbelow] at h
      exact .vacant ((overlong_cons hn).not.mpr hshort) h d m
  | absent hshort h hf =>
      rw [hbelow] at h
      exact .absent ((overlong_cons hn).not.mpr hshort) h hf

/-- **Without links a walk goes straight down**, up to a name that is too long. -/
theorem reaches_walk (hdirectory : fs.HasDirectory l) (hplain : ∀ n ∈ names, PlainName n)
    (hlinks : ∀ front target, fs.root.get? (l ++ front) ≠ some (.link target)) (links : Nat) :
    fs.Reaches l names (fs.walk true false links l names) := by
  induction names generalizing l with
  | nil =>
      obtain ⟨entries, h⟩ := hdirectory
      have hshort : ¬ fs.Overlong l [] := by
        rintro ⟨front, n, rest, hsplit, -⟩
        exact List.append_ne_nil_of_right_ne_nil front (List.cons_ne_nil n rest) hsplit.symm
      have hfound : fs.root.get? (l ++ []) = some (.directory entries) := by rw [List.append_nil, h]
      have hreaches := Reaches.found hshort hfound
      rw [List.append_nil] at hreaches
      rwa [walk_arrived h]
  | cons n rest ih =>
      obtain ⟨hn, hrest⟩ := List.forall_mem_cons.mp hplain
      obtain ⟨entries, hhere⟩ := hdirectory
      have hentry : fs.root.get? (l ++ [n]) = entries.lookup n := Node.get?_concat hhere n
      have hbelow : fs.root.get? (l ++ n :: rest) = (entries.lookup n).bind fun x => x.get? rest := by
        rw [List.append_cons, Node.get?_append, hentry]
      by_cases hlength : n.length ≤ nameLimit
      · rw [walk_enter ⟨hn.ne_here, hn.ne_up, hlength⟩ hhere]
        have hshort (h : ¬ fs.HasDirectory (l ++ [n])) : ¬ fs.Overlong l (n :: rest) :=
          (overlong_cons hlength).not.mpr (not_overlong h)
        cases hx : entries.lookup n with
        | none =>
            rw [hx] at hentry hbelow
            have hshort' := hshort (by rintro ⟨below, h⟩; rw [hentry] at h; cases h)
            by_cases hend : rest = []
            · simp only [hend, if_true] at hshort' hbelow ⊢
              exact .vacant hshort' hbelow l n
            · simp only [hend, if_false]
              exact .absent hshort' hbelow (by decide)
        | some x =>
            rw [hx] at hentry hbelow
            cases x with
            | file contents =>
                have hshort' := hshort (by rintro ⟨below, h⟩; rw [hentry] at h; cases h)
                by_cases hend : rest = []
                · subst hend
                  exact .found hshort' hbelow
                · obtain ⟨m, more, rfl⟩ := List.exists_cons_of_ne_nil hend
                  exact .absent hshort' hbelow (by decide)
            | link target => exact absurd hentry (hlinks [n] target)
            | directory below =>
                refine Reaches.cons hlength (ih ⟨below, hentry⟩ hrest fun front target => ?_)
                rw [List.append_assoc]
                exact hlinks ([n] ++ front) target
      · have hlong : nameLimit < n.length := Nat.not_le.mp hlength
        have hrefused : fs.walk true false links l (n :: rest) = .error .nameTooLong := by
          rw [walk, hhere]
          simp [hn.ne_here, hn.ne_up, hlong]
        rw [hrefused]
        refine .overlong ⟨[], n, rest, rfl, ⟨entries, ?_⟩, hlong⟩
        rwa [List.append_nil]

/-! ## Names that are refused -/

/-- Why the operating system does not look a resource name up. -/
inductive Refuses (fs : FileSystem) (root : Path) (L : Location) (name : String) : Fault → Prop where
  /-- The path holds a NUL. -/
  | nul {parts : List (List Char)} (hparts : resourceParts? name = some parts)
      (hnul : 0 ∈ (root.descend (namesOf parts)).bytes) : Refuses fs root L name .interiorNul
  /-- The path is too long. -/
  | path {parts : List (List Char)} (hparts : resourceParts? name = some parts)
      (hnul : 0 ∉ (root.descend (namesOf parts)).bytes)
      (hlong : pathLimit < (root.descend (namesOf parts)).bytes.length) :
      Refuses fs root L name .nameTooLong
  /-- A name behind a directory is too long. -/
  | name {parts : List (List Char)} (hparts : resourceParts? name = some parts)
      (haccepted : Accepted (root.descend (namesOf parts))) (hlong : fs.Overlong L (namesOf parts)) :
      Refuses fs root L name .nameTooLong

/-- What a lookup makes of where its path leads. -/
theorem lookupBelow_eq {parts : List (List Char)} (hparts : resourceParts? name = some parts) :
    fs.lookupBelow root name = match fs.locateWith true false (root.descend (namesOf parts)) with
      | .ok (.found _ x) => .ok x.contents?
      | .ok (.vacant _ _) => .ok none
      | .error f => if f.isAbsence then .ok none else .error (.io (root.descend (namesOf parts)) f) := by
  obtain ⟨hne, hplain⟩ := plain_namesOf hparts
  have hlocate : fs.locate true (root.descend (namesOf parts)) =
      fs.locateWith true false (root.descend (namesOf parts)) := by
    unfold locate
    rw [isTrailing_descend root hne hplain]
  have hpath : resourcePath root parts = root.descend (namesOf parts) := rfl
  unfold lookupBelow
  rw [hparts]
  dsimp only
  rw [hpath]
  unfold node
  rw [hlocate]
  cases fs.locateWith true false (root.descend (namesOf parts)) with
  | error f => rfl
  | ok spot =>
      cases spot with
      | vacant d n => rfl
      | found l x => cases x <;> rfl

section Unlinked

variable {x : Node} (harrives : fs.Arrives root L)
  (hlinks : ∀ front target, fs.root.get? (L ++ front) ≠ some (.link target))

include harrives hlinks

/-- The path of a resource is followed straight down from the directory. -/
theorem reaches_locate {parts : List (List Char)} (hparts : resourceParts? name = some parts)
    (haccepted : Accepted (root.descend (namesOf parts))) :
    fs.Reaches L (namesOf parts) (fs.locateWith true false (root.descend (namesOf parts))) := by
  obtain ⟨hne, hplain⟩ := plain_namesOf hparts
  obtain ⟨left, hwalk⟩ := harrives.locate_eq hne hplain haccepted
  obtain ⟨entries, hroot, -⟩ := harrives.exists_list
  rw [hwalk]
  exact reaches_walk ⟨entries, hroot⟩ hplain hlinks left

/-- A name that is refused is an error. -/
theorem Refuses.lookupBelow {f : Fault} (h : fs.Refuses root L name f) :
    ∃ parts, resourceParts? name = some parts ∧
      fs.lookupBelow root name = .error (.io (root.descend (namesOf parts)) f) := by
  cases h with
  | @nul parts hparts hnul =>
      refine ⟨parts, hparts, ?_⟩
      rw [lookupBelow_eq hparts, locateWith, if_pos hnul]
      rfl
  | @path parts hparts hnul hlong =>
      have hne : (root.descend (namesOf parts)).bytes ≠ [] := by
        intro hnil
        rw [hnil] at hlong
        exact Nat.not_lt_zero _ hlong
      refine ⟨parts, hparts, ?_⟩
      rw [lookupBelow_eq hparts, locateWith, if_neg hnul, if_neg hne, if_pos hlong]
      rfl
  | @name parts hparts haccepted hlong =>
      have hreaches := reaches_locate harrives hlinks hparts haccepted
      refine ⟨parts, hparts, ?_⟩
      rw [lookupBelow_eq hparts]
      generalize fs.locateWith true false (root.descend (namesOf parts)) = result at hreaches
      cases hreaches with
      | overlong _ => rfl
      | found hshort _ => exact absurd hlong hshort
      | vacant hshort _ _ _ => exact absurd hlong hshort
      | absent hshort _ _ => exact absurd hlong hshort

/-- **Any other name is answered with the file it leads to**, or with nothing. -/
theorem lookupBelow_of_not_refuses (hx : fs.root.get? L = some x) (h : ∀ f, ¬ fs.Refuses root L name f) :
    fs.lookupBelow root name = .ok (x.resource? name) := by
  unfold Node.resource?
  cases hparts : resourceParts? name with
  | none =>
      unfold lookupBelow
      rw [hparts]
      rfl
  | some parts =>
      have hbelow : fs.root.get? (L ++ namesOf parts) = x.get? (namesOf parts) := by
        rw [Node.get?_append, hx, Option.bind_some]
      have haccepted : Accepted (root.descend (namesOf parts)) := by
        obtain ⟨entries, hlocate⟩ := harrives
        have hroot := (locateWith_eq_ok.mp hlocate).1.ne_nil
        have hnul := fun hmem => h _ (.nul hparts hmem)
        refine ⟨hnul, fun hnil => hroot ?_, Nat.not_lt.mp fun hlong => h _ (.path hparts hnul hlong)⟩
        exact List.prefix_nil.mp (hnil ▸ root.prefix_descend (namesOf parts))
      have hreaches := reaches_locate harrives hlinks hparts haccepted
      rw [lookupBelow_eq hparts, Option.bind_some, ← hbelow]
      generalize fs.locateWith true false (root.descend (namesOf parts)) = result at hreaches
      cases hreaches with
      | overlong hlong => exact absurd (.name hparts haccepted hlong) (h _)
      | found _ hfound => rw [hfound, Option.bind_some]
      | vacant _ hnone _ _ => rw [hnone, Option.bind_none]
      | absent _ hnone hf =>
          rw [hnone, Option.bind_none]
          exact if_pos hf

end Unlinked

end FileSystem

/-! ## Archives -/

namespace Archive

/-- Reading an entry gives these bytes. -/
structure Gives (a : Archive) (e : Entry) (contents : Bytes) : Prop where
  /-- The entry announces no more bytes than memory can hold. -/
  fits : e.isHuge = false
  /-- What the archive keeps unpacks to the bytes. -/
  unpacks : ∃ kept, a.kept e = .ok kept ∧ e.unpack? kept = some contents

/-- An archive has one entry for each file below a node, under the parts that lead to the file. -/
structure Mirrors (a : Archive) (x : Node) : Prop where
  /-- Every entry has the name of a file. -/
  only : ∀ name e, a.entries.lookup name = some e → ∃ (parts : List String) (contents : Bytes),
    name = "/".intercalate parts ∧ x.get? (parts.map Utf8.encode) = some (.file contents)
  /-- Every file has an entry that gives its contents. -/
  every : ∀ (parts : List String) contents, x.get? (parts.map Utf8.encode) = some (.file contents) →
    ∃ e, a.entries.lookup ("/".intercalate parts) = some e ∧ a.Gives e contents

variable {a : Archive} {x : Node}

/-- Below a directory the parts of a resource name are those that lead to its file. -/
theorem parts_of_get? (htidy : x.Tidy) (hx : x.isDirectory = true) {name : String}
    {parts : List (List Char)} (hparts : resourceParts? name = some parts) {others : List String}
    {contents : Bytes} (hname : name = "/".intercalate others)
    (hget : x.get? (others.map Utf8.encode) = some (.file contents)) : others.map Utf8.encode = namesOf parts := by
  obtain ⟨hne, hplain⟩ := plain_namesOf hparts
  have hothers : others ≠ [] := by
    rintro rfl
    obtain rfl := Option.some.inj hget
    cases hx
  have hslash {l : List String} (hl : ∀ n ∈ l.map Utf8.encode, PlainName n) : ∀ s ∈ l, '/' ∉ s.toList :=
    fun s hs hmem => (hl _ (List.mem_map_of_mem hs)).no_slash (Utf8.mem_encode_of_mem (c := '/') (by decide) hmem)
  rw [namesOf_eq] at hne hplain ⊢
  refine congrArg (List.map Utf8.encode) ?_
  refine intercalate_slash_inj (hslash (htidy.of_get? hget).1) (hslash hplain) hothers (by simpa using hne) ?_
  rw [← hname, intercalate_of_resourceParts? hparts]

/-- An archive answers with the file that a name leads to. -/
theorem Mirrors.lookup (h : a.Mirrors x) (htidy : x.Tidy) (hx : x.isDirectory = true) (path : Path)
    (name : String) : a.lookup path name = .ok (x.resource? name) := by
  unfold Archive.lookup Node.resource?
  cases hparts : resourceParts? name with
  | none => rfl
  | some parts =>
      have hname := intercalate_of_resourceParts? hparts
      simp only [Option.bind_some]
      cases hlookup : a.entries.lookup name with
      | none =>
          refine congrArg Except.ok (Option.eq_none_iff_forall_ne_some.mpr fun contents hfile => ?_).symm
          -- a file would have an entry
          obtain ⟨y, hget, hy⟩ := Option.bind_eq_some_iff.mp hfile
          obtain rfl := Node.contents?_eq_some.mp hy
          rw [namesOf_eq] at hget
          obtain ⟨e, he, -⟩ := h.every _ contents hget
          rw [hname, hlookup] at he
          cases he
      | some e =>
          obtain ⟨others, contents, hothers, hget⟩ := h.only name e hlookup
          obtain ⟨e', he', hgives⟩ := h.every others contents hget
          rw [← hothers, hlookup] at he'
          obtain rfl := Option.some.inj he'
          obtain ⟨hfits, kept, hkept, hunpack⟩ := hgives
          rw [← parts_of_get? htidy hx hparts hothers hget, hget]
          simp only [hkept, hfits, hunpack, Bool.false_eq_true, if_false]
          rfl

end Archive

/-! ## One in place of the other -/

/-- A container may be replaced by one that answers a lookup alike: the same bytes are found. -/
theorem scan_replace {c c' : Container} {name : String}
    (h : ∀ clock, c'.lookup clock name = c.lookup clock name) (before after : List Container) (clock : Nat) :
    (scan name (before ++ c' :: after) clock).1.map (Option.map Found.bytes) =
      (scan name (before ++ c :: after) clock).1.map (Option.map Found.bytes) := by
  induction before generalizing clock with
  | nil =>
      rw [List.nil_append, List.nil_append]
      unfold scan
      rw [h]
      cases c.lookup clock name with
      | error e => rfl
      | ok answer => cases answer <;> rfl
  | cons d rest ih =>
      rw [List.cons_append, List.cons_append]
      unfold scan
      cases d.lookup clock name with
      | error e => rfl
      | ok answer =>
          cases answer with
          | none => exact ih (clock + 1)
          | some bytes => rfl

/-- Loaders that differ in one container: a directory, or an archive. -/
structure Loader.Swaps (l l' : Loader) (c c' : Container) : Prop where
  extension : l'.artifactExtension = l.artifactExtension
  containers : ∃ before after, l.containers = before ++ c :: after ∧ l'.containers = before ++ c' :: after

/-- A loader leaves a name to the host. -/
def Loader.FallsBack (l : Loader) (n : Identity) (clock : Nat) : Prop := (l.scanFor n clock).1 = .ok none

/-- Swapping a container for one that has the same bytes under a name gives the same bytes. -/
theorem Loader.Swaps.scanFor {l l' : Loader} {c c' : Container} (h : l.Swaps l' c c') {n : Identity}
    (hsame : ∀ clock, c'.lookup clock (n.resourceName l.artifactExtension) =
      c.lookup clock (n.resourceName l.artifactExtension)) (clock : Nat) :
    (l'.scanFor n clock).1.map (Option.map Found.bytes) =
      (l.scanFor n clock).1.map (Option.map Found.bytes) := by
  obtain ⟨before, after, hcontainers, hcontainers'⟩ := h.containers
  unfold Loader.scanFor
  rw [hcontainers, hcontainers', h.extension]
  exact scan_replace hsame before after clock

namespace Archive

/-- What a directory and an archive of its files answer. -/
structure Variants (a : Archive) (fs : FileSystem) (root : Path) (L : Location) (x : Node) : Prop where
  /-- The archive answers with the file a name leads to. -/
  archive : ∀ path name, a.lookup path name = .ok (x.resource? name)
  /-- So does the directory, unless it refuses the name. -/
  directory : ∀ name, (∀ f, ¬ fs.Refuses root L name f) → fs.lookupBelow root name = .ok (x.resource? name)
  /-- What it refuses is an error. -/
  refused : ∀ name f, fs.Refuses root L name f → ∃ parts, resourceParts? name = some parts ∧
    fs.lookupBelow root name = .error (.io (root.descend (namesOf parts)) f)
  /-- If every file can be read, only names that lead to no file are refused. -/
  absent : (∀ names contents, x.get? names = some (.file contents) →
      fs.read (root.descend names) = .ok contents) →
    ∀ name f, fs.Refuses root L name f → x.resource? name = none
  /-- A loader over either finds the same for every other name, and leaves the same to the host. -/
  loaders : ∀ (path : Path) (l l' : Loader), l.Swaps l' (Medium.container fs (.directory root))
      (Medium.container fs (.archive path a false)) →
    ∀ (n : Identity) clock, (∀ f, ¬ fs.Refuses root L (n.resourceName l.artifactExtension) f) →
      ((l'.scanFor n clock).1.map (Option.map Found.bytes) =
        (l.scanFor n clock).1.map (Option.map Found.bytes)) ∧
      (l'.FallsBack n clock ↔ l.FallsBack n clock)

variable {a : Archive} {fs : FileSystem} {root : Path} {L : Location} {x : Node}

/-- **A directory and an archive of its files are interchangeable**, but for the names that the operating
system refuses. -/
theorem Mirrors.variants (h : a.Mirrors x) (htidy : fs.root.Tidy) (harrives : fs.Arrives root L)
    (hx : fs.root.get? L = some x)
    (hlinks : ∀ front target, fs.root.get? (L ++ front) ≠ some (.link target)) :
    a.Variants fs root L x := by
  have hdirectory : x.isDirectory = true := by
    obtain ⟨entries, hroot, -⟩ := harrives.exists_list
    obtain rfl := Option.some.inj (hx.symm.trans hroot)
    rfl
  have harchive (path : Path) (name : String) : a.lookup path name = .ok (x.resource? name) :=
    h.lookup (htidy.of_get? hx).2 hdirectory path name
  have hserves (name : String) (hname : ∀ f, ¬ fs.Refuses root L name f) :
      fs.lookupBelow root name = .ok (x.resource? name) :=
    FileSystem.lookupBelow_of_not_refuses harrives hlinks hx hname
  refine ⟨harchive, hserves, fun name f hf => hf.lookupBelow harrives hlinks, fun hread name f hf => ?_,
    fun path l l' hswaps n clock hname => ?_⟩
  · obtain ⟨parts, hparts, herror⟩ := hf.lookupBelow harrives hlinks
    by_contra hfile
    obtain ⟨contents, hcontents⟩ := Option.ne_none_iff_exists'.mp hfile
    obtain ⟨parts', hparts', hget⟩ := Node.resource?_eq_some.mp hcontents
    have hserved := FileSystem.lookupBelow_eq_some.mpr ⟨parts', hparts', hread _ contents hget⟩
    rw [hserved] at herror
    cases herror
  · have hfound := hswaps.scanFor (n := n) (fun _ => (harchive path _).trans (hserves _ hname).symm) clock
    refine ⟨hfound, ?_⟩
    have hnone (r : Except ContainerError (Option Found)) :
        r = .ok none ↔ r.map (Option.map Found.bytes) = .ok none := by
      cases r with
      | error e => exact ⟨nofun, nofun⟩
      | ok found => cases found <;> simp [Except.map]
    unfold Loader.FallsBack
    rw [hnone, hnone, hfound]

namespace Mirrored

/-- The path of the directory. -/
def library : Path := .ofString "r"

/-- A directory of one empty file. -/
def tree : Node := .directory [(Utf8.encode "a", .file [])]

def files : FileSystem := ⟨.directory [(Utf8.encode "r", tree)], []⟩

/-- An archive of one empty file. -/
def data : Bytes :=
  localMark ++ [20, 0, 0, 0, 0, 0, 0, 0, 33, 0] ++ List.replicate 12 0 ++ [1, 0, 0, 0, 97] ++
    headerMark ++ [20, 3, 20, 0, 0, 0, 0, 0, 0, 0, 33, 0] ++ List.replicate 12 0 ++ [1, 0] ++
      List.replicate 10 0 ++ [128, 1, 0, 0, 0, 0, 97] ++
    endMark ++ [0, 0, 0, 0, 1, 0, 1, 0, 47, 0, 0, 0, 31, 0, 0, 0, 0, 0]

def entry : Entry := ⟨false, false, .stored, 0, 0, 0, 0⟩

def archive : Archive := ⟨data, [("a", entry)]⟩

/-- Below the directory there is the file, and nothing else. -/
theorem get?_tree {l : Location} {y : Node} (h : tree.get? l = some y) :
    (l = [] ∧ y = tree) ∨ l = [Utf8.encode "a"] ∧ y = .file [] := by
  cases l with
  | nil => exact .inl ⟨rfl, (Option.some.inj h).symm⟩
  | cons n rest =>
      by_cases hn : n = Utf8.encode "a"
      · subst hn
        cases rest with
        | nil => exact .inr ⟨rfl, (Option.some.inj h).symm⟩
        | cons m more => cases h
      · rw [Node.get?_cons, tree, Node.child?_directory, List.lookup_cons, beq_false_of_ne hn] at h
        cases h

/-- The archive has the entries of the tree. -/
theorem mirrors : archive.Mirrors tree where
  only := by
    intro name e h
    have hname : name = "a" := by
      by_contra hne
      rw [archive, List.lookup_cons, beq_false_of_ne hne] at h
      cases h
    exact ⟨["a"], [], by rw [hname, String.intercalate_singleton], rfl⟩
  every := by
    intro parts contents h
    rcases get?_tree h with ⟨-, hfile⟩ | ⟨hparts, hfile⟩
    · cases hfile
    · obtain rfl : parts = ["a"] :=
        (List.map_inj_right fun _ _ => Utf8.encode_inj).mp (hparts : _ = ["a"].map Utf8.encode)
      obtain rfl := Node.file.inj hfile
      refine ⟨entry, ?_, by decide, [], by cbv, by cbv⟩
      rw [String.intercalate_singleton]
      rfl

/-- A name that holds a NUL. -/
def name : String := String.ofList ['\x00']

/-- The archive is one that can be opened, and the name is absent from it, but refused by the directory. -/
theorem variants_mirrored : archive.Mirrors tree ∧ files.root.Tidy ∧
    files.Arrives library [Utf8.encode "r"] ∧ files.root.get? [Utf8.encode "r"] = some tree ∧
    (∀ front target, files.root.get? ([Utf8.encode "r"] ++ front) ≠ some (.link target)) ∧
    archive.Variants files library [Utf8.encode "r"] tree ∧ Archive.parse data = .ok archive ∧
    archive.lookup library name = .ok none ∧
    files.lookupBelow library name = .error (.io (.ofString "r/\x00") .interiorNul) := by
  have hplain : PlainName (Utf8.encode "a") := ⟨by decide, by decide, by decide, by decide⟩
  have htidy : files.root.Tidy :=
    .singleton ⟨by decide, by decide, by decide, by decide⟩ (.singleton hplain (.file []))
  have harrives : files.Arrives library [Utf8.encode "r"] := ⟨_, by cbv⟩
  have htree : files.root.get? [Utf8.encode "r"] = some tree := rfl
  have hlinks : ∀ front target, files.root.get? ([Utf8.encode "r"] ++ front) ≠ some (.link target) := by
    intro front target hlink
    rw [Node.get?_append, htree, Option.bind_some] at hlink
    rcases get?_tree hlink with ⟨-, hsame⟩ | ⟨-, hsame⟩
    · cases hsame
    · cases hsame
  exact ⟨mirrors, htidy, harrives, htree, hlinks, mirrors.variants htidy harrives htree hlinks, by cbv,
    by cbv, by cbv⟩

end Mirrored

end Archive

end LiveUnits
