import Mathlib
import LiveUnits.Proofs.Container.Directory
import LiveUnits.Proofs.FileSystem.Descent
import LiveUnits.Proofs.FileSystem.Sameness

/-!
# The inventory of a directory

Listing goes through the entries of a directory as they are: a file is listed, a link is listed if it
leads to a file, and a directory is entered (`FileSystem.tells`).  Looking a resource up follows its path,
and so goes through links to directories as well.  So what is listed is what is served with directories
alone on the way (`FileSystem.inventory`): everything that is served, if no link leads to a directory.
-/

namespace LiveUnits

namespace FileSystem

variable {fs : FileSystem} {root path : Path} {L : Location} {start name : String}
  {entries : List (Name × Node)} {resources listed : List String}

/-- What parts lead to below a node is listed: it is a file or a link, and the path leads to a file. -/
def Shows (fs : FileSystem) (path : Path) (x : Node) (parts : List String) : Prop :=
  ∃ y, x.get? (parts.map Utf8.encode) = some y ∧ y.isDirectory = false ∧
    fs.isFile (path.descend (parts.map Utf8.encode)) = true

/-- Every directory that parts lead to below a node can be listed. -/
def Lists (fs : FileSystem) (path : Path) (x : Node) : Prop :=
  ∀ (parts : List String) entries, x.get? (parts.map Utf8.encode) = some (.directory entries) →
    ∃ es, fs.list (path.descend (parts.map Utf8.encode)) = .ok es

/-- What is shown below a directory is shown below one of its entries. -/
theorem shows_directory (htidy : (Node.directory entries).Tidy) {parts : List String} :
    fs.Shows path (.directory entries) parts ↔ ∃ s rest x, parts = s :: rest ∧
      (Utf8.encode s, x) ∈ entries ∧ fs.Shows (path.joinBytes (Utf8.encode s)) x rest := by
  constructor
  · rintro ⟨y, hget, hleaf, hfile⟩
    cases parts with
    | nil =>
        obtain rfl := Option.some.inj hget
        cases hleaf
    | cons s rest =>
        rw [List.map_cons, Node.get?_cons] at hget
        obtain ⟨x, hx, hbelow⟩ := Option.bind_eq_some_iff.mp hget
        exact ⟨s, rest, x, rfl, htidy.lookup_eq_some.mp hx, y, hbelow, hleaf, hfile⟩
  · rintro ⟨s, rest, x, rfl, hx, y, hbelow, hleaf, hfile⟩
    refine ⟨y, ?_, hleaf, hfile⟩
    rw [List.map_cons, Node.get?_cons, Node.child?_directory, htidy.lookup_eq_some.mpr hx]
    exact hbelow

/-- The directories below a directory are itself and those below its entries. -/
theorem lists_directory (htidy : (Node.directory entries).Tidy) :
    fs.Lists path (.directory entries) ↔ (∃ es, fs.list path = .ok es) ∧
      ∀ s x, (Utf8.encode s, x) ∈ entries → fs.Lists (path.joinBytes (Utf8.encode s)) x := by
  constructor
  · intro h
    refine ⟨h [] entries rfl, fun s x hx parts below hbelow => h (s :: parts) below ?_⟩
    rw [List.map_cons, Node.get?_cons, Node.child?_directory, htidy.lookup_eq_some.mpr hx]
    exact hbelow
  · rintro ⟨hhere, hentries⟩ parts below hget
    cases parts with
    | nil => exact hhere
    | cons s rest =>
        rw [List.map_cons, Node.get?_cons] at hget
        obtain ⟨x, hx, hbelow⟩ := Option.bind_eq_some_iff.mp hget
        exact hentries s x (htidy.lookup_eq_some.mp hx) rest below hbelow

/-- No part of what is shown holds a separator. -/
theorem Shows.no_slash {x : Node} {parts : List String} (h : fs.Shows path x parts) (htidy : x.Tidy) :
    ∀ s ∈ parts, '/' ∉ s.toList := by
  obtain ⟨y, hget, -, -⟩ := h
  intro s hs hslash
  have hplain := (htidy.of_get? hget).1 _ (List.mem_map_of_mem hs)
  exact hplain.no_slash (Utf8.mem_encode_of_mem (c := '/') (by decide) hslash)

/-- What listing a node gives. -/
structure Tells (fs : FileSystem) (x : Node) : Prop where
  isOk : ∀ path resource, (∃ resources, fs.listEntry path resource x = .ok resources) ↔ fs.Lists path x
  mem : ∀ path resource resources, fs.listEntry path resource x = .ok resources →
    ∀ r, r ∈ resources ↔ ∃ parts, fs.Shows path x parts ∧ r = "/".intercalate (resource :: parts)
  once : ∀ path resource resources, fs.listEntry path resource x = .ok resources → resources.Nodup

section Entries

variable (htells : ∀ s x, (Utf8.encode s, x) ∈ entries → fs.Tells x)

include htells

/-- A directory can be listed exactly if everything in it can. -/
theorem listEntries_isOk_of_tells : (∃ resources, fs.listEntries path start entries = .ok resources) ↔
    ∀ s x, (Utf8.encode s, x) ∈ entries → fs.Lists (path.joinBytes (Utf8.encode s)) x := by
  rw [listEntries_isOk]
  exact forall_congr' fun s => forall_congr' fun x => forall_congr' fun hx => (htells s x hx).isOk _ _

variable (htidy : (Node.directory entries).Tidy)

include htidy

/-- What is listed is what is shown below the directory. -/
theorem mem_listEntries_of_tells (h : fs.listEntries path start entries = .ok resources) {r : String} :
    r ∈ resources ↔ ∃ parts, fs.Shows path (.directory entries) parts ∧
      r = start ++ "/".intercalate parts := by
  rw [mem_listEntries_iff h]
  constructor
  · rintro ⟨s, x, here, hx, hhere, hr⟩
    obtain ⟨rest, hshows, rfl⟩ := ((htells s x hx).mem _ _ _ hhere r).mp hr
    exact ⟨s :: rest, (shows_directory htidy).mpr ⟨s, rest, x, rfl, hx, hshows⟩,
      intercalate_append_head start s rest⟩
  · rintro ⟨parts, hshows, rfl⟩
    obtain ⟨s, rest, x, rfl, hx, hshows⟩ := (shows_directory htidy).mp hshows
    obtain ⟨here, hhere⟩ := listEntries_isOk.mp ⟨resources, h⟩ s x hx
    refine ⟨s, x, here, hx, hhere, ((htells s x hx).mem _ _ _ hhere _).mpr ⟨rest, hshows, ?_⟩⟩
    exact (intercalate_append_head start s rest).symm

/-- Nothing is listed twice, since no two entries have one name. -/
theorem nodup_listEntries (h : fs.listEntries path start entries = .ok resources) : resources.Nodup := by
  induction entries generalizing resources with
  | nil =>
      rw [listEntries] at h
      obtain rfl := Except.ok.inj h
      exact List.nodup_nil
  | cons entry rest ih =>
      obtain ⟨name, y⟩ := entry
      obtain ⟨-, hy, hnew, hrest⟩ := htidy.of_cons
      have hbelow : ∀ s x, (Utf8.encode s, x) ∈ rest → fs.Tells x := fun s x hx =>
        htells s x (List.mem_cons_of_mem _ hx)
      cases hname : Utf8.decode? name with
      | none =>
          rw [listEntries_cons_of_none path start hname] at h
          exact ih hbelow hrest h
      | some s =>
          obtain rfl := Utf8.decode?_eq_some_iff.mp hname
          rw [listEntries_cons] at h
          obtain ⟨here, hhere, hbind⟩ := Identity.exists_of_bind h
          obtain ⟨others, hothers, hend⟩ := Identity.exists_of_bind hbind
          obtain rfl := Except.ok.inj hend
          have hentry := htells s y List.mem_cons_self
          refine List.nodup_append.mpr ⟨hentry.once _ _ _ hhere, ih hbelow hrest hothers, ?_⟩
          -- a resource says which entry it is below
          rintro r hr _ hr' rfl
          obtain ⟨parts, hshows, rfl⟩ := (hentry.mem _ _ _ hhere r).mp hr
          obtain ⟨others', hshows', hsame⟩ := (mem_listEntries_of_tells hbelow hrest hothers).mp hr'
          obtain ⟨t, rest', x, rfl, hx, -⟩ := (shows_directory hrest).mp hshows'
          have hshows'' : fs.Shows path (.directory ((Utf8.encode s, y) :: rest)) (s :: parts) :=
            (shows_directory htidy).mpr ⟨s, parts, y, rfl, List.mem_cons_self, hshows⟩
          rw [intercalate_append_head] at hsame
          have hparts := intercalate_slash_inj (hshows''.no_slash htidy) (hshows'.no_slash hrest)
            (List.cons_ne_nil _ _) (List.cons_ne_nil _ _) (String.append_right_inj start |>.mp hsame)
          obtain ⟨rfl, -⟩ := List.cons.inj hparts
          exact hnew (List.mem_map_of_mem (f := Prod.fst) hx)

end Entries

/-- A file or a link is listed if its path leads to a file, and never fails. -/
theorem tells_leaf {x : Node} (hleaf : x.isDirectory = false) : fs.Tells x := by
  have hget {parts : List String} {y : Node} (h : x.get? (parts.map Utf8.encode) = some y) :
      parts = [] ∧ y = x := by
    cases parts with
    | nil => exact ⟨rfl, (Option.some.inj h).symm⟩
    | cons s rest =>
        cases x with
        | file contents => cases h
        | link target => cases h
        | directory entries => cases hleaf
  refine ⟨fun path resource =>
      ⟨fun _ parts entries h => ?_, fun _ => ⟨_, listEntry_leaf hleaf path resource⟩⟩,
    ?_, ?_⟩
  · obtain ⟨-, rfl⟩ := hget h
    cases hleaf
  · intro path resource resources h r
    obtain rfl := Except.ok.inj ((listEntry_leaf hleaf path resource).symm.trans h)
    constructor
    · intro hr
      split at hr
      · next hfile =>
        obtain rfl := List.mem_singleton.mp hr
        exact ⟨[], ⟨x, rfl, hleaf, hfile⟩, (String.intercalate_singleton).symm⟩
      · cases hr
    · rintro ⟨parts, ⟨y, hy, -, hfile⟩, rfl⟩
      obtain ⟨rfl, -⟩ := hget hy
      have hfile' : fs.isFile path = true := hfile
      rw [if_pos hfile', String.intercalate_singleton]
      exact List.mem_singleton_self _
  · intro path resource resources h
    obtain rfl := Except.ok.inj ((listEntry_leaf hleaf path resource).symm.trans h)
    split <;> simp

/-- **Listing goes through the tree.** -/
theorem tells {x : Node} (htidy : x.Tidy) : fs.Tells x := by
  induction x using Node.induct with
  | file contents => exact tells_leaf rfl
  | link target => exact tells_leaf rfl
  | directory entries ih =>
      have htells : ∀ s x, (Utf8.encode s, x) ∈ entries → fs.Tells x := fun s x hx =>
        ih _ x hx (htidy.of_lookup (htidy.lookup_eq_some.mpr hx)).2
      have hlist {path : Path} {resource : String} {resources : List String} :
          fs.listEntry path resource (.directory entries) = .ok resources ↔
            (∃ es, fs.list path = .ok es) ∧
              fs.listEntries path (resource ++ "/") entries = .ok resources := by
        rw [listEntry]
        cases fs.list path with
        | error f =>
            constructor
            · intro h
              cases h
            · rintro ⟨⟨es, h⟩, -⟩
              cases h
        | ok es => exact ⟨fun h => ⟨⟨es, rfl⟩, h⟩, And.right⟩
      refine ⟨fun path resource => ?_, fun path resource resources h r => ?_,
        fun path resource resources h => nodup_listEntries htells htidy (hlist.mp h).2⟩
      · simp only [hlist]
        rw [lists_directory htidy, exists_and_left, listEntries_isOk_of_tells htells]
      · rw [mem_listEntries_of_tells htells htidy (hlist.mp h).2]
        refine exists_congr fun parts => and_congr_right fun hshows => ?_
        obtain ⟨s, rest, -, rfl, -⟩ := (shows_directory htidy).mp hshows
        rw [String.intercalate_cons_cons]

/-- A directory serves exactly the files below it, under names that can be split. -/
theorem lookupBelow_eq_some {bytes : Bytes} : fs.lookupBelow root name = .ok (some bytes) ↔
    ∃ parts, resourceParts? name = some parts ∧ fs.read (root.descend (namesOf parts)) = .ok bytes := by
  unfold lookupBelow
  cases resourceParts? name with
  | none => exact ⟨nofun, fun ⟨_, h, _⟩ => nomatch h⟩
  | some parts =>
      simp only [Option.some.injEq, exists_eq_left']
      show _ ↔ fs.read (resourcePath root parts) = .ok bytes
      unfold read
      cases fs.node (resourcePath root parts) with
      | error f =>
          refine ⟨fun h => ?_, nofun⟩
          simp only at h
          split_ifs at h
          cases h
      | ok x =>
          cases x with
          | file contents =>
              exact ⟨fun h => by rw [Option.some.inj (Except.ok.inj h)]; rfl, fun h => by
                rw [Except.ok.inj h]⟩
          | link target => exact ⟨nofun, nofun⟩
          | directory entries => exact ⟨nofun, nofun⟩

/-- A container serves what its root leads to a file for. -/
theorem served_iff {parts : List (List Char)} (h : resourceParts? name = some parts) :
    (∃ bytes, fs.lookupBelow root name = .ok (some bytes)) ↔
      fs.isFile (root.descend (namesOf parts)) = true := by
  simp only [lookupBelow_eq_some, h, Option.some.injEq, exists_eq_left']
  exact ⟨fun ⟨_, hread⟩ => isFile_of_read hread, exists_read_of_isFile⟩

/-- The directory that a root leads to is listed. -/
theorem Arrives.exists_list (h : fs.Arrives root L) :
    ∃ entries, fs.root.get? L = some (.directory entries) ∧ fs.list root = .ok entries := by
  obtain ⟨entries, hlocate⟩ := h
  exact ⟨entries, (locateWith_eq_ok.mp hlocate).2.get?_of_found, list_eq_ok.mpr ⟨L, hlocate⟩⟩

/-- The parts of a resource are shown if it is served and the way to it is open. -/
theorem shows_namesOf (harrives : fs.Arrives root L) {x : Node} (hx : fs.root.get? L = some x)
    {parts : List (List Char)} (hparts : resourceParts? name = some parts) :
    fs.Shows root x (parts.map String.ofList) ↔
      (∃ bytes, fs.lookupBelow root name = .ok (some bytes)) ∧ fs.Open L (namesOf parts) := by
  obtain ⟨hne, hplain⟩ := plain_namesOf hparts
  have hbelow (names : List Name) : fs.root.get? (L ++ names) = x.get? names := by
    rw [Node.get?_append, hx, Option.bind_some]
  unfold Shows
  rw [served_iff hparts, ← namesOf_eq]
  constructor
  · rintro ⟨y, hget, -, hfile⟩
    refine ⟨hfile, fun front hfront hends z hz => ?_⟩
    obtain ⟨more, hmore⟩ := hfront
    rw [← hbelow, ← hmore, ← List.append_assoc, Node.get?_append, hz, Option.bind_some] at hget
    have hrest : more ≠ [] := by
      rintro rfl
      exact hends (by rw [← hmore, List.append_nil])
    obtain ⟨n, rest, rfl⟩ := List.exists_cons_of_ne_nil hrest
    cases z with
    | directory entries => rfl
    | file contents => cases hget
    | link target => cases hget
  · rintro ⟨hfile, hopen⟩
    obtain ⟨bytes, hread⟩ := exists_read_of_isFile hfile
    obtain ⟨l, hlocate⟩ := read_eq_ok.mp hread
    obtain ⟨left, hwalks⟩ := harrives.walks hne hplain hlocate
    rcases hwalks.straight hplain hopen with hget | ⟨target, hget⟩
    · exact ⟨_, (hbelow _).symm.trans hget, rfl, hfile⟩
    · exact ⟨_, (hbelow _).symm.trans hget, rfl, hfile⟩

/-- No link below a root leads to a directory. -/
def Unlinked (fs : FileSystem) (root : Path) (L : Location) : Prop :=
  ∀ names target, fs.root.get? (L ++ names) = some (.link target) → fs.isDirectory (root.descend names) = false

/-- What a way that is open leads to as a directory is one. -/
theorem Unlinked.face_of_isDirectory (hunlinked : fs.Unlinked root L) (harrives : fs.Arrives root L)
    {front : List Name} (hplain : ∀ n ∈ front, PlainName n) (hopen : fs.Open L front)
    (hdirectory : fs.isDirectory (root.descend front) = true) {x : Node}
    (hx : fs.root.get? (L ++ front) = some x) : x.face = .directory [] := by
  obtain ⟨l, entries, hlocate⟩ := isDirectory_eq_true.mp hdirectory
  by_cases hhere : front = []
  · subst hhere
    obtain ⟨others, hothers⟩ := harrives
    rw [List.append_nil, (locateWith_eq_ok.mp hothers).2.get?_of_found] at hx
    obtain rfl := Option.some.inj hx
    rfl
  · obtain ⟨left, hwalks⟩ := harrives.walks hhere hplain hlocate
    rcases hwalks.straight hplain hopen with hget | ⟨target, hget⟩
    · obtain rfl := Option.some.inj (hx.symm.trans hget)
      rfl
    · rw [hunlinked front target hget] at hdirectory
      cases hdirectory

/-- Without links to directories the way to what is served is open. -/
theorem Unlinked.open (hunlinked : fs.Unlinked root L) (harrives : fs.Arrives root L) {names : List Name}
    (hplain : ∀ n ∈ names, PlainName n) (hfile : fs.isFile (root.descend names) = true) :
    fs.Open L names := by
  -- the first thing on the way that is no directory would be a link to one
  have hupto : ∀ front, front <+: names → fs.Open L front := by
    intro front
    induction front using List.reverseRecOn with
    | nil =>
        intro _ front hfront hends
        exact absurd (List.prefix_nil.mp hfront) hends
    | append_singleton before n ih =>
        intro hbegins front hfront hends x hx
        have hbefore : before <+: names := (List.prefix_append before [n]).trans hbegins
        have hopen := ih hbefore
        rcases List.prefix_concat_iff.mp hfront with hall | hfront
        · exact absurd hall hends
        · by_cases hsame : front = before
          · subst hsame
            have hne : front ≠ names := by
              rintro rfl
              have hlength := hbegins.length_le
              rw [List.length_append, List.length_singleton] at hlength
              omega
            have hdirectory := harrives.isDirectory_front hplain hbefore hne hfile
            have hplain' : ∀ m ∈ front, PlainName m := fun m hm => hplain m (hbefore.subset hm)
            exact hunlinked.face_of_isDirectory harrives hplain' hopen hdirectory hx
          · exact hopen front hfront hsame x hx
  exact hupto names (List.prefix_refl names)

/-- Listing tells what is below each entry of a tidy directory. -/
theorem tells_of_mem (htidy : (Node.directory entries).Tidy) (s : String) (x : Node)
    (hx : (Utf8.encode s, x) ∈ entries) : fs.Tells x :=
  tells (htidy.of_lookup (htidy.lookup_eq_some.mpr hx)).2

/-- The names that a directory lists are those below its entries. -/
theorem resourcesBelow_eq (hlist : fs.list root = .ok entries) :
    fs.resourcesBelow root = fs.listEntries root "" entries := by
  unfold resourcesBelow
  rw [hlist]

section Listed

variable (htidy : (Node.directory entries).Tidy) (hlist : fs.list root = .ok entries)

include htidy hlist

/-- A directory can be listed exactly if every directory below it can. -/
theorem resourcesBelow_isOk :
    (∃ listed, fs.resourcesBelow root = .ok listed) ↔ fs.Lists root (.directory entries) := by
  rw [resourcesBelow_eq hlist, listEntries_isOk_of_tells (tells_of_mem htidy), lists_directory htidy]
  exact (and_iff_right ⟨entries, hlist⟩).symm

variable (hlisted : fs.resourcesBelow root = .ok listed)

include hlisted

/-- A name is listed exactly if it is shown. -/
theorem mem_resourcesBelow : name ∈ listed ↔
    ∃ parts, fs.Shows root (.directory entries) parts ∧ name = "/".intercalate parts := by
  rw [resourcesBelow_eq hlist] at hlisted
  rw [mem_listEntries_of_tells (tells_of_mem htidy) htidy hlisted]
  simp only [String.empty_append]

/-- A resource is listed if its parts are shown. -/
theorem mem_resourcesBelow_iff_shows {parts : List (List Char)} (hparts : resourceParts? name = some parts) :
    name ∈ listed ↔ fs.Shows root (.directory entries) (parts.map String.ofList) := by
  obtain ⟨hne, hplain⟩ := plain_namesOf hparts
  have hname := intercalate_of_resourceParts? hparts
  rw [mem_resourcesBelow htidy hlist hlisted]
  constructor
  · rintro ⟨others, hshows, hsame⟩
    obtain ⟨s, rest, -, rfl, -⟩ := (shows_directory htidy).mp hshows
    have hslash : ∀ t ∈ parts.map String.ofList, '/' ∉ t.toList := by
      intro t ht hmem
      rw [namesOf_eq] at hplain
      have hplain' := hplain _ (List.mem_map_of_mem ht)
      exact hplain'.no_slash (Utf8.mem_encode_of_mem (c := '/') (by decide) hmem)
    have hne' : parts.map String.ofList ≠ [] := by simpa [namesOf] using hne
    rwa [intercalate_slash_inj hslash (hshows.no_slash htidy) hne' (List.cons_ne_nil s rest)
      (hname.trans hsame)]
  · exact fun hshows => ⟨_, hshows, hname.symm⟩

/-- What is listed has parts, unless its name holds a backslash. -/
theorem exists_parts_of_mem (hname : name ∈ listed) (hbackslash : '\\' ∉ name.toList) :
    ∃ parts, resourceParts? name = some parts := by
  obtain ⟨parts, hshows, rfl⟩ := (mem_resourcesBelow htidy hlist hlisted).mp hname
  obtain ⟨s, rest, -, rfl, -⟩ := (shows_directory htidy).mp hshows
  obtain ⟨y, hget, -, -⟩ := hshows
  have hplain : ∀ t ∈ s :: rest, PlainName (Utf8.encode t) := fun t ht =>
    (htidy.of_get? hget).1 _ (List.mem_map_of_mem ht)
  exact ⟨_, resourceParts?_intercalate (List.cons_ne_nil s rest) hplain hbackslash⟩

end Listed

/-- What a directory lists, and what it serves. -/
structure Inventory (fs : FileSystem) (root : Path) (L : Location) : Prop where
  /-- Listing succeeds if every directory below can be listed by itself. -/
  isOk : (∃ listed, fs.resourcesBelow root = .ok listed) ↔
    ∀ (parts : List String) entries,
      fs.root.get? (L ++ parts.map Utf8.encode) = some (.directory entries) →
        ∃ es, fs.list (root.descend (parts.map Utf8.encode)) = .ok es
  /-- Nothing is listed twice. -/
  once : ∀ listed, fs.resourcesBelow root = .ok listed → listed.Nodup
  /-- What is listed is what is served with directories alone on the way. -/
  mem : ∀ listed, fs.resourcesBelow root = .ok listed →
    ∀ name parts, resourceParts? name = some parts →
      (name ∈ listed ↔
        (∃ bytes, fs.lookupBelow root name = .ok (some bytes)) ∧ fs.Open L (namesOf parts))
  /-- Without links to directories that is whatever is served. -/
  unlinked : fs.Unlinked root L → ∀ listed, fs.resourcesBelow root = .ok listed →
    ∀ name, resourceParts? name ≠ none →
      (name ∈ listed ↔ ∃ bytes, fs.lookupBelow root name = .ok (some bytes))
  /-- Whatever is listed is served, unless its name holds a backslash. -/
  served : ∀ listed, fs.resourcesBelow root = .ok listed → ∀ name ∈ listed,
    '\\' ∈ name.toList ∨ ∃ bytes, fs.lookupBelow root name = .ok (some bytes)

/-- **A directory lists what it serves**, except what is behind a linked directory. -/
theorem inventory (htidy : fs.root.Tidy) (harrives : fs.Arrives root L) : fs.Inventory root L := by
  obtain ⟨entries, hroot, hlist⟩ := harrives.exists_list
  have htidy' : (Node.directory entries).Tidy := (htidy.of_get? hroot).2
  have hmem {listed : List String} (hlisted : fs.resourcesBelow root = .ok listed) {name : String}
      {parts : List (List Char)} (hparts : resourceParts? name = some parts) :
      name ∈ listed ↔ (∃ bytes, fs.lookupBelow root name = .ok (some bytes)) ∧
        fs.Open L (namesOf parts) := by
    rw [mem_resourcesBelow_iff_shows htidy' hlist hlisted hparts, shows_namesOf harrives hroot hparts]
  refine ⟨?_, ?_, fun listed hlisted name parts => hmem hlisted, ?_, ?_⟩
  · have hbelow (names : List Name) :
        fs.root.get? (L ++ names) = (Node.directory entries).get? names := by
      rw [Node.get?_append, hroot, Option.bind_some]
    simp only [hbelow]
    exact resourcesBelow_isOk htidy' hlist
  · intro listed hlisted
    rw [resourcesBelow_eq hlist] at hlisted
    exact nodup_listEntries (tells_of_mem htidy') htidy' hlisted
  · intro hunlinked listed hlisted name hparts
    obtain ⟨parts, hparts⟩ := Option.ne_none_iff_exists'.mp hparts
    rw [hmem hlisted hparts]
    refine and_iff_left_of_imp fun hserved => ?_
    exact hunlinked.open harrives (plain_namesOf hparts).2 ((served_iff hparts).mp hserved)
  · intro listed hlisted name hname
    by_cases hbackslash : '\\' ∈ name.toList
    · exact .inl hbackslash
    · obtain ⟨parts, hparts⟩ := exists_parts_of_mem htidy' hlist hlisted hname hbackslash
      exact .inr ((hmem hlisted hparts).mp hname).1

namespace Linked

/-- The directory. -/
def library : Path := .ofString "r"

/-- A file in a directory, and a link to the directory. -/
def files : FileSystem :=
  let inside : Node := .directory [(Utf8.encode "a", .file [])]
  ⟨.directory [(Utf8.encode "r", .directory
    [(Utf8.encode "d", inside), (Utf8.encode "l", .link (.ofString "d"))])], []⟩

theorem tidy_files : files.root.Tidy := by
  have hinside : (Node.directory [(Utf8.encode "a", .file [])]).Tidy :=
    .singleton ⟨by decide, by decide, by decide, by decide⟩ (.file [])
  refine .singleton ⟨by decide, by decide, by decide, by decide⟩ (.directory ?_ (by decide) ?_)
  · rintro entry (_ | ⟨_, _ | ⟨_, ⟨⟩⟩⟩)
    · exact ⟨by decide, by decide, by decide, by decide⟩
    · exact ⟨by decide, by decide, by decide, by decide⟩
  · rintro entry (_ | ⟨_, _ | ⟨_, ⟨⟩⟩⟩)
    · exact hinside
    · exact .link (.ofString "d")

/-- The file is served under two names and listed under one. -/
theorem inventory_linked : files.root.Tidy ∧ files.Arrives library [Utf8.encode "r"] ∧
    files.Inventory library [Utf8.encode "r"] ∧ files.resourcesBelow library = .ok ["d/a"] ∧
      files.lookupBelow library "d/a" = .ok (some []) ∧ files.lookupBelow library "l/a" = .ok (some []) := by
  have harrives : files.Arrives library [Utf8.encode "r"] := ⟨_, by cbv⟩
  exact ⟨tidy_files, harrives, inventory tidy_files harrives, by cbv, by cbv, by cbv⟩

end Linked

end FileSystem

end LiveUnits
