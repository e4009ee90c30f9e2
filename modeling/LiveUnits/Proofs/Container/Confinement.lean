import LiveUnits.Loader.Session
import LiveUnits.Proofs.Container.Listing
import LiveUnits.Proofs.Loader.Step

/-!
# Lookups stay below the root

A lookup in a directory opens one path, or none.  The path is the root followed by the segments of the
resource name, and a segment never leads up, to the start of the file system or nowhere: names with any
other segment are not looked up at all (`FileSystem.opened?_eq_some`).  So the bytes that a lookup gives
are those of a file below the root, unless a link leads elsewhere (`FileSystem.holdsBelow_of_lookupBelow`).

Nothing is asked of the names, which come from the bytes of units, nor of the extension that a loader puts
behind them.  Wherever a loader is led by the units that it links, the files that its answer depends on are
those that lookups of this kind open (`Session.confined`).
-/

namespace LiveUnits

/-! ## Segments -/

/-- A segment of a resource name that leads one step down. -/
structure IsPlainSegment (s : String) : Prop where
  ne_empty : s ≠ ""
  ne_here : s ≠ "."
  ne_up : s ≠ ".."
  no_slash : '/' ∉ s.toList
  no_backslash : '\\' ∉ s.toList

/-- The bytes of a plain segment are a plain name. -/
theorem IsPlainSegment.plainName {s : String} (h : IsPlainSegment s) : PlainName (Utf8.encode s) where
  ne_nil := fun hnil => h.ne_empty (Utf8.encode_inj (t := "") hnil)
  no_slash := fun hmem => h.no_slash (Utf8.mem_of_mem_encode (c := '/') (by decide) hmem)
  ne_here := fun hhere => h.ne_here (Utf8.encode_inj (t := ".") hhere)
  ne_up := fun hup => h.ne_up (Utf8.encode_inj (t := "..") hup)

/-- The names of a resource are plain if its segments are. -/
theorem plainName_of_mem_map {segments : List String} (h : ∀ s ∈ segments, IsPlainSegment s) :
    ∀ n ∈ segments.map Utf8.encode, PlainName n := by
  intro n hn
  obtain ⟨s, hs, rfl⟩ := List.mem_map.mp hn
  exact (h s hs).plainName

/-- What is in one of the parts is in what they are joined to. -/
theorem mem_intercalate_of_mem {α : Type} {sep a : α} {part : List α} {l : List (List α)} (hpart : part ∈ l)
    (ha : a ∈ part) : a ∈ [sep].intercalate l := by
  induction l with
  | nil => cases hpart
  | cons first rest ih =>
      cases rest with
      | nil =>
          rw [List.intercalate_singleton]
          rwa [← List.mem_singleton.mp hpart]
      | cons next more =>
          rw [List.intercalate_cons_cons, List.mem_append, List.mem_append]
          rcases List.mem_cons.mp hpart with rfl | hpart
          · exact .inl (.inl ha)
          · exact .inr (ih hpart)

/-- **A resource name has parts if it is made of plain segments**, and these are its parts. -/
theorem resourceParts?_eq_some {name : String} {parts : List (List Char)} :
    resourceParts? name = some parts ↔ ∃ segments : List String, segments ≠ [] ∧
      (∀ s ∈ segments, IsPlainSegment s) ∧ name = "/".intercalate segments ∧
        parts = segments.map String.toList := by
  constructor
  · intro h
    obtain ⟨hne, hplain⟩ := plain_namesOf h
    have hname := intercalate_of_resourceParts? h
    have hclean : '\\' ∉ name.toList := by
      intro hmem
      unfold resourceParts? at h
      rw [if_pos (.inr hmem)] at h
      cases h
    refine ⟨parts.map String.ofList, ?_, fun s hs => ?_, hname.symm, ?_⟩
    · intro hnil
      apply hne
      rw [namesOf_eq, hnil]
      rfl
    · rw [namesOf_eq] at hplain
      have hs' := hplain _ (List.mem_map_of_mem hs)
      refine ⟨?_, ?_, ?_, fun hmem => ?_, fun hmem => ?_⟩
      · rintro rfl
        exact hs'.ne_nil rfl
      · rintro rfl
        exact hs'.ne_here rfl
      · rintro rfl
        exact hs'.ne_up rfl
      · exact hs'.no_slash (Utf8.mem_encode_of_mem (c := '/') (by decide) hmem)
      · apply hclean
        rw [← hname, String.toList_intercalate]
        exact mem_intercalate_of_mem (List.mem_map_of_mem hs) hmem
    · rw [List.map_map]
      simp [Function.comp_def]
  · rintro ⟨segments, hne, hplain, rfl, rfl⟩
    refine resourceParts?_intercalate hne (fun s hs => (hplain s hs).plainName) ?_
    rw [String.toList_intercalate]
    intro hmem
    rcases mem_of_mem_intercalate hmem with h | ⟨part, hpart, h⟩
    · cases h
    · obtain ⟨s, hs, rfl⟩ := List.mem_map.mp hpart
      exact (hplain s hs).no_backslash h

/-! ## The path that is opened -/

/-- Plain segments below a root are spelt as one path below it. -/
theorem Path.descend_segments (root : Path) {segments : List String} (hne : segments ≠ [])
    (hplain : ∀ s ∈ segments, IsPlainSegment s) :
    root.descend (segments.map Utf8.encode) = root.joinBytes (Utf8.encode ("/".intercalate segments)) := by
  obtain ⟨first, rest, rfl⟩ := List.exists_cons_of_ne_nil hne
  obtain ⟨hfirst, hrest⟩ := List.forall_mem_cons.mp hplain
  have hlast {s : String} (hs : PlainName (Utf8.encode s)) : (Utf8.encode s).getLast? ≠ some slash :=
    fun h => hs.no_slash (List.mem_of_getLast? h)
  -- the segments up to here count as one, which need not be plain
  have hjoined (rest : List String) (hrest : ∀ s ∈ rest, IsPlainSegment s) (start : String)
      (hstart : Utf8.encode start ≠ []) (hend : (Utf8.encode start).getLast? ≠ some slash) :
      (root.joinBytes (Utf8.encode start)).descend (rest.map Utf8.encode) =
        root.joinBytes (Utf8.encode ("/".intercalate (start :: rest))) := by
    induction rest generalizing start with
    | nil => rw [String.intercalate_singleton, List.map_nil, descend_nil]
    | cons s rest ih =>
        obtain ⟨hs, hrest⟩ := List.forall_mem_cons.mp hrest
        have hlonger : Utf8.encode start ++ slash :: Utf8.encode s = Utf8.encode (start ++ "/" ++ s) := by
          rw [Utf8.encode_append, Utf8.encode_append, List.append_assoc]
          rfl
        have hplain := hs.plainName
        rw [List.map_cons, descend_cons, joinBytes_joinBytes root hstart hend, hlonger, ih hrest,
          intercalate_append_head, String.intercalate_cons_cons]
        · rw [← hlonger]
          simp
        · rw [← hlonger, List.getLast?_append_of_ne_nil _ (List.cons_ne_nil _ _),
            List.getLast?_cons_of_ne_nil hplain.ne_nil]
          exact hlast hplain
  exact hjoined rest hrest first hfirst.plainName.ne_nil (hlast hfirst.plainName)

namespace FileSystem

variable {fs : FileSystem} {root : Path} {L : Location} {name : String} {p : Path}

/-- The path that a lookup below a root opens, if it opens one. -/
def opened? (root : Path) (name : String) : Option Path := (resourceParts? name).map (resourcePath root)

/-- A path is opened for a name exactly if it descends from the root through the plain segments of the
name. -/
theorem opened?_eq_some : opened? root name = some p ↔ ∃ segments : List String, segments ≠ [] ∧
    (∀ s ∈ segments, IsPlainSegment s) ∧ name = "/".intercalate segments ∧
      p = root.descend (segments.map Utf8.encode) := by
  have hpath (segments : List String) :
      resourcePath root (segments.map String.toList) = root.descend (segments.map Utf8.encode) := by
    have hnames : (segments.map String.toList).map (fun part => Utf8.encode (String.ofList part)) =
        segments.map Utf8.encode := by
      simp only [List.map_map, Function.comp_def, String.ofList_toList]
    rw [resourcePath, hnames]
  rw [opened?, Option.map_eq_some_iff]
  simp only [resourceParts?_eq_some]
  constructor
  · rintro ⟨parts, ⟨segments, hne, hplain, hname, rfl⟩, rfl⟩
    exact ⟨segments, hne, hplain, hname, hpath segments⟩
  · rintro ⟨segments, hne, hplain, hname, rfl⟩
    exact ⟨_, ⟨segments, hne, hplain, hname, rfl⟩, hpath segments⟩

/-- What a lookup gives depends on what stands at the path that it opens, and on nothing else. -/
theorem lookupBelow_congr {fs' : FileSystem}
    (h : ∀ p, opened? root name = some p → fs'.node p = fs.node p) :
    fs'.lookupBelow root name = fs.lookupBelow root name := by
  unfold lookupBelow
  cases hparts : resourceParts? name with
  | none => rfl
  | some parts =>
      have hopened : opened? root name = some (resourcePath root parts) := by
        rw [opened?, hparts]
        rfl
      simp only [h _ hopened]

/-- The path that is opened tells which name was looked up. -/
theorem opened?_inj {name' : String} {p' : Path} (h : opened? root name = some p)
    (h' : opened? root name' = some p') (hsame : p.components = p'.components) : name = name' := by
  obtain ⟨segments, -, hplain, rfl, rfl⟩ := opened?_eq_some.mp h
  obtain ⟨segments', -, hplain', rfl, rfl⟩ := opened?_eq_some.mp h'
  rw [Path.components_descend root (plainName_of_mem_map hplain),
    Path.components_descend root (plainName_of_mem_map hplain'), List.append_cancel_left_eq, List.map_map,
    List.map_map] at hsame
  have hinj : Function.Injective (Path.Component.name ∘ Utf8.encode) :=
    fun s t h => Utf8.encode_inj (Path.Component.name.inj h)
  rw [hinj.list_map hsame]

/-! ## The bytes that are given -/

/-- The bytes are those of the file at the path that is opened. -/
theorem lookupBelow_eq_some_iff {bytes : Bytes} : fs.lookupBelow root name = .ok (some bytes) ↔
    ∃ p, opened? root name = some p ∧ fs.read p = .ok bytes := by
  rw [lookupBelow_eq_some]
  constructor
  · rintro ⟨parts, hparts, hread⟩
    exact ⟨resourcePath root parts, by rw [opened?, hparts]; rfl, hread⟩
  · rintro ⟨p, hopened, hread⟩
    obtain ⟨parts, hparts, rfl⟩ := Option.map_eq_some_iff.mp hopened
    exact ⟨parts, hparts, hread⟩

/-- What a lookup complains about is the path that is opened. -/
theorem opened?_of_error {e : ContainerError} (h : fs.lookupBelow root name = .error e) :
    ∃ p f, opened? root name = some p ∧ fs.node p = .error f ∧ e = .io p f := by
  unfold lookupBelow at h
  cases hparts : resourceParts? name with
  | none =>
      rw [hparts] at h
      cases h
  | some parts =>
      simp only [hparts] at h
      refine ⟨resourcePath root parts, ?_⟩
      cases hnode : fs.node (resourcePath root parts) with
      | ok x =>
          rw [hnode] at h
          cases x <;> cases h
      | error f =>
          simp only [hnode] at h
          split_ifs at h
          exact ⟨f, by rw [opened?, hparts]; rfl, rfl, (Except.error.inj h).symm⟩

/-- Where the names below a root start: in the directory that the root leads to.  A root that is empty
stands for the directory that paths start from. -/
def Base (fs : FileSystem) (root : Path) (L : Location) : Prop :=
  if root.bytes = [] then L = fs.cwd else fs.Arrives root L

/-- Whatever names lead to below a root, they lead there from the base of the root. -/
theorem exists_base {names : List Name} (hne : names ≠ []) (hplain : ∀ n ∈ names, PlainName n)
    {follow trailing : Bool} {spot : Spot}
    (hlocate : fs.locateWith follow trailing (root.descend names) = .ok spot) :
    ∃ L links, fs.Base root L ∧ Walks fs follow trailing links L names spot := by
  unfold Base
  obtain ⟨haccepted, hwalks⟩ := locateWith_eq_ok.mp hlocate
  have hstart : fs.start (root.descend names) = fs.start root := by
    unfold start
    rw [root.isAbsolute_descend hplain]
  rw [hstart, root.steps_descend hplain] at hwalks
  by_cases hempty : root.bytes = []
  · obtain ⟨bytes⟩ := root
    obtain rfl : bytes = [] := hempty
    exact ⟨fs.cwd, linkLimit, (if_pos rfl).mpr rfl, hwalks⟩
  · obtain ⟨L, entries, hroot⟩ := hwalks.passes hne (isTrailing root)
    have haccepted' : Accepted root := haccepted.of_prefix (root.prefix_descend names) hempty
    have harrives : fs.Arrives root L := ⟨entries, locateWith_eq_ok.mpr ⟨haccepted', hroot⟩⟩
    obtain ⟨links, hbelow⟩ := harrives.walks hne hplain hlocate
    exact ⟨L, links, (if_neg hempty).mpr harrives, hbelow⟩

/-- The segments lead from the base of a root straight down to a file with these bytes, unless a link
below the base leads elsewhere. -/
def HoldsBelow (fs : FileSystem) (root : Path) (segments : List String) (bytes : Bytes) : Prop :=
  ∃ L, fs.Base root L ∧ ((∀ names target, fs.root.get? (L ++ names) ≠ some (.link target)) →
    fs.root.get? (L ++ segments.map Utf8.encode) = some (.file bytes))

/-- **The bytes that a lookup gives are those of a file below the root.** -/
theorem holdsBelow_of_lookupBelow {bytes : Bytes} (h : fs.lookupBelow root name = .ok (some bytes)) :
    ∃ segments : List String, segments ≠ [] ∧ (∀ s ∈ segments, IsPlainSegment s) ∧
      name = "/".intercalate segments ∧ fs.HoldsBelow root segments bytes := by
  obtain ⟨p, hopened, hread⟩ := lookupBelow_eq_some_iff.mp h
  obtain ⟨segments, hne, hplain, hname, rfl⟩ := opened?_eq_some.mp hopened
  obtain ⟨l, hlocate⟩ := read_eq_ok.mp hread
  have hnames := plainName_of_mem_map hplain
  obtain ⟨L, links, hbase, hwalks⟩ := exists_base (by simpa using hne) hnames hlocate
  refine ⟨segments, hne, hplain, hname, L, hbase, fun hlinks => ?_⟩
  have hstraight : l = L ++ segments.map Utf8.encode :=
    hwalks.location_eq hnames fun front _ _ target => hlinks front target
  rw [← hstraight]
  exact hwalks.get?_of_found

/-- Lookups below a root stay below it. -/
structure Confined (root : Path) : Prop where
  /-- A name is opened if it consists of plain segments, and the path that is opened is the root followed
  by exactly these. -/
  opens : ∀ name p, opened? root name = some p ↔ ∃ segments : List String, segments ≠ [] ∧
    (∀ s ∈ segments, IsPlainSegment s) ∧ name = "/".intercalate segments ∧
      p = root.descend (segments.map Utf8.encode)
  /-- Taken apart, the path has the components of the root and a name for each segment. -/
  components : ∀ segments : List String, (∀ s ∈ segments, IsPlainSegment s) →
    (root.descend (segments.map Utf8.encode)).components =
      root.components ++ segments.map fun s => .name (Utf8.encode s)
  /-- Spelt out, it is the name joined to the root. -/
  spelling : ∀ name p, opened? root name = some p → p = root.joinBytes (Utf8.encode name)
  /-- Names that are not the same open paths that are not the same. -/
  distinct : ∀ name name' p p', opened? root name = some p → opened? root name' = some p' →
    p.components = p'.components → name = name'
  /-- The answer depends on what stands at the path that is opened, and on nothing else. -/
  elsewhere : ∀ (fs fs' : FileSystem) name, (∀ p, opened? root name = some p → fs'.node p = fs.node p) →
    fs'.lookupBelow root name = fs.lookupBelow root name
  /-- The bytes that are given are those of the file at this path. -/
  reads : ∀ (fs : FileSystem) name bytes, fs.lookupBelow root name = .ok (some bytes) ↔
    ∃ p, opened? root name = some p ∧ fs.read p = .ok bytes
  /-- The only errors are those of this path. -/
  errors : ∀ (fs : FileSystem) name e, fs.lookupBelow root name = .error e →
    ∃ p f, opened? root name = some p ∧ fs.node p = .error f ∧ e = .io p f
  /-- Where there are no links, the bytes are those of a file that stands below the root. -/
  below : ∀ (fs : FileSystem) name bytes, fs.lookupBelow root name = .ok (some bytes) →
    ∃ segments : List String, segments ≠ [] ∧ (∀ s ∈ segments, IsPlainSegment s) ∧
      name = "/".intercalate segments ∧ fs.HoldsBelow root segments bytes

/-- **Lookups in a directory open nothing outside it.** -/
theorem confined_lookups (root : Path) : Confined root where
  opens name p := opened?_eq_some
  components segments hplain := by
    rw [Path.components_descend root (plainName_of_mem_map hplain), List.map_map]
    rfl
  spelling name p h := by
    obtain ⟨segments, hne, hplain, rfl, rfl⟩ := opened?_eq_some.mp h
    exact root.descend_segments hne hplain
  distinct name name' p p' := opened?_inj
  elsewhere fs fs' name := lookupBelow_congr
  reads fs name bytes := lookupBelow_eq_some_iff
  errors fs name e := opened?_of_error
  below fs name bytes := holdsBelow_of_lookupBelow

end FileSystem

/-! ## Loaders -/

namespace Loader

/-- What loaders do depends on what their containers find, and not on the containers themselves. -/
theorem resolveAt_congr (l l' : Loader) (hnumber : l'.number = l.number) (hhost : l'.host = l.host)
    (hscan : ∀ n clock, l'.scanFor n clock = l.scanFor n clock) (path : List Identity) :
    l'.resolveAt path = l.resolveAt path := by
  have hanswer : l'.hostAnswer = l.hostAnswer := by
    funext n
    unfold hostAnswer
    rw [hhost]
  have hhandle : l'.nextHandle = l.nextHandle := by
    funext r
    unfold nextHandle
    rw [hnumber]
  induction path using l.byPath with
  | step path ih =>
      funext n r
      rw [resolveAt_eq, resolveAt_eq, hanswer, hscan]
      by_cases hn : n ∈ path
      · rw [if_pos hn, if_pos hn]
      · rcases hfound : l.scanFor n r.counters.lookups with ⟨e | _ | found, lookups⟩
        · rfl
        · rfl
        · have hlink : l'.linkFound path n found = l.linkFound path n found := by
            unfold linkFound
            rw [ih n found _ _ hn hfound, hhandle]
          simp only [hlink]

end Loader

namespace Session

variable (s : Session)

/-- The paths that lookups open below the directories of a session, for the artifact of any name. -/
def Opens (p : Path) : Prop :=
  ∃ root n, Medium.directory root ∈ s.media ∧
    FileSystem.opened? root (Identity.resourceName n s.artifactExtension) = some p

/-- A container has the root of its medium. -/
theorem root_container (fs : FileSystem) (m : Medium) : (m.container fs).root = m.root := by
  cases m with
  | directory root => rfl
  | archive path a down => cases down <;> rfl
  | memory contents => rfl

/-- The containers find the same for a name, if the files that may be opened are the same. -/
theorem scan_congr {media : List Medium} {fs fs' : FileSystem} {name : String}
    (h : ∀ root p, Medium.directory root ∈ media → FileSystem.opened? root name = some p →
      fs'.node p = fs.node p) (clock : Nat) :
    scan name (media.map (Medium.container fs')) clock = scan name (media.map (Medium.container fs)) clock := by
  induction media generalizing clock with
  | nil => rfl
  | cons m rest ih =>
      have hlookup : (m.container fs').lookup clock name = (m.container fs).lookup clock name := by
        cases m with
        | directory root =>
            exact FileSystem.lookupBelow_congr fun p hp => h root p List.mem_cons_self hp
        | archive path a down => cases down <;> rfl
        | memory contents => rfl
      rw [List.map_cons, List.map_cons, scan, scan, hlookup, root_container, root_container,
        ih fun root p hroot hp => h root p (List.mem_cons_of_mem _ hroot) hp]

/-- **Requests read no other files.** -/
theorem resolve_congr {fs fs' : FileSystem} (h : ∀ p, s.Opens p → fs'.node p = fs.node p) (n : Identity) :
    s.resolve fs' n = s.resolve fs n := by
  have hscan (m : Identity) (clock : Nat) : (s.loader fs').scanFor m clock = (s.loader fs).scanFor m clock :=
    scan_congr (fun root p hroot hp => h p ⟨root, m, hroot, hp⟩) clock
  have hresolve : (s.loader fs').resolveAt [] = (s.loader fs).resolveAt [] :=
    Loader.resolveAt_congr (s.loader fs) (s.loader fs') rfl rfl hscan []
  unfold resolve Loader.resolve
  rw [hresolve]

/-- What is found in a directory is the answer of a lookup in it. -/
theorem lookupBelow_of_scan {fs : FileSystem} {n : Identity} {clock after : Nat} {found : Found}
    (h : (s.loader fs).scanFor n clock = (.ok (some found), after)) : ∃ m ∈ s.media, found.root = m.root ∧
      ∀ root, m = .directory root →
        fs.lookupBelow root (n.resourceName s.artifactExtension) = .ok (some found.bytes) := by
  obtain ⟨c, hc, t, hlookup, hroot⟩ := exists_lookup_of_scan h
  obtain ⟨m, hm, rfl⟩ := List.mem_map.mp hc
  refine ⟨m, hm, by rw [← hroot, root_container], ?_⟩
  intro root hdirectory
  rw [hdirectory] at hlookup
  exact hlookup

/-- A loader reads files below its directories only, wherever the units lead that it links and whatever its
extension is. -/
structure Confined : Prop where
  /-- What is opened is the root of a directory followed by the segments of a resource name, which are
  plain. -/
  opens : ∀ p, s.Opens p → ∃ (root : Path) (n : Identity) (segments : List String),
    .directory root ∈ s.media ∧ segments ≠ [] ∧ (∀ t ∈ segments, IsPlainSegment t) ∧
      n.resourceName s.artifactExtension = "/".intercalate segments ∧
        p = root.descend (segments.map Utf8.encode)
  /-- Below one directory, no two identities have one path. -/
  distinct : ∀ root n m p p', FileSystem.opened? root (Identity.resourceName n s.artifactExtension) = some p →
    FileSystem.opened? root (Identity.resourceName m s.artifactExtension) = some p' →
      p.components = p'.components → n = m
  /-- The answer to a request, and what the loader remembers afterwards, depend on what stands at the paths
  that are opened, and on no other file. -/
  elsewhere : ∀ fs fs' : FileSystem, (∀ p, s.Opens p → fs'.node p = fs.node p) →
    ∀ n, s.resolve fs' n = s.resolve fs n
  /-- What is found in a directory is a file that stands below its root, unless a link leads elsewhere. -/
  below : ∀ fs n clock found after, (s.loader fs).scanFor n clock = (.ok (some found), after) →
    ∃ m ∈ s.media, found.root = m.root ∧ ∀ root, m = .directory root → ∃ segments : List String,
      segments ≠ [] ∧ (∀ t ∈ segments, IsPlainSegment t) ∧
        n.resourceName s.artifactExtension = "/".intercalate segments ∧
          fs.HoldsBelow root segments found.bytes

/-- **Nothing outside the directories is read**, neither by a lookup nor by a loader. -/
theorem confined (root : Path) : FileSystem.Confined root ∧ s.Confined := by
  refine ⟨FileSystem.confined_lookups root, ⟨?opens, ?distinct, ?elsewhere, ?below⟩⟩
  case opens =>
    intro p ⟨root, n, hroot, hopened⟩
    obtain ⟨segments, hne, hplain, hname, hp⟩ := FileSystem.opened?_eq_some.mp hopened
    exact ⟨root, n, segments, hroot, hne, hplain, hname, hp⟩
  case distinct =>
    intro root n m p p' hn hm hsame
    exact Identity.resourceName_inj (FileSystem.opened?_inj hn hm hsame)
  case elsewhere =>
    intro fs fs' h n
    exact s.resolve_congr h n
  case below =>
    intro fs n clock found after hscan
    obtain ⟨m, hm, hroot, hlookup⟩ := s.lookupBelow_of_scan hscan
    refine ⟨m, hm, hroot, fun root hdirectory => ?_⟩
    exact FileSystem.holdsBelow_of_lookupBelow (hlookup root hdirectory)

/-- An extension that starts at the root of the file system stays below the directory, and one that leads up
is not opened. -/
example :
    let n : Identity := ⟨["Foo"], by decide, by decide⟩
    FileSystem.opened? (.ofString "r") (n.resourceName "/b") = some (.ofString "r/Foo./b") ∧
      FileSystem.opened? (.ofString "r") (n.resourceName "/../b") = none := by
  decide +kernel

end Session

end LiveUnits
