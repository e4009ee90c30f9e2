import LiveUnits.Proofs.FileSystem.Building
import LiveUnits.Proofs.FileSystem.Preparation
import LiveUnits.Proofs.Identity.Derivation

/-!
# Writing and reading artifacts

A build writes the artifact of a unit at a path that is spelt by joining the segments of the identity to the
root and then changing the extension.  A lookup opens a path that is spelt by putting the segments and the
extension together to a name and then taking the name apart at its separators.  Both are the path through
`Identity.artifactNames`, and no such path comes first in another one (`Identity.artifacts_agree`).

So directories and artifacts can be made in any order (`Chore.unhindered`).  What was there before may still
be in the way, though, and a root with `..` may bring such a thing about itself: the directories that it goes
through and leaves again are made as well (`Identity.Detour.foo_is_hindered`).
-/

namespace LiveUnits

namespace Identity

variable {root : Path} {extension : String}

/-! ## One place -/

/-- **A lookup opens the path of the artifact.** -/
theorem opened?_resourceName (n : Identity) (root : Path) (hslash : '/' ∉ extension.toList)
    (hbackslash : '\\' ∉ extension.toList) :
    FileSystem.opened? root (n.resourceName extension) = some (root.descend (n.artifactNames extension)) := by
  unfold FileSystem.opened?
  rw [n.resourceParts?_resourceName hslash hbackslash, Option.map_some, resourcePath_artifactParts]

/-- The path of an artifact is spelt by changing the extension of the segments joined to the root. -/
theorem withExtension?_segments (n : Identity) (root : Path) (hne : extension.toList ≠ [])
    (hslash : '/' ∉ extension.toList) :
    (root.descend (n.segments.map Utf8.encode)).withExtension? (Utf8.encode extension) =
      n.artifactPath? root extension := by
  have hlast := n.valid_simpleName
  have hnone : slash ∉ Utf8.encode extension := fun hmem =>
    hslash (Utf8.mem_of_mem_encode (c := '/') (by decide) hmem)
  have hsome : Utf8.encode extension ≠ [] := Utf8.encode_ne_nil fun hempty => hne (hempty ▸ rfl)
  have hstem : root.descend (n.segments.map Utf8.encode) =
      (root.descend (n.segments.dropLast.map Utf8.encode)).joinBytes (Utf8.encode n.simpleName) := by
    conv_lhs => rw [n.segments_eq, List.map_append, List.map_singleton, Path.descend_concat]
  unfold artifactPath?
  simp only [if_neg hslash, if_neg hne]
  rw [hstem, Path.withExtension?_joinBytes _ (plain_encode hlast) (fullStop_not_mem_encode hlast) hsome hnone]

/-- The name of an artifact is the path through its names. -/
theorem ofString_resourceName (n : Identity) (hslash : '/' ∉ extension.toList)
    (hbackslash : '\\' ∉ extension.toList) :
    Path.ofString (n.resourceName extension) = Path.empty.descend (n.artifactNames extension) := by
  obtain ⟨segments, hne, hplain, hname, hpath⟩ :=
    FileSystem.opened?_eq_some.mp (n.opened?_resourceName Path.empty hslash hbackslash)
  rw [hpath, Path.empty.descend_segments hne hplain, ← hname]
  rfl

/-- **The name of an artifact is read back**, if the extension has no dot. -/
theorem ofSourcePath_resourceName (n : Identity) (hslash : '/' ∉ extension.toList)
    (hbackslash : '\\' ∉ extension.toList) (hdot : '.' ∉ extension.toList) :
    ofSourcePath (.ofString (n.resourceName extension)) extension = .ok n := by
  rw [n.ofString_resourceName hslash hbackslash]
  have hplain := plain_artifactNames (n := n) hslash
  have hcomponents := Path.empty.components_descend hplain
  obtain ⟨hextension, hstems⟩ := extension?_of_components hdot hcomponents
  have hshown : ¬ (Path.empty.descend (n.artifactNames extension)).HidesName := by
    intro hhides
    unfold artifactNames at hhides hplain
    rw [Path.descend_concat] at hhides
    refine hhides.padded _ (Path.fileName?_joinBytes _ (hplain _ (by simp))) ?_
    rw [Path.joinBytes_eq]
    exact List.suffix_append _ _
  have hreads : ReadsAs (Path.empty.descend (n.artifactNames extension)) extension
      (Path.stems (Path.empty.descend (n.artifactNames extension))) := by
    refine readsAs_of_mapM (fun _ => ?_) fun he => mapM_withoutExtension he hshown
    rw [hstems]
    simpa using n.nonempty
  exact (hreads.accepted n).mpr ⟨hextension, hstems⟩

/-! ## Places apart -/

/-- The names of the directories above an artifact. -/
def frontNames (n : Identity) : List Name := n.segments.dropLast.map Utf8.encode

/-- The name of an artifact in its directory. -/
def artifactName (n : Identity) (extension : String) : Name :=
  Utf8.encode n.simpleName ++ fullStop :: Utf8.encode extension

/-- The places of artifacts, below a directory that `inner` leads to. -/
def places (inner : List Name) (extension : String) (ns : List Identity) : List (List Name) :=
  ns.map fun n => inner ++ n.artifactNames extension

/-- Every artifact has its place among those of the build. -/
theorem mem_places {n : Identity} {ns : List Identity} (h : n ∈ ns) (inner : List Name) (extension : String) :
    inner ++ n.frontNames ++ [n.artifactName extension] ∈ places inner extension ns := by
  rw [List.append_assoc]
  exact List.mem_map_of_mem (f := fun n => inner ++ n.artifactNames extension) h

/-- The path of an artifact descends through the names of its place. -/
theorem artifactPath?_descend (n : Identity) (base : Path) (inner : List Name) (hne : extension.toList ≠ [])
    (hslash : '/' ∉ extension.toList) : n.artifactPath? (base.descend inner) extension =
      some (base.descend (inner ++ n.frontNames ++ [n.artifactName extension])) := by
  rw [n.artifactPath?_eq _ hne hslash, List.append_assoc, base.descend_append]
  rfl

/-- No artifact is on the way to another one. -/
theorem layout_places {inner : List Name} (hinner : ∀ m ∈ inner, PlainName m)
    (hslash : '/' ∉ extension.toList) (ns : List Identity) : FileSystem.Layout (places inner extension ns) := by
  refine ⟨?ne_nil, ?plain, ?apart⟩
  case ne_nil =>
    intro names hmem
    obtain ⟨n, -, rfl⟩ := List.mem_map.mp hmem
    exact List.append_ne_nil_of_right_ne_nil _ (n.artifactNames_ne_nil extension)
  case plain =>
    intro names hmem
    obtain ⟨n, -, rfl⟩ := List.mem_map.mp hmem
    exact List.forall_mem_append.mpr ⟨hinner, plain_artifactNames hslash⟩
  case apart =>
    intro names hmem other hother hbegins
    obtain ⟨n, -, rfl⟩ := List.mem_map.mp hmem
    obtain ⟨m, -, rfl⟩ := List.mem_map.mp hother
    have hnames : n.artifactNames extension <+: m.artifactNames extension :=
      (List.prefix_append_right_inj inner).mp hbegins
    have hsame := eq_of_artifactNames_prefix hnames
    rw [hsame]

/-- **The components of an artifact's path come first in no other one's.** -/
theorem not_prefix_of_ne {n m : Identity} (h : n ≠ m) (root : Path) (hslash : '/' ∉ extension.toList) :
    ¬ (root.descend (n.artifactNames extension)).components <+:
      (root.descend (m.artifactNames extension)).components := by
  rw [root.components_descend (plain_artifactNames hslash),
    root.components_descend (plain_artifactNames hslash), List.prefix_append_right_inj]
  intro hbegins
  have hnames : n.artifactNames extension <+: m.artifactNames extension :=
    (List.prefix_map_iff_of_injective fun _ _ => Path.Component.name.inj).mp hbegins
  exact h <| eq_of_artifactNames_prefix hnames

end Identity

/-! ## Chores -/

/-- A file is where a directory is needed, or a directory where a file is to be. -/
def Fault.IsClash (f : Fault) : Prop := f = .notDirectory ∨ f = .isDirectory ∨ f = .alreadyExists

instance (f : Fault) : Decidable f.IsClash := inferInstanceAs (Decidable (_ ∨ _))

/-- A part of the work of writing artifacts. -/
inductive Chore where
  /-- Makes the directories above the artifact of a unit. -/
  | room (n : Identity)
  /-- Writes the artifact of a unit. -/
  | fill (n : Identity) (contents : Bytes)

namespace Chore

/-- The unit whose artifact is worked on. -/
def unit : Chore → Identity
  | room n => n
  | fill n _ => n

/-- What comes of a chore. -/
def perform (root : Path) (extension : String) (fs : FileSystem) : Chore → Change
  | room n => ((n.artifactPath? root extension).bind Path.parent?).elim fs.done fs.makeDirectories
  | fill n contents => (n.artifactPath? root extension).elim fs.done (fs.write · contents)

/-- The files after chores, which are done one after the other whether the ones before fail or not. -/
def performAll (root : Path) (extension : String) (chores : List Chore) (fs : FileSystem) : FileSystem :=
  chores.foldl (fun fs c => (c.perform root extension fs).files) fs

variable {fs : FileSystem} {base : Path} {inner : List Name} {extension : String} {L : Location}
  {ns : List Identity} (hne : extension.toList ≠ []) (hslash : '/' ∉ extension.toList)
  (hinner : ∀ m ∈ inner, PlainName m)

section Steps

variable {n : Identity} (hn : n ∈ ns) (h : fs.Unblocked base L (Identity.places inner extension ns))

include hne hslash hinner hn h

/-- **Room is made** for an artifact, unless the spelling of the path above it is refused. -/
theorem builds_room : FileSystem.Builds fs base L (Identity.places inner extension ns)
    (inner ++ n.frontNames) ((room n).perform (base.descend inner) extension fs) := by
  have hplain : PlainName (n.artifactName extension) := Identity.plain_artifactName n.valid_simpleName hslash
  obtain ⟨q, hparent⟩ := Option.isSome_iff_exists.mp
    (Path.isSome_parent?_joinBytes (base.descend (inner ++ n.frontNames)) hplain)
  rw [← Path.descend_concat] at hparent
  have hperform : (room n).perform (base.descend inner) extension fs = fs.makeDirectories q := by
    simp only [perform, n.artifactPath?_descend base inner hne hslash, Option.bind_some, hparent,
      Option.elim_some]
  rw [hperform]
  exact h.builds (Identity.layout_places hinner hslash ns) (Identity.mem_places hn inner extension) hparent

/-- **An artifact is written**, unless the spelling of its path is refused or there is no room. -/
theorem fills_fill (contents : Bytes) : FileSystem.Fills fs base L (Identity.places inner extension ns)
    (inner ++ n.frontNames) (n.artifactName extension) contents
    ((fill n contents).perform (base.descend inner) extension fs) := by
  simp only [perform, n.artifactPath?_descend base inner hne hslash, Option.elim_some]
  exact h.fills (Identity.layout_places hinner hslash ns) (Identity.mem_places hn inner extension) contents

end Steps

include hne hslash hinner

/-- A chore leaves nothing in the way of another one. -/
theorem unblocked_perform (h : fs.Unblocked base L (Identity.places inner extension ns)) {c : Chore}
    (hc : c.unit ∈ ns) :
    (c.perform (base.descend inner) extension fs).files.Unblocked base L
        (Identity.places inner extension ns) ∧
      FileSystem.Stays fs (c.perform (base.descend inner) extension fs).files := by
  cases c with
  | room n =>
      have hmade := builds_room hne hslash hinner hc h
      exact ⟨hmade.unblocked, hmade.kept.stays⟩
  | fill n contents =>
      have hfilled := fills_fill hne hslash hinner hc h contents
      exact ⟨hfilled.unblocked, hfilled.stays⟩

/-- **No chores leave anything in the way of another one.** -/
theorem unblocked_performAll {chores : List Chore} (hchores : ∀ c ∈ chores, c.unit ∈ ns)
    (h : fs.Unblocked base L (Identity.places inner extension ns)) :
    (performAll (base.descend inner) extension chores fs).Unblocked base L
        (Identity.places inner extension ns) ∧
      FileSystem.Stays fs (performAll (base.descend inner) extension chores fs) := by
  induction chores generalizing fs with
  | nil => exact ⟨h, FileSystem.Stays.refl fs⟩
  | cons c rest ih =>
      obtain ⟨hc, hrest⟩ := List.forall_mem_cons.mp hchores
      obtain ⟨hstep, hstays⟩ := unblocked_perform hne hslash hinner h hc
      obtain ⟨hall, hstays'⟩ := ih hrest hstep
      exact ⟨hall, hstays.trans hstays'⟩

omit hne hslash hinner

/-- Whatever chores were done before, the next one fails for a harmless reason only. -/
structure Unhindered (root : Path) (extension : String) (ns : List Identity) (fs : FileSystem) : Prop where
  /-- No file is where a directory is needed, nor the reverse. -/
  never : ∀ chores, (∀ c ∈ chores, unit c ∈ ns) → ∀ c : Chore, c.unit ∈ ns → ∀ f,
    (c.perform root extension (performAll root extension chores fs)).fault = some f → ¬ f.IsClash
  /-- The only directories that cannot be made are those whose path is refused for its spelling. -/
  room : ∀ chores, (∀ c ∈ chores, unit c ∈ ns) → ∀ n ∈ ns, ∀ f,
    ((room n).perform root extension (performAll root extension chores fs)).fault = some f →
      f.IsSpelling ∧ ¬ FileSystem.Nameable (root.descend n.frontNames)
  /-- The only artifacts that cannot be written are those whose path is refused for its spelling, and those
  for which no room was made. -/
  fill : ∀ chores, (∀ c ∈ chores, unit c ∈ ns) → ∀ n ∈ ns, ∀ contents f,
    ((fill n contents).perform root extension (performAll root extension chores fs)).fault = some f →
      f.IsSpelling ∧ ¬ FileSystem.Nameable (root.descend (n.artifactNames extension)) ∨
        f = .notFound ∧ ∀ before after, chores = before ++ .room n :: after →
          ((Chore.room n).perform root extension (performAll root extension before fs)).fault ≠ none

include hne hslash hinner

/-- **Where nothing is in the way, nothing comes to be.** -/
theorem unhindered (h : fs.Unblocked base L (Identity.places inner extension ns)) :
    Unhindered (base.descend inner) extension ns fs := by
  have hall {chores : List Chore} (hchores : ∀ c ∈ chores, c.unit ∈ ns) :=
    (unblocked_performAll hne hslash hinner hchores h).1
  have hspelling {f : Fault} (hf : f.IsSpelling) : ¬ f.IsClash := by
    rcases hf with rfl | rfl <;> decide
  refine ⟨?never, ?room, ?fill⟩
  case never =>
    intro chores hchores c hc f hfault
    cases c with
    | room n => exact hspelling ((builds_room hne hslash hinner hc (hall hchores)).fault f hfault).1
    | fill n contents =>
        rcases (fills_fill hne hslash hinner hc (hall hchores) contents).fault f hfault with
          ⟨hf, -⟩ | ⟨rfl, -⟩
        · exact hspelling hf
        · decide
  case room =>
    intro chores hchores n hn f hfault
    rw [← Path.descend_append]
    exact (builds_room hne hslash hinner hn (hall hchores)).fault f hfault
  case fill =>
    intro chores hchores n hn contents f hfault
    have hpath : (base.descend inner).descend (n.artifactNames extension) =
        base.descend (inner ++ n.frontNames ++ [n.artifactName extension]) := by
      rw [← Path.descend_append, List.append_assoc]
      rfl
    rw [hpath]
    refine ((fills_fill hne hslash hinner hn (hall hchores) contents).fault f hfault).imp_right ?_
    rintro ⟨hf, hnone⟩
    refine ⟨hf, fun before after hsplit hmade => ?_⟩
    -- the directories that were made then are still there
    obtain ⟨hbefore, hafter⟩ := List.forall_mem_append.mp (hsplit ▸ hchores)
    have hbuilds := builds_room hne hslash hinner hn (hall hbefore)
    obtain ⟨-, hstays⟩ := unblocked_performAll hne hslash hinner (List.forall_mem_cons.mp hafter).2
      hbuilds.unblocked
    obtain ⟨entries, hstands⟩ := hstays.hasDirectory (hbuilds.stands hmade)
    have hend : performAll (base.descend inner) extension chores fs =
        performAll (base.descend inner) extension after
          ((room n).perform (base.descend inner) extension
            (performAll (base.descend inner) extension before fs)).files := by
      rw [hsplit]
      exact List.foldl_append
    rw [hend] at hnone
    cases hnone.symm.trans hstands

end Chore

/-- Nothing is in the way in a root without `..` that has been prepared. -/
theorem FileSystem.exists_unblocked_clear {fs : FileSystem} {root : Path} (htidy : fs.root.Tidy)
    (hparent : root.parent?.isSome) (hup : .up ∉ root.components) (h : (fs.clear root).fault = none) :
    ∃ L, ∀ places, Layout places → (fs.clear root).files.Unblocked root L places := by
  have hne : root.bytes ≠ [] := by
    obtain ⟨bytes⟩ := root
    rintro rfl
    cases hparent
  obtain ⟨hempty, -⟩ := renewed_of_no_up htidy (fun hstep => hup (up_mem_components hstep)) hne hparent
  obtain ⟨L, hlocate⟩ := list_eq_ok.mp (hempty h)
  have hbase : (fs.clear root).files.Base root L := (if_neg hne).mpr ⟨[], hlocate⟩
  obtain ⟨-, hwalks⟩ := locateWith_eq_ok.mp hlocate
  exact ⟨L, fun places hlayout => unblocked_of_empty hlayout hbase hwalks.get?_of_found⟩

namespace Identity

variable {root : Path} {extension : String}

/-! ## Agreement -/

/-- Artifacts are written where they are read, and apart from one another. -/
structure Agree (root : Path) (extension : String) : Prop where
  /-- A lookup opens the path at which the artifact is written, and answers what comes of it. -/
  opens : ∀ n : Identity, ∃ p, n.artifactPath? root extension = some p ∧
    FileSystem.opened? root (n.resourceName extension) = some p ∧
    (∀ (fs : FileSystem) bytes,
      fs.lookupBelow root (n.resourceName extension) = .ok (some bytes) ↔ fs.read p = .ok bytes) ∧
    ∀ (fs : FileSystem) e, fs.lookupBelow root (n.resourceName extension) = .error e →
      ∃ f, fs.node p = .error f ∧ e = .io p f
  /-- The path is spelt by joining the segments to the root and then changing the extension. -/
  spelling : ∀ n : Identity,
    (root.descend (n.segments.map Utf8.encode)).withExtension? (Utf8.encode extension) =
      n.artifactPath? root extension
  /-- Taken for the path of a source, the name of an artifact gives the identity back. -/
  readBack : '.' ∉ extension.toList → ∀ n : Identity,
    ofSourcePath (.ofString (n.resourceName extension)) extension = .ok n
  /-- The path of an artifact is neither that of another one nor above it. -/
  apart : ∀ (n m : Identity) p q, n ≠ m → n.artifactPath? root extension = some p →
    m.artifactPath? root extension = some q →
      q.startsWith p = false ∧ ∀ a ∈ q.ancestors, a.components ≠ p.components
  /-- Where nothing is in the way of artifacts, they do not get in the way of one another.  The last names of
  the root may have to be made as well. -/
  unhindered : ∀ (fs : FileSystem) (base : Path) inner L ns, root = base.descend inner →
    (∀ m ∈ inner, PlainName m) → fs.Unblocked base L (places inner extension ns) →
      Chore.Unhindered root extension ns fs
  /-- Nothing is in their way in a root without `..` that has been prepared. -/
  prepared : ∀ fs : FileSystem, fs.root.Tidy → root.parent?.isSome → .up ∉ root.components →
    (fs.clear root).fault = none → ∀ ns, Chore.Unhindered root extension ns (fs.clear root).files

/-- **Writers and readers of artifacts agree**, and artifacts never collide. -/
theorem artifacts_agree (root : Path) {extension : String} (hne : extension.toList ≠ [])
    (hslash : '/' ∉ extension.toList) (hbackslash : '\\' ∉ extension.toList) : Agree root extension := by
  have hpath (n : Identity) := n.artifactPath?_eq root hne hslash
  refine ⟨?opens, ?spelling, ?readBack, ?apart, ?unhindered, ?prepared⟩
  case opens =>
    intro n
    have hopened := n.opened?_resourceName root hslash hbackslash
    refine ⟨_, hpath n, hopened, fun fs bytes => ?_, fun fs e he => ?_⟩
    · rw [FileSystem.lookupBelow_eq_some_iff, hopened]
      simp
    · obtain ⟨p, f, hp, hnode, rfl⟩ := FileSystem.opened?_of_error he
      obtain rfl := Option.some.inj (hopened.symm.trans hp)
      exact ⟨f, hnode, rfl⟩
  case spelling => exact fun n => n.withExtension?_segments root hne hslash
  case readBack => exact fun hdot n => n.ofSourcePath_resourceName hslash hbackslash hdot
  case apart =>
    intro n m p q hnm hp hq
    obtain rfl := Option.some.inj ((hpath n).symm.trans hp)
    obtain rfl := Option.some.inj ((hpath m).symm.trans hq)
    have hapart := not_prefix_of_ne hnm root hslash
    refine ⟨?_, fun a ha hsame => hapart (hsame ▸ Path.components_of_mem_ancestors ha)⟩
    unfold Path.startsWith
    rwa [← Bool.not_eq_true, List.isPrefixOf_iff_prefix]
  case unhindered =>
    rintro fs base inner L ns rfl hinner h
    exact Chore.unhindered hne hslash hinner h
  case prepared =>
    intro fs htidy hparent hup hfault ns
    obtain ⟨L, hunblocked⟩ := FileSystem.exists_unblocked_clear htidy hparent hup hfault
    have hnone : ∀ m ∈ ([] : List Name), PlainName m := nofun
    exact Chore.unhindered hne hslash hnone (hunblocked _ (layout_places hnone hslash ns))

/-- In a file system with nothing in it, artifacts are written below `out` without getting in the way of one
another. -/
theorem artifacts_agree_out : "wasm".toList ≠ [] ∧ '/' ∉ "wasm".toList ∧ '\\' ∉ "wasm".toList ∧
    Agree (.ofString "out") "wasm" ∧ ∀ ns,
      Chore.Unhindered (.ofString "out") "wasm" ns (FileSystem.blank.clear (.ofString "out")).files := by
  have hagree : Agree (.ofString "out") "wasm" :=
    artifacts_agree (.ofString "out") (by decide) (by decide) (by decide)
  have htidy : FileSystem.blank.root.Tidy :=
    .singleton ⟨by decide, by decide, by decide, by decide⟩ (FileSystem.tidy_empty _ rfl)
  exact ⟨by decide, by decide, by decide, hagree,
    hagree.prepared .blank htidy (by decide) (by decide) (by cbv)⟩

namespace Detour

/-- A root that leads through the place of an artifact. -/
def path : Path := .ofString "new/Foo.wasm/.."

/-- The unit with this artifact. -/
def foo : Identity := ⟨["Foo"], by decide, by decide⟩

/-- Making the directories of the root makes one at the place of the artifact. -/
theorem foo_is_hindered :
    let made := (Chore.room foo).perform path "wasm" .blank
    made.fault = none ∧ ((Chore.fill foo []).perform path "wasm" made.files).fault = some .isDirectory := by
  cbv

end Detour

end Identity

end LiveUnits
