import LiveUnits.Proofs.Identity.Artifact
import LiveUnits.Proofs.Path.Stem

/-!
# Identities derived from paths

A path with the extension asked for is read component by component, the last name without its extension
(`Path.stems`), and the first component that is no segment decides the error.  So a path spells an
identity exactly if its components are the segments, the last one followed by a dot and the extension
(`Identity.Derives.spells`), and paths with different components spell different identities
(`Identity.Derives.unique`).

There is one exception.  A name such as `..src` has the stem `.`.  If it has something before it and
padding behind it, as in `a/..src/`, it counts for nothing once the extension is off
(`Path.HidesName`), and the path is read like the one above it.
-/

namespace LiveUnits

namespace Path

/-- The name a path ends in, without its extension. -/
def stem? (p : Path) : Option Name := p.fileName?.map fun n => (splitExtension n).1

/-- The components of a path, the last name without its extension. -/
def stems (p : Path) : List Component :=
  p.components.dropLast ++ (p.stem?.map Component.ofStem).toList

/-- A path whose last name counts for nothing once the extension is off. -/
structure HidesName (p : Path) : Prop where
  stem : p.stem? = some [fullStop]
  /-- The spelling goes on behind the name. -/
  padded : ∀ n, p.fileName? = some n → ¬ n <:+ p.bytes
  /-- Something stands before the name. -/
  below : p.components.dropLast ≠ []

/-- What is at the end of padding and holds no separator is nothing or a dot. -/
theorem Padding.suffix {xs n : Bytes} (h : Padding xs) (hn : LiveUnits.slash ∉ n) (hends : n <:+ xs) :
    n = [] ∨ n = [fullStop] := by
  induction h with
  | nil => exact .inl (List.suffix_nil.mp hends)
  | slash _ ih =>
      rcases List.suffix_cons_iff.mp hends with rfl | hends
      · exact absurd List.mem_cons_self hn
      · exact ih hends
  | @here rest hrest ih =>
      rcases List.suffix_cons_iff.mp hends with rfl | hends
      · exact absurd List.mem_cons_self hn
      · rcases List.suffix_cons_iff.mp hends with rfl | hends
        · rcases hrest.eq_nil_or_slash with rfl | ⟨more, rfl⟩
          · exact .inr rfl
          · exact absurd (List.mem_cons_of_mem _ List.mem_cons_self) hn
        · exact ih hends

namespace Ending

variable {p : Path} {front padding : Bytes} {n : Name}

theorem dropLast_components (h : p.Ending front n padding) :
    p.components.dropLast = Path.components ⟨front⟩ := by
  rw [h.components_eq, List.dropLast_concat]

theorem stem?_eq (h : p.Ending front n padding) : p.stem? = some (splitExtension n).1 := by
  unfold stem?
  rw [h.fileName?_eq, Option.map_some]

theorem stems_eq (h : p.Ending front n padding) :
    p.stems = Path.components ⟨front⟩ ++ [.ofStem (splitExtension n).1] := by
  unfold stems
  rw [h.dropLast_components, h.stem?_eq]
  rfl

/-- The spelling ends with the name if there is no padding. -/
theorem suffix_iff (h : p.Ending front n padding) : n <:+ p.bytes ↔ padding = [] := by
  rw [h.spelling]
  constructor
  · intro hends
    by_contra hpadding
    obtain ⟨rest, hrest⟩ := h.padding.eq_nil_or_slash.resolve_left hpadding
    rcases List.suffix_or_suffix_of_suffix hends (List.suffix_append (front ++ n) padding) with hin | hover
    · rcases h.padding.suffix h.plain.no_slash hin with hnil | hdot
      · exact h.plain.ne_nil hnil
      · exact h.plain.ne_here hdot
    · refine h.plain.no_slash (hover.subset ?_)
      rw [hrest]
      exact List.mem_cons_self
  · intro hpadding
    rw [hpadding, List.append_nil]
    exact List.suffix_append front n

theorem hidesName_iff (h : p.Ending front n padding) :
    p.HidesName ↔ (splitExtension n).1 = [fullStop] ∧ padding ≠ [] ∧ front ≠ [] := by
  constructor
  · rintro ⟨hstem, hpadded, hbelow⟩
    rw [h.stem?_eq] at hstem
    refine ⟨Option.some.inj hstem, fun hpadding => ?_, fun hfront => ?_⟩
    · exact hpadded n h.fileName?_eq (h.suffix_iff.mpr hpadding)
    · rw [h.dropLast_components, hfront] at hbelow
      exact hbelow rfl
  · rintro ⟨hstem, hpadding, hfront⟩
    refine ⟨by rw [h.stem?_eq, hstem], fun m hm => ?_, ?_⟩
    · obtain rfl := Option.some.inj (h.fileName?_eq.symm.trans hm)
      exact fun hends => hpadding (h.suffix_iff.mp hends)
    · rw [h.dropLast_components]
      exact h.components_front_ne_nil hfront

end Ending

/-- A path with an extension ends in a name with that extension. -/
theorem exists_ending_of_extension? {p : Path} {e : Bytes} (h : p.extension? = some e) :
    ∃ front stem padding, p.Ending front (stem ++ fullStop :: e) padding ∧ stem ≠ [] ∧ fullStop ∉ e := by
  obtain ⟨n, hn, he⟩ := Option.bind_eq_some_iff.mp h
  obtain ⟨front, padding, hending⟩ := exists_ending hn
  obtain ⟨stem, hsplit⟩ : ∃ stem, splitExtension n = (stem, some e) := ⟨_, Prod.ext rfl he⟩
  obtain ⟨rfl, hstem, hdot⟩ := eq_of_splitExtension hsplit
  exact ⟨front, stem, padding, hending, hstem, hdot⟩

end Path

/-- The first element that is refused decides. -/
theorem mapM_eq_error {α β ε : Type} {f : α → Except ε β} {e : ε} {l : List α} :
    l.mapM f = .error e ↔
      ∃ before a after, l = before ++ a :: after ∧ (∀ b ∈ before, ∃ x, f b = .ok x) ∧ f a = .error e := by
  induction l with
  | nil => simp [pure, Except.pure]
  | cons a rest ih =>
      rw [List.mapM_cons]
      cases ha : f a with
      | error e' =>
          constructor
          · rintro ⟨⟩
            exact ⟨[], a, rest, rfl, nofun, ha⟩
          · rintro ⟨before, b, after, hsplit, hbefore, hb⟩
            cases before with
            | nil =>
                obtain ⟨rfl, -⟩ := List.cons.inj hsplit
                rw [Except.error.inj (ha.symm.trans hb)]
                rfl
            | cons c more =>
                obtain ⟨rfl, -⟩ := List.cons.inj hsplit
                obtain ⟨x, hx⟩ := hbefore a List.mem_cons_self
                rw [ha] at hx
                cases hx
      | ok x =>
          have hrest : (do let b ← Except.ok x; let bs ← rest.mapM f; pure (b :: bs)) =
              (Except.error e : Except ε (List β)) ↔ rest.mapM f = .error e := by
            cases rest.mapM f with
            | error e' => exact ⟨fun h => h, fun h => h⟩
            | ok xs => exact ⟨nofun, nofun⟩
          refine hrest.trans (ih.trans ?_)
          constructor
          · rintro ⟨before, b, after, rfl, hbefore, hb⟩
            exact ⟨a :: before, b, after, rfl, List.forall_mem_cons.mpr ⟨⟨x, ha⟩, hbefore⟩, hb⟩
          · rintro ⟨before, b, after, hsplit, hbefore, hb⟩
            cases before with
            | nil =>
                obtain ⟨rfl, -⟩ := List.cons.inj hsplit
                rw [ha] at hb
                cases hb
            | cons c more =>
                obtain ⟨rfl, hmore⟩ := List.cons.inj hsplit
                exact ⟨more, b, after, hmore, fun d hd => hbefore d (List.mem_cons_of_mem _ hd), hb⟩

namespace Identity

variable {p q : Path} {extension : String}

/-! ## Components -/

/-- The component that a segment is. -/
def component (s : String) : Path.Component := .name (Utf8.encode s)

/-- Why a component of a path is no segment. -/
inductive Unreadable (p : Path) : Path.Component → IdentityError → Prop where
  /-- It is no name. -/
  | special {c : Path.Component} (h : ∀ n, c ≠ .name n) : Unreadable p c (.notRelative p)
  /-- It is a name, but that of no segment. -/
  | name {n : Name} (h : ∀ s, isSegment s = true → Utf8.encode s ≠ n) :
      Unreadable p (.name n) (.invalidSegment p.display (Utf8.lossy n))

/-- A component that is text is a segment or an invalid one. -/
theorem segmentOfComponent_encode (p : Path) (s : String) :
    segmentOfComponent p (component s) =
      if isSegment s then .ok s else .error (.invalidSegment p.display s) := by
  unfold segmentOfComponent component
  simp only [Utf8.decode?_encode]

/-- A component that is no text is blamed under what is shown of it. -/
theorem segmentOfComponent_of_not_text (p : Path) {n : Name} (h : Utf8.decode? n = none) :
    segmentOfComponent p (.name n) = .error (.invalidSegment p.display (Utf8.lossy n)) := by
  unfold segmentOfComponent
  simp only [h]

/-- A component makes a segment exactly if it is spelt like one. -/
theorem segmentOfComponent_eq_ok {c : Path.Component} {s : String} :
    segmentOfComponent p c = .ok s ↔ isSegment s = true ∧ c = component s := by
  constructor
  · intro h
    have hc : c = component s := by
      cases c with
      | name n => exact congrArg _ (encode_of_segmentOfComponent h).symm
      | root => cases h
      | here => cases h
      | up => cases h
    rw [hc, segmentOfComponent_encode] at h
    split at h
    · next hs => exact ⟨hs, hc⟩
    · cases h
  · rintro ⟨hs, rfl⟩
    rw [segmentOfComponent_encode, if_pos hs]

/-- What cannot be read is refused for the reason that it has. -/
theorem segmentOfComponent_of_unreadable {c : Path.Component} {e : IdentityError} (h : Unreadable p c e) :
    segmentOfComponent p c = .error e := by
  cases h with
  | special h =>
      cases c with
      | name n => exact absurd rfl (h n)
      | root => rfl
      | here => rfl
      | up => rfl
  | @name n h =>
      cases hdecode : Utf8.decode? n with
      | none => exact segmentOfComponent_of_not_text p hdecode
      | some s =>
          obtain rfl := Utf8.decode?_eq_some_iff.mp hdecode
          have hs : ¬ isSegment s = true := fun hs => h s hs rfl
          rw [Utf8.lossy_encode]
          exact (segmentOfComponent_encode p s).trans (if_neg hs)

/-- Any other component is refused for what is wrong with it. -/
theorem segmentOfComponent_eq_error {c : Path.Component} {e : IdentityError} :
    segmentOfComponent p c = .error e ↔ Unreadable p c e := by
  refine ⟨fun h => ?_, segmentOfComponent_of_unreadable⟩
  have hreason : ∃ e', Unreadable p c e' := by
    cases c with
    | name n =>
        refine ⟨_, .name fun s hs hencode => ?_⟩
        have hread : segmentOfComponent p (.name n) = .ok s :=
          segmentOfComponent_eq_ok.mpr ⟨hs, congrArg _ hencode.symm⟩
        rw [hread] at h
        cases h
    | root => exact ⟨_, .special nofun⟩
    | here => exact ⟨_, .special nofun⟩
    | up => exact ⟨_, .special nofun⟩
  obtain ⟨e', he'⟩ := hreason
  have hsame : Except.error e' = Except.error e := (segmentOfComponent_of_unreadable he').symm.trans h
  rw [← Except.error.inj hsame]
  exact he'

/-- Components are read one by one. -/
theorem mapM_eq_ok {cs : List Path.Component} {segments : List String} :
    cs.mapM (segmentOfComponent p) = .ok segments ↔
      (∀ s ∈ segments, isSegment s = true) ∧ cs = segments.map component := by
  induction cs generalizing segments with
  | nil =>
      constructor
      · rintro ⟨⟩
        exact ⟨nofun, rfl⟩
      · rintro ⟨-, hnil⟩
        rw [List.map_eq_nil_iff.mp hnil.symm]
        rfl
  | cons c rest ih =>
      constructor
      · intro h
        obtain ⟨s, others, rfl, hs, hothers⟩ := mapM_ok_cons h
        obtain ⟨hsegment, rfl⟩ := segmentOfComponent_eq_ok.mp hs
        obtain ⟨hvalid, rfl⟩ := ih.mp hothers
        exact ⟨List.forall_mem_cons.mpr ⟨hsegment, hvalid⟩, rfl⟩
      · rintro ⟨hvalid, hcomponents⟩
        obtain ⟨s, others, rfl, rfl, hothers⟩ := List.map_eq_cons_iff.mp hcomponents.symm
        obtain ⟨hs, hrest⟩ := List.forall_mem_cons.mp hvalid
        rw [List.mapM_cons, segmentOfComponent_eq_ok.mpr ⟨hs, rfl⟩, ih.mpr ⟨hrest, hothers.symm⟩]
        rfl

/-! ## Paths as lists of components -/

/-- The first of some components that is no segment, and what is wrong with it. -/
def Blames (p : Path) (cs : List Path.Component) (e : IdentityError) : Prop :=
  ∃ before c after, cs = before ++ c :: after ∧
    (∀ b ∈ before, ∃ s, isSegment s = true ∧ b = component s) ∧ Unreadable p c e

/-- A path is read like a list of components. -/
structure ReadsAs (p : Path) (extension : String) (cs : List Path.Component) : Prop where
  /-- It gives the identity that the components are the segments of. -/
  accepted : ∀ n, ofSourcePath p extension = .ok n ↔
    p.extension? = some (Utf8.encode extension) ∧ cs = n.segments.map component
  /-- Otherwise it does not have the extension, or the first component that is no segment decides. -/
  refused : ∀ e, ofSourcePath p extension = .error e ↔
    (p.extension? ≠ some (Utf8.encode extension) ∧ e = .wrongExtension p) ∨
      (p.extension? = some (Utf8.encode extension) ∧ Blames p cs e)

/-- An extension can be compared by its bytes. -/
theorem extension?_eq_iff :
    p.extension?.bind Utf8.decode? = some extension ↔ p.extension? = some (Utf8.encode extension) := by
  cases p.extension? with
  | none => exact ⟨nofun, nofun⟩
  | some e =>
      rw [Option.bind_some, Utf8.decode?_eq_some_iff]
      exact ⟨congrArg some, Option.some.inj⟩

/-- The first component that is no segment gets the blame. -/
theorem blames_iff {cs : List Path.Component} {e : IdentityError} :
    cs.mapM (segmentOfComponent p) = .error e ↔ Blames p cs e := by
  rw [mapM_eq_error]
  simp only [segmentOfComponent_eq_ok, segmentOfComponent_eq_error]
  rfl

/-- **A path is read like the components it is left with.** -/
theorem readsAs_of_mapM {cs : List Path.Component}
    (hne : p.extension? = some (Utf8.encode extension) → cs ≠ [])
    (h : p.extension? = some (Utf8.encode extension) →
      p.withoutExtension.components.mapM (segmentOfComponent p) = cs.mapM (segmentOfComponent p)) :
    ReadsAs p extension cs := by
  by_cases hextension : p.extension? = some (Utf8.encode extension)
  · have hread : ofSourcePath p extension = cs.mapM (segmentOfComponent p) >>= fun segments =>
        ofSegments (".".intercalate segments) segments := by
      unfold ofSourcePath
      rw [if_pos (extension?_eq_iff.mpr hextension), h hextension]
    have haccepted (n : Identity) : ofSourcePath p extension = .ok n ↔ cs = n.segments.map component := by
      rw [hread]
      constructor
      · intro hn
        obtain ⟨segments, hsegments, hof⟩ := exists_of_bind hn
        obtain rfl := segments_of_ofSegments hof
        exact (mapM_eq_ok.mp hsegments).2
      · intro hcs
        rw [mapM_eq_ok.mpr ⟨n.valid, hcs⟩]
        exact ofSegments_segments n _
    refine ⟨fun n => ?_, fun e => ?_⟩
    · rw [haccepted n]
      exact (and_iff_right hextension).symm
    · cases hcs : cs.mapM (segmentOfComponent p) with
      | error e' =>
          have herror : ofSourcePath p extension = .error e' := by
            rw [hread, hcs]
            rfl
          rw [herror, ← blames_iff, hcs]
          simp [hextension]
      | ok segments =>
          obtain ⟨hvalid, hform⟩ := mapM_eq_ok.mp hcs
          have hsegments : segments ≠ [] := by
            rintro rfl
            exact hne hextension hform
          have hok := (haccepted ⟨segments, hsegments, hvalid⟩).mpr hform
          rw [hok, ← blames_iff, hcs]
          simp [hextension]
  · have hread : ofSourcePath p extension = .error (.wrongExtension p) := by
      unfold ofSourcePath
      rw [if_neg fun hmatch => hextension (extension?_eq_iff.mp hmatch)]
    refine ⟨fun n => ?_, fun e => ?_⟩
    · rw [hread]
      simp [hextension]
    · rw [hread]
      simp [hextension, eq_comm]

/-- A path that does not hide its last name is left with the components that it has. -/
theorem mapM_withoutExtension {e : Bytes} (he : p.extension? = some e) (h : ¬ p.HidesName) :
    p.withoutExtension.components.mapM (segmentOfComponent q) = p.stems.mapM (segmentOfComponent q) := by
  obtain ⟨front, stem, padding, hending, hstem, hdot⟩ := Path.exists_ending_of_extension? he
  rw [hending.hidesName_iff, Path.splitExtension_of_stem hstem hdot] at h
  rw [hending.stems_eq, hending.components_withoutExtension hstem hdot, Path.splitExtension_of_stem hstem hdot]
  by_cases hhere : stem = [fullStop]
  · subst hhere
    rw [if_pos rfl]
    by_cases hpadding : padding = []
    · -- the component is `..` and not `.`, but neither is a name
      rw [if_pos hpadding, List.mapM_append, List.mapM_append]
      rfl
    · have hfront : front = [] := by
        by_contra hfront
        exact h ⟨rfl, hpadding, hfront⟩
      rw [if_neg hpadding, if_pos hfront, hfront]
      rfl
  · rw [if_neg hhere]

/-- A hidden name is lost when the extension is taken off. -/
theorem components_of_hidesName {e : Bytes} (he : p.extension? = some e) (h : p.HidesName) :
    p.withoutExtension.components = p.components.dropLast := by
  obtain ⟨front, stem, padding, hending, hstem, hdot⟩ := Path.exists_ending_of_extension? he
  rw [hending.hidesName_iff, Path.splitExtension_of_stem hstem hdot] at h
  obtain ⟨hhere, hpadding, hfront⟩ := h
  rw [hending.components_withoutExtension hstem hdot, if_pos hhere, if_neg hpadding, if_neg hfront,
    hending.dropLast_components]

/-! ## Identities and paths -/

/-- The components of an identity with an extension are read as the identity. -/
theorem extension?_of_components {n : Identity} (hdot : '.' ∉ extension.toList)
    (h : p.components = (n.artifactNames extension).map .name) :
    p.extension? = some (Utf8.encode extension) ∧ p.stems = n.segments.map component := by
  have hsegment := n.valid_simpleName
  have hlast : p.fileName? = some (Utf8.encode n.simpleName ++ fullStop :: Utf8.encode extension) := by
    unfold Path.fileName?
    rw [h, artifactNames, List.map_append, List.map_singleton, List.getLast?_concat]
  have hsplit : Path.splitExtension (Utf8.encode n.simpleName ++ fullStop :: Utf8.encode extension) =
      (Utf8.encode n.simpleName, some (Utf8.encode extension)) := by
    refine Path.splitExtension_of_stem (Utf8.encode_ne_nil (not_isSegment_empty hsegment)) fun hmem => ?_
    exact hdot (Utf8.mem_of_mem_encode (c := '.') (by decide) hmem)
  have hstem : Path.Component.ofStem (Utf8.encode n.simpleName) = component n.simpleName := by
    have hplain := plain_encode hsegment
    unfold Path.Component.ofStem component
    rw [if_neg hplain.ne_here, if_neg hplain.ne_up]
  constructor
  · unfold Path.extension?
    rw [hlast, Option.bind_some, hsplit]
  · unfold Path.stems Path.stem?
    rw [hlast, Option.map_some, hsplit, Option.map_some, hstem, h, artifactNames, List.map_append,
      List.map_singleton, List.dropLast_concat, List.map_map]
    conv_rhs => rw [n.segments_eq, List.map_append]
    rfl

/-- A path whose stems are the segments of an identity has the components of its artifact. -/
theorem components_of_stems {n : Identity} (hextension : p.extension? = some (Utf8.encode extension))
    (h : p.stems = n.segments.map component) : p.components = (n.artifactNames extension).map .name := by
  obtain ⟨front, stem, padding, hending, hstem, hdot⟩ := Path.exists_ending_of_extension? hextension
  rw [hending.stems_eq, Path.splitExtension_of_stem hstem hdot, n.segments_eq, List.map_append] at h
  obtain ⟨hfront, hlast⟩ := List.append_inj' h rfl
  have hname : stem = Utf8.encode n.simpleName := by
    have hcomponent := List.singleton_inj.mp hlast
    unfold Path.Component.ofStem component at hcomponent
    split_ifs at hcomponent
    exact Path.Component.name.inj hcomponent
  rw [hending.components_eq, hfront, hname, artifactNames, List.map_append, List.map_map]
  rfl

/-- What paths say about identities. -/
structure Derives (p : Path) (extension : String) : Prop where
  /-- A path is read component by component, the last name without its extension. -/
  reads : ¬ p.HidesName → ReadsAs p extension p.stems
  /-- So it spells an identity exactly if its components are the segments, the last one followed by a dot
  and the extension. -/
  spells : ¬ p.HidesName → ∀ n, ofSourcePath p extension = .ok n ↔
    p.components = (n.artifactNames extension).map .name
  /-- Paths that spell the same identity have the same components. -/
  unique : ∀ q n, ¬ p.HidesName → ¬ q.HidesName → ofSourcePath p extension = .ok n →
    ofSourcePath q extension = .ok n → p.components = q.components
  /-- A path that hides its last name is read as if the name were not there. -/
  hidden : p.HidesName → ReadsAs p extension p.components.dropLast

/-- **The identity of a path is read off its components.** -/
theorem derives (p : Path) {extension : String} (hdot : '.' ∉ extension.toList) : Derives p extension := by
  have hreads (q : Path) (hq : ¬ q.HidesName) : ReadsAs q extension q.stems := by
    refine readsAs_of_mapM (fun he => ?_) fun he => mapM_withoutExtension he hq
    obtain ⟨front, stem, padding, hending, -, -⟩ := Path.exists_ending_of_extension? he
    rw [hending.stems_eq]
    exact List.append_ne_nil_of_right_ne_nil _ (List.cons_ne_nil _ _)
  have hspells (q : Path) (hq : ¬ q.HidesName) (n : Identity) : ofSourcePath q extension = .ok n ↔
      q.components = (n.artifactNames extension).map .name := by
    rw [(hreads q hq).accepted n]
    constructor
    · rintro ⟨hextension, hstems⟩
      exact components_of_stems hextension hstems
    · exact extension?_of_components hdot
  refine ⟨hreads p, hspells p, fun q n hp hq hn hn' => ?_, fun hhides => ?_⟩
  · rw [(hspells p hp n).mp hn, (hspells q hq n).mp hn']
  · refine readsAs_of_mapM (fun _ => hhides.below) fun he => ?_
    rw [components_of_hidesName he hhides]

namespace Padded

/-- A path with a name whose stem is a dot, and a separator behind it. -/
def path : Path := .ofString "a/..src/"

/-- What the path above it spells. -/
def above : Identity := ⟨["a"], by decide, by decide⟩

/-- The path hides its last name. -/
theorem hidesName_path : path.HidesName := by
  have hname : path.fileName? = some (Utf8.encode "..src") := by decide
  refine ⟨by decide, fun n hn => ?_, by decide⟩
  obtain rfl := Option.some.inj (hname.symm.trans hn)
  decide

/-- The path is read as if its last name were not there. -/
theorem derives_padded : '.' ∉ "src".toList ∧ path.HidesName ∧ Derives path "src" ∧
    ofSourcePath path "src" = .ok above := by
  have hderives : Derives path "src" := derives path (by decide)
  have hread := (hderives.hidden hidesName_path).accepted above
  exact ⟨by decide, hidesName_path, hderives, hread.mpr ⟨by decide, by decide⟩⟩

end Padded

end Identity

end LiveUnits
