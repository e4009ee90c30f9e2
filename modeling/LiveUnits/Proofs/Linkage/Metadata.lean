import LiveUnits.Linkage.Materialise
import LiveUnits.Proofs.Identity.Reading
import LiveUnits.Proofs.Text.Ascending
import LiveUnits.Proofs.Text.Utf8

/-!
# What metadata are read

Reading the metadata goes through the sections in order.  What has been read after some of them is
determined by these alone (`Metadata.Tells`), and the first section that is unusable ends the reading
(`Metadata.Offends`).  So the metadata say what the sections say as a set, and the error is that of the
first offence (`Metadata.exact_read`).
-/

namespace LiveUnits

namespace Metadata

open Wasm (Section Sections)

/-! ## Texts of sections -/

/-- The trimmed text of a section, which is not blank. -/
def Legible (data : Bytes) (t : String) : Prop :=
  ∃ s, data = Utf8.encode s ∧ trim s = t ∧ t.toList ≠ []

/-- Why a section has no such text. -/
inductive Illegible (sectionName : String) (data : Bytes) : MetadataFault → Prop where
  | notText {fault : Utf8.Fault} (h : Utf8.decode data = .error fault) :
      Illegible sectionName data (.notText sectionName fault)
  | empty {s : String} (h : data = Utf8.encode s) (hblank : (trim s).toList = []) :
      Illegible sectionName data (.empty sectionName)

/-- A section that is text gives it trimmed, unless that leaves nothing. -/
theorem sectionText_encode (sectionName s : String) :
    sectionText sectionName (Utf8.encode s) =
      if (trim s).toList = [] then .error (.empty sectionName) else .ok (trim s) := by
  unfold sectionText
  rw [Utf8.decode_eq_ok.mpr rfl]

/-- A section is read exactly if it is legible, and gives that text. -/
theorem sectionText_eq_ok {sectionName : String} {data : Bytes} {t : String} :
    sectionText sectionName data = .ok t ↔ Legible data t := by
  constructor
  · intro h
    cases hs : Utf8.decode data with
    | error fault =>
        unfold sectionText at h
        rw [hs] at h
        cases h
    | ok s =>
        obtain rfl := Utf8.decode_eq_ok.mp hs
        rw [sectionText_encode] at h
        split at h
        · cases h
        · next hblank =>
          obtain rfl := Except.ok.inj h
          exact ⟨s, rfl, rfl, hblank⟩
  · rintro ⟨s, rfl, rfl, hblank⟩
    rw [sectionText_encode, if_neg hblank]

/-- A section is refused exactly if it is not legible, and for what makes it illegible. -/
theorem sectionText_eq_error {sectionName : String} {data : Bytes} {f : MetadataFault} :
    sectionText sectionName data = .error f ↔ Illegible sectionName data f := by
  constructor
  · intro h
    cases hs : Utf8.decode data with
    | error fault =>
        unfold sectionText at h
        rw [hs] at h
        obtain rfl := Except.error.inj h
        exact .notText hs
    | ok s =>
        obtain rfl := Utf8.decode_eq_ok.mp hs
        rw [sectionText_encode] at h
        split at h
        · next hblank =>
          obtain rfl := Except.error.inj h
          exact .empty rfl hblank
        · cases h
  · intro h
    cases h with
    | notText h =>
        unfold sectionText
        rw [h]
    | empty h hblank => rw [h, sectionText_encode, if_pos hblank]

/-- A text is read as the identity that it spells. -/
theorem parse_eq_ok {t : String} {n : Identity} : Identity.parse t = .ok n ↔ n.text = t := by
  constructor
  · exact Identity.text_of_parse
  · rintro rfl
    exact n.parse_text

/-! ## What sections say -/

/-- A section that declares a supertype. -/
def isExtends : Section → Bool
  | .custom name _ => name == extendsSection
  | _ => false

/-- A section that says something about the unit. -/
def isMetadata : Section → Bool
  | .custom name _ => name == markerSection || name == extendsSection
  | _ => false

/-- A section declares a supertype if it has the name for that. -/
theorem isExtends_iff {s : Section} : isExtends s = true ↔ ∃ data, s = .custom extendsSection data := by
  cases s with
  | custom name data => simp [isExtends]
  | plain number contents => simp [isExtends]
  | unknown number => simp [isExtends]
  | foreign number => simp [isExtends]

/-- A section is metadata if it is a marker or declares a supertype. -/
theorem isMetadata_iff {s : Section} : isMetadata s = true ↔
    (∃ data, s = .custom markerSection data) ∨ ∃ data, s = .custom extendsSection data := by
  cases s with
  | custom name data => simp [isMetadata]
  | plain number contents => simp [isMetadata]
  | unknown number => simp [isMetadata]
  | foreign number => simp [isMetadata]

/-- Sections that can be read. -/
structure Sound (items : List Section) : Prop where
  /-- Every marker is a text that is not blank. -/
  markers : ∀ data, .custom markerSection data ∈ items → ∃ t, Legible data t
  /-- Every supertype is an identity. -/
  supertypes : ∀ data, .custom extendsSection data ∈ items → ∃ n : Identity, Legible data n.text
  /-- At most one supertype is declared. -/
  single : (items.filter isExtends).length ≤ 1

/-- What sections say. -/
structure Tells (items : List Section) (m : Metadata) : Prop where
  /-- The markers are in order, and none is repeated. -/
  ascending : Ascending id m.markers
  /-- The markers are the trimmed texts of the sections. -/
  markers : ∀ t, t ∈ m.markers ↔ ∃ data, .custom markerSection data ∈ items ∧ Legible data t
  /-- So is the name of the supertype. -/
  supertype : ∀ n, m.supertype = some n ↔
    ∃ data, .custom extendsSection data ∈ items ∧ Legible data n.text

/-- What is wrong with a section behind other ones. -/
inductive Offends (before : List Section) (s : Section) : MetadataFault → Prop where
  /-- A marker is no text, or blank. -/
  | marker {data : Bytes} {f : MetadataFault} (hs : s = .custom markerSection data)
      (h : Illegible markerSection data f) : Offends before s f
  /-- A supertype is no text, or blank. -/
  | unreadable {data : Bytes} {f : MetadataFault} (hs : s = .custom extendsSection data)
      (h : Illegible extendsSection data f) : Offends before s f
  /-- A supertype is no identity. -/
  | supertype {data : Bytes} {t : String} {e : IdentityError} (hs : s = .custom extendsSection data)
      (h : Legible data t) (he : Identity.parse t = .error e) : Offends before s (.badSupertype e)
  /-- Another supertype has been declared before. -/
  | repeated {data other : Bytes} {n : Identity} (hs : s = .custom extendsSection data)
      (h : Legible data n.text) (hbefore : .custom extendsSection other ∈ before) :
      Offends before s .repeatedSupertype

/-- The sections determine what they say. -/
theorem Tells.unique {items : List Section} {m m' : Metadata} (h : Tells items m) (h' : Tells items m') :
    m = m' := by
  have hmarkers : m.markers = m'.markers :=
    h.ascending.eq_of_mem h'.ascending fun t => (h.markers t).trans (h'.markers t).symm
  have hsupertype : m.supertype = m'.supertype :=
    Option.ext fun n => (h.supertype n).trans (h'.supertype n).symm
  cases m
  cases m'
  exact congr (congrArg Metadata.mk hmarkers) hsupertype

theorem markerSection_ne_extendsSection : markerSection ≠ extendsSection := by decide

/-! ## One section -/

section Step

variable {before : List Section} {m m' : Metadata} {s : Section}

/-- A marker adds its text to the markers. -/
theorem addSection_marker (m : Metadata) (data : Bytes) :
    m.addSection (.custom markerSection data) = (sectionText markerSection data).map fun t =>
      { m with markers := insertByKey id t m.markers } := by
  unfold addSection
  dsimp only
  rw [if_pos rfl]
  cases sectionText markerSection data <;> rfl

/-- A declared supertype is added to the metadata. -/
theorem addSection_extends (m : Metadata) (data : Bytes) :
    m.addSection (.custom extendsSection data) = m.addSupertype data := by
  unfold addSection
  dsimp only
  rw [if_neg markerSection_ne_extendsSection.symm, if_pos rfl]

/-- Any other section adds nothing. -/
theorem addSection_other (m : Metadata) (h : isMetadata s = false) : m.addSection s = .ok m := by
  cases s with
  | custom name data =>
      simp only [isMetadata, Bool.or_eq_false_iff, beq_eq_false_iff_ne] at h
      unfold addSection
      dsimp only
      rw [if_neg h.1, if_neg h.2]
  | plain number contents => rfl
  | unknown number => rfl
  | foreign number => rfl

/-- A supertype that cannot be read is refused for that. -/
theorem addSupertype_of_illegible (m : Metadata) {data : Bytes} {f : MetadataFault}
    (h : Illegible extendsSection data f) : m.addSupertype data = .error f := by
  unfold addSupertype
  rw [sectionText_eq_error.mpr h]
  rfl

/-- One that can be read is refused if it is no identity, or not the first one. -/
theorem addSupertype_of_legible (m : Metadata) {data : Bytes} {t : String} (h : Legible data t) :
    m.addSupertype data = match Identity.parse t with
      | .error e => .error (.badSupertype e)
      | .ok n => if m.supertype = none then .ok { m with supertype := some n }
        else .error .repeatedSupertype := by
  unfold addSupertype
  rw [sectionText_eq_ok.mpr h]
  simp only [bind, Except.bind]
  cases Identity.parse t with
  | error e => rfl
  | ok n => cases m.supertype <;> rfl

theorem mem_concat {name : String} {data : Bytes} :
    .custom name data ∈ before ++ [s] ↔ .custom name data ∈ before ∨ s = .custom name data := by
  rw [List.mem_append, List.mem_singleton, eq_comm (a := s)]

/-- Supertypes are counted without the other sections. -/
theorem filter_isExtends_concat (h : isExtends s = false) :
    (before ++ [s]).filter isExtends = before.filter isExtends := by
  rw [List.filter_append, List.filter_cons_of_neg (by simp [h]), List.filter_nil, List.append_nil]

/-- A text that is legible is the only one. -/
theorem Legible.unique {data : Bytes} {t t' : String} (h : Legible data t) (h' : Legible data t') :
    t = t' := by
  have hread : sectionText markerSection data = .ok t := sectionText_eq_ok.mpr h
  rw [sectionText_eq_ok.mpr h'] at hread
  exact (Except.ok.inj hread).symm

/-- A supertype has been read exactly if one is declared. -/
theorem Tells.supertype_eq_none (htells : Tells before m) (hsound : Sound before) :
    m.supertype = none ↔ before.filter isExtends = [] := by
  constructor
  · intro hnone
    refine List.filter_eq_nil_iff.mpr fun s hs hextends => ?_
    obtain ⟨data, rfl⟩ := isExtends_iff.mp hextends
    obtain ⟨n, hn⟩ := hsound.supertypes data hs
    rw [(htells.supertype n).mpr ⟨data, hs, hn⟩] at hnone
    cases hnone
  · intro hnil
    refine Option.eq_none_iff_forall_ne_some.mpr fun n hn => ?_
    obtain ⟨data, hdata, -⟩ := (htells.supertype n).mp hn
    exact List.filter_eq_nil_iff.mp hnil _ hdata (isExtends_iff.mpr ⟨data, rfl⟩)

/-- A section that says nothing leaves everything as it is. -/
theorem other_step (htells : Tells before m) (hsound : Sound before) (h : isMetadata s = false) :
    Sound (before ++ [s]) ∧ Tells (before ++ [s]) m := by
  have hmarker (data : Bytes) : .custom markerSection data ∈ before ++ [s] ↔
      .custom markerSection data ∈ before := by
    rw [mem_concat, or_iff_left]
    rintro rfl
    rw [isMetadata_iff.mpr (.inl ⟨data, rfl⟩)] at h
    cases h
  have hsupertype (data : Bytes) : .custom extendsSection data ∈ before ++ [s] ↔
      .custom extendsSection data ∈ before := by
    rw [mem_concat, or_iff_left]
    rintro rfl
    rw [isMetadata_iff.mpr (.inr ⟨data, rfl⟩)] at h
    cases h
  have hextends : isExtends s = false := by
    refine Bool.eq_false_iff.mpr fun hextends => ?_
    rw [isMetadata_iff.mpr (.inr (isExtends_iff.mp hextends))] at h
    cases h
  refine ⟨⟨fun data hdata => ?_, fun data hdata => ?_, ?_⟩, htells.ascending, fun t => ?_, fun n => ?_⟩
  · exact hsound.markers data ((hmarker data).mp hdata)
  · exact hsound.supertypes data ((hsupertype data).mp hdata)
  · rw [filter_isExtends_concat hextends]
    exact hsound.single
  · simp only [hmarker, htells.markers]
  · simp only [hsupertype, htells.supertype]

/-- A marker is added to the others. -/
theorem marker_step (htells : Tells before m) (hsound : Sound before) {data : Bytes} {t : String}
    (h : Legible data t) : Sound (before ++ [.custom markerSection data]) ∧
      Tells (before ++ [.custom markerSection data]) { m with markers := insertByKey id t m.markers } := by
  have hsupertype {other : Bytes} : .custom extendsSection other ∈ before ++ [.custom markerSection data] ↔
      .custom extendsSection other ∈ before := by
    rw [mem_concat, or_iff_left]
    intro hsame
    exact markerSection_ne_extendsSection (Section.custom.inj hsame).1
  have hmarker {other : Bytes} : .custom markerSection other ∈ before ++ [.custom markerSection data] ↔
      .custom markerSection other ∈ before ∨ data = other := by
    rw [mem_concat, Section.custom.injEq, and_iff_right rfl]
  refine ⟨⟨fun other hother => ?_, fun other hother => ?_, ?_⟩, htells.ascending.insertByKey t,
    fun t' => ?_, fun n => ?_⟩
  · rcases hmarker.mp hother with hother | rfl
    · exact hsound.markers other hother
    · exact ⟨t, h⟩
  · exact hsound.supertypes other (hsupertype.mp hother)
  · have hother : isExtends (.custom markerSection data) = false :=
      beq_eq_false_iff_ne.mpr markerSection_ne_extendsSection
    rw [filter_isExtends_concat hother]
    exact hsound.single
  · rw [mem_insertByKey htells.ascending]
    simp only [hmarker, htells.markers]
    constructor
    · rintro (rfl | ⟨⟨other, hother, ht⟩, -⟩)
      · exact ⟨data, .inr rfl, h⟩
      · exact ⟨other, .inl hother, ht⟩
    · rintro ⟨other, hother | rfl, ht⟩
      · by_cases hsame : t' = t
        · exact .inl hsame
        · exact .inr ⟨⟨other, hother, ht⟩, hsame⟩
      · exact .inl (ht.unique h)
  · simp only [hsupertype, htells.supertype]

/-- The first supertype is the supertype. -/
theorem supertype_step (htells : Tells before m) (hsound : Sound before) (hnone : m.supertype = none)
    {data : Bytes} {n : Identity} (h : Legible data n.text) : Sound (before ++ [.custom extendsSection data]) ∧
      Tells (before ++ [.custom extendsSection data]) { m with supertype := some n } := by
  have hmarker {other : Bytes} : .custom markerSection other ∈ before ++ [.custom extendsSection data] ↔
      .custom markerSection other ∈ before := by
    rw [mem_concat, or_iff_left]
    intro hsame
    exact markerSection_ne_extendsSection (Section.custom.inj hsame).1.symm
  have hfirst (other : Bytes) : .custom extendsSection other ∉ before := fun hother =>
    List.filter_eq_nil_iff.mp ((htells.supertype_eq_none hsound).mp hnone) _ hother
      (isExtends_iff.mpr ⟨other, rfl⟩)
  have hsupertype {other : Bytes} : .custom extendsSection other ∈ before ++ [.custom extendsSection data] ↔
      data = other := by
    rw [mem_concat, or_iff_right (hfirst other), Section.custom.injEq, and_iff_right rfl]
  refine ⟨⟨fun other hother => ?_, fun other hother => ?_, ?_⟩, htells.ascending, fun t => ?_,
    fun n' => ?_⟩
  · exact hsound.markers other (hmarker.mp hother)
  · obtain rfl := hsupertype.mp hother
    exact ⟨n, h⟩
  · rw [List.filter_append, (htells.supertype_eq_none hsound).mp hnone, List.nil_append]
    exact List.length_filter_le _ _
  · simp only [hmarker, htells.markers]
  · simp only [hsupertype, exists_eq_left']
    constructor
    · intro hsame
      obtain rfl := Option.some.inj hsame
      exact h
    · intro hn
      rw [Identity.text_inj (h.unique hn)]

/-- **One section** is taken into account, or it is an offence. -/
theorem addSection_step (htells : Tells before m) (hsound : Sound before) (s : Section) :
    (∃ m', m.addSection s = .ok m' ∧ Sound (before ++ [s]) ∧ Tells (before ++ [s]) m') ∨
      ∃ f, m.addSection s = .error f ∧ Offends before s f := by
  by_cases hother : isMetadata s = false
  · rw [addSection_other m hother]
    exact .inl ⟨m, rfl, other_step htells hsound hother⟩
  rcases isMetadata_iff.mp (eq_true_of_ne_false hother) with ⟨data, rfl⟩ | ⟨data, rfl⟩
  · rw [addSection_marker]
    cases htext : sectionText markerSection data with
    | error f => exact .inr ⟨f, rfl, .marker rfl (sectionText_eq_error.mp htext)⟩
    | ok t => exact .inl ⟨_, rfl, marker_step htells hsound (sectionText_eq_ok.mp htext)⟩
  · rw [addSection_extends]
    cases htext : sectionText extendsSection data with
    | error f =>
        have hillegible := sectionText_eq_error.mp htext
        exact .inr ⟨f, m.addSupertype_of_illegible hillegible, .unreadable rfl hillegible⟩
    | ok t =>
        have hlegible := sectionText_eq_ok.mp htext
        rw [m.addSupertype_of_legible hlegible]
        cases hparse : Identity.parse t with
        | error e => exact .inr ⟨_, rfl, .supertype rfl hlegible hparse⟩
        | ok n =>
            obtain rfl := parse_eq_ok.mp hparse
            by_cases hnone : m.supertype = none
            · exact .inl ⟨_, if_pos hnone, supertype_step htells hsound hnone hlegible⟩
            · obtain ⟨other, hother⟩ := Option.ne_none_iff_exists'.mp hnone
              obtain ⟨data', hdata', -⟩ := (htells.supertype other).mp hother
              exact .inr ⟨_, if_neg hnone, .repeated rfl hlegible hdata'⟩

/-- An offence is an error. -/
theorem addSection_of_offends (htells : Tells before m) (hsound : Sound before) {f : MetadataFault}
    (h : Offends before s f) : m.addSection s = .error f := by
  cases h with
  | marker hs h =>
      rw [hs, addSection_marker, sectionText_eq_error.mpr h]
      rfl
  | unreadable hs h => rw [hs, addSection_extends, m.addSupertype_of_illegible h]
  | supertype hs h he => rw [hs, addSection_extends, m.addSupertype_of_legible h, he]
  | @repeated data other n hs h hbefore =>
      obtain ⟨n', hn'⟩ := hsound.supertypes other hbefore
      have hsome : m.supertype ≠ none := by
        rw [(htells.supertype n').mpr ⟨other, hbefore, hn'⟩]
        exact Option.some_ne_none n'
      rw [hs, addSection_extends, m.addSupertype_of_legible h, n.parse_text]
      exact if_neg hsome

end Step

/-! ## All sections -/

variable {before items : List Section} {m : Metadata} {f : MetadataFault}

/-- What the sections that are left do, once others have been read. -/
theorem addSections_step (htells : Tells before m) (hsound : Sound before) (rest : List Section) :
    (∃ m', m.addSections rest = .ok m' ∧ Sound (before ++ rest) ∧ Tells (before ++ rest) m') ∨
      ∃ f front s after, m.addSections rest = .error f ∧ rest = front ++ s :: after ∧
        Sound (before ++ front) ∧ Offends (before ++ front) s f := by
  induction rest generalizing before m with
  | nil =>
      rw [List.append_nil]
      exact .inl ⟨m, rfl, hsound, htells⟩
  | cons s rest ih =>
      unfold addSections
      rcases addSection_step htells hsound s with ⟨m', hstep, hsound', htells'⟩ | ⟨f, hstep, hoffends⟩
      · rw [hstep]
        rcases ih htells' hsound' with ⟨m'', hrest, hall⟩ | ⟨f, front, s', after, hrest, rfl, hbad⟩
        · refine .inl ⟨m'', hrest, ?_⟩
          rwa [← List.append_cons] at hall
        · refine .inr ⟨f, s :: front, s', after, hrest, rfl, ?_⟩
          rwa [← List.append_cons] at hbad
      · rw [hstep]
        refine .inr ⟨f, [], s, rest, rfl, rfl, ?_⟩
        rw [List.append_nil]
        exact ⟨hsound, hoffends⟩

theorem tells_nil : Tells [] {} where
  ascending := List.Pairwise.nil
  markers _ := ⟨fun h => (List.not_mem_nil h).elim, fun ⟨_, h, _⟩ => (List.not_mem_nil h).elim⟩
  supertype _ := ⟨nofun, fun ⟨_, h, _⟩ => (List.not_mem_nil h).elim⟩

theorem sound_nil : Sound [] where
  markers _ h := (List.not_mem_nil h).elim
  supertypes _ h := (List.not_mem_nil h).elim
  single := Nat.zero_le 1

/-- No section is both legible and not. -/
theorem Legible.not_illegible {sectionName t : String} {data : Bytes} (h : Legible data t) :
    ¬ Illegible sectionName data f := by
  intro hillegible
  have htext : sectionText sectionName data = .ok t := sectionText_eq_ok.mpr h
  rw [sectionText_eq_error.mpr hillegible] at htext
  cases htext

/-- No offence is among sections that can be read. -/
theorem Sound.not_offends {s : Section} {after : List Section} (h : Sound (before ++ s :: after)) :
    ¬ Offends before s f := by
  have hs : s ∈ before ++ s :: after := List.mem_append_right _ List.mem_cons_self
  rintro (⟨rfl, hdata⟩ | ⟨rfl, hdata⟩ | ⟨rfl, ht, he⟩ | ⟨rfl, -, hother⟩)
  · obtain ⟨t, ht⟩ := h.markers _ hs
    exact ht.not_illegible hdata
  · obtain ⟨n, hn⟩ := h.supertypes _ hs
    exact hn.not_illegible hdata
  · obtain ⟨n, hn⟩ := h.supertypes _ hs
    rw [ht.unique hn, n.parse_text] at he
    cases he
  · -- the one before and this one are two
    have hbefore : 0 < (before.filter isExtends).length :=
      List.length_pos_of_mem (List.mem_filter.mpr ⟨hother, isExtends_iff.mpr ⟨_, rfl⟩⟩)
    have hsingle := h.single
    rw [List.filter_append, List.filter_cons_of_pos (isExtends_iff.mpr ⟨_, rfl⟩), List.length_append,
      List.length_cons] at hsingle
    omega

/-- Sections that can be read are read. -/
theorem Sound.addSections (h : Sound items) : ∃ m, addSections {} items = .ok m ∧ Tells items m := by
  rcases addSections_step tells_nil sound_nil items with
    ⟨m, hread, -, htells⟩ | ⟨f, front, s, after, -, rfl, -, hbad⟩
  · exact ⟨m, hread, htells⟩
  · exact absurd hbad h.not_offends

/-- **Sections are accepted exactly if they are sound**, and give what they tell. -/
theorem addSections_eq_ok : addSections {} items = .ok m ↔ Sound items ∧ Tells items m := by
  constructor
  · intro h
    rcases addSections_step tells_nil sound_nil items with
      ⟨m', hread, hsound, htells⟩ | ⟨f, _, _, _, hread, -⟩
    · obtain rfl := Except.ok.inj (h.symm.trans hread)
      exact ⟨hsound, htells⟩
    · rw [h] at hread
      cases hread
  · rintro ⟨hsound, htells⟩
    obtain ⟨m', hread, htells'⟩ := hsound.addSections
    rw [hread, htells.unique htells']

theorem addSections_append (m : Metadata) (front rest : List Section) :
    m.addSections (front ++ rest) = (do (← m.addSections front).addSections rest) := by
  induction front generalizing m with
  | nil => rfl
  | cons s front ih =>
      show (do (← m.addSection s).addSections (front ++ rest)) =
        (do (← (do (← m.addSection s).addSections front)).addSections rest)
      cases m.addSection s with
      | error f => rfl
      | ok m' => exact ih m'

/-- **Sections are refused for the first one that offends.** -/
theorem addSections_eq_error : addSections {} items = .error f ↔
    ∃ before s after, items = before ++ s :: after ∧ Sound before ∧ Offends before s f := by
  constructor
  · intro h
    rcases addSections_step tells_nil sound_nil items with
      ⟨m, hread, -⟩ | ⟨f', front, s, after, hread, hsplit, hbad⟩
    · rw [h] at hread
      cases hread
    · obtain rfl := Except.error.inj (h.symm.trans hread)
      exact ⟨front, s, after, hsplit, hbad⟩
  · rintro ⟨before, s, after, rfl, hsound, hoffends⟩
    obtain ⟨m, hread, htells⟩ := hsound.addSections
    rw [addSections_append, hread]
    show (do (← m.addSection s).addSections after) = _
    rw [addSection_of_offends htells hsound hoffends]
    rfl

/-! ## Other sections -/

/-- Supertypes are metadata, so nothing is lost when other sections are left out. -/
theorem filter_isExtends (items : List Section) :
    (items.filter isMetadata).filter isExtends = items.filter isExtends := by
  rw [List.filter_filter]
  refine List.filter_congr fun s _ => ?_
  cases hextends : isExtends s with
  | false => rfl
  | true => exact isMetadata_iff.mpr (.inr (isExtends_iff.mp hextends))

section Perm

variable {others : List Section} (h : (others.filter isMetadata).Perm (items.filter isMetadata))

include h

theorem mem_iff_of_perm {s : Section} (hs : isMetadata s = true) : s ∈ others ↔ s ∈ items := by
  have hmem := h.mem_iff (a := s)
  rwa [List.mem_filter, List.mem_filter, and_iff_left hs, and_iff_left hs] at hmem

theorem marker_mem_iff (data : Bytes) :
    .custom markerSection data ∈ others ↔ .custom markerSection data ∈ items :=
  mem_iff_of_perm h (isMetadata_iff.mpr (.inl ⟨data, rfl⟩))

/-- Reordered metadata has the same supertypes. -/
theorem supertype_mem_iff (data : Bytes) :
    .custom extendsSection data ∈ others ↔ .custom extendsSection data ∈ items :=
  mem_iff_of_perm h (isMetadata_iff.mpr (.inr ⟨data, rfl⟩))

/-- Whether sections can be read depends on those that say something, and not on their order. -/
theorem Sound.of_perm (hsound : Sound items) : Sound others where
  markers data hdata := hsound.markers data ((marker_mem_iff h data).mp hdata)
  supertypes data hdata := hsound.supertypes data ((supertype_mem_iff h data).mp hdata)
  single := by
    have hsame := (h.filter isExtends).length_eq
    rw [filter_isExtends, filter_isExtends] at hsame
    rw [hsame]
    exact hsound.single

/-- Reordered metadata tells the same. -/
theorem Tells.of_perm (htells : Tells items m) : Tells others m where
  ascending := htells.ascending
  markers t := by simp only [htells.markers, marker_mem_iff h]
  supertype n := by simp only [htells.supertype, supertype_mem_iff h]

end Perm

/-! ## Reading -/

/-- How an error shows when the unit is linked. -/
def blame (name : Identity) : MetadataError → LinkageError
  | .malformed d => .malformed name d
  | .invalid fault => .invalidMetadata name fault

/-- What reading the metadata gives. -/
structure Exact (sections : Sections) : Prop where
  /-- Metadata are read exactly if there is no damage and every section can be read. -/
  isOk : (∃ m, read sections = .ok m) ↔ sections.damage = none ∧ Sound sections.items
  /-- They are what the sections say. -/
  reads : ∀ m, read sections = .ok m ↔
    sections.damage = none ∧ Sound sections.items ∧ Tells sections.items m
  /-- Otherwise the first offence decides. -/
  invalid : ∀ f, read sections = .error (.invalid f) ↔
    ∃ before s after, sections.items = before ++ s :: after ∧ Sound before ∧ Offends before s f
  /-- The damage decides if there is no offence before it. -/
  malformed : ∀ d, read sections = .error (.malformed d) ↔
    Sound sections.items ∧ sections.damage = some d
  /-- Neither the other sections nor the order of those that say something matter. -/
  unchanged : ∀ m, read sections = .ok m → ∀ others : Sections, others.damage = none →
    (others.items.filter isMetadata).Perm (sections.items.filter isMetadata) → read others = .ok m
  /-- An error comes before everything else that can be wrong with a unit: nothing is asked for. -/
  first : ∀ e, read sections = .error e →
    ∀ (σ : Type) (resolve : Resolving σ) handle name bytes origin (s : σ) interface,
      Wasm.Image.read bytes = .ok ⟨sections, interface⟩ →
        Linkage.materialise resolve handle name bytes origin s = (.error (blame name e), s)

/-- A module without damage is read exactly if its sections are sound. -/
theorem read_eq_ok {sections : Sections} : read sections = .ok m ↔
    sections.damage = none ∧ Sound sections.items ∧ Tells sections.items m := by
  rw [← addSections_eq_ok]
  unfold read
  cases addSections {} sections.items with
  | error f => exact ⟨nofun, fun h => nomatch h.2⟩
  | ok m' =>
      cases sections.damage with
      | some d => exact ⟨nofun, fun h => nomatch h.1⟩
      | none => exact ⟨fun h => ⟨rfl, congrArg Except.ok (Except.ok.inj h)⟩, fun h => by
          rw [Except.ok.inj h.2]⟩

/-- Metadata is invalid exactly if a section before any damage offends. -/
theorem read_eq_invalid {sections : Sections} : read sections = .error (.invalid f) ↔
    addSections {} sections.items = .error f := by
  unfold read
  cases addSections {} sections.items with
  | error f' =>
      constructor
      · intro h
        rw [MetadataError.invalid.inj (Except.error.inj h)]
      · intro h
        rw [Except.error.inj h]
  | ok m => cases sections.damage <;> exact ⟨nofun, nofun⟩

/-- A module is malformed exactly if it is damaged and nothing before the damage offends. -/
theorem read_eq_malformed {sections : Sections} {d : Wasm.Malformation} :
    read sections = .error (.malformed d) ↔ Sound sections.items ∧ sections.damage = some d := by
  unfold read
  cases hread : addSections {} sections.items with
  | error f =>
      refine ⟨nofun, fun h => ?_⟩
      obtain ⟨m, hm, -⟩ := h.1.addSections
      rw [hread] at hm
      cases hm
  | ok m =>
      have hsound := (addSections_eq_ok.mp hread).1
      cases sections.damage with
      | none => exact ⟨nofun, fun h => nomatch h.2⟩
      | some d' =>
          constructor
          · intro h
            rw [MetadataError.malformed.inj (Except.error.inj h)]
            exact ⟨hsound, rfl⟩
          · rintro ⟨-, hd⟩
            rw [Option.some.inj hd]

/-- What cannot be read ends the linking at once. -/
theorem materialise_of_error {σ : Type} {sections : Sections} {e : MetadataError}
    (h : read sections = .error e) {bytes : Bytes} {interface : Except Wasm.Malformation Wasm.Interface}
    (himage : Wasm.Image.read bytes = .ok ⟨sections, interface⟩) (resolve : Resolving σ) (handle : σ → Handle)
    (name : Identity) (origin : Origin) (s : σ) :
    Linkage.materialise resolve handle name bytes origin s = (.error (blame name e), s) := by
  have hdeclared : Linkage.declared name bytes = .error (blame name e) := by
    unfold Linkage.declared
    rw [himage]
    show (do
      let metadata ← (read sections).mapError _
      let interface ← interface.mapError _
      pure (⟨metadata, interface⟩ : Linkage.Declared)) = _
    rw [h]
    cases e <;> rfl
  unfold Linkage.materialise
  rw [hdeclared]
  rfl

/-- **The metadata are exactly what the sections say**, and the first offence is the error. -/
theorem exact_read (sections : Sections) : Exact sections where
  isOk := by
    constructor
    · rintro ⟨m, h⟩
      obtain ⟨hdamage, hsound, -⟩ := read_eq_ok.mp h
      exact ⟨hdamage, hsound⟩
    · rintro ⟨hdamage, hsound⟩
      obtain ⟨m, -, htells⟩ := hsound.addSections
      exact ⟨m, read_eq_ok.mpr ⟨hdamage, hsound, htells⟩⟩
  reads _ := read_eq_ok
  invalid _ := read_eq_invalid.trans addSections_eq_error
  malformed _ := read_eq_malformed
  unchanged m h others hdamage hperm := by
    obtain ⟨-, hsound, htells⟩ := read_eq_ok.mp h
    exact read_eq_ok.mpr ⟨hdamage, hsound.of_perm hperm, htells.of_perm hperm⟩
  first _ h _ resolve handle name _ origin s _ himage :=
    materialise_of_error h himage resolve handle name origin s

end Metadata

end LiveUnits
