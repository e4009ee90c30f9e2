import LiveUnits.Proofs.Identity.Reading
import LiveUnits.Proofs.Loader.Complete
import LiveUnits.Proofs.Text.Ascending

/-!
# What a loader lists

The identities that a loader lists are those whose artifacts its containers list
(`mem_available`).  If each container lists exactly the names that it has bytes for and never fails, then
scanning finds the listed names and no others (`Candid.scanFor`), whatever bytes there are at the time.  So
the registry tells the two kinds apart (`divided_visit`): registered names are listed, unresolvable ones
are not.
-/

namespace LiveUnits

open Attempt Linkage

/-- A suffix that is there can be dropped. -/
theorem dropSuffix?_append {α : Type} [DecidableEq α] (xs suffix : List α) :
    dropSuffix? suffix (xs ++ suffix) = some xs := by
  unfold dropSuffix?
  rw [if_pos (List.isSuffixOf_iff_suffix.mpr (List.suffix_append xs suffix)), List.length_append,
    Nat.add_sub_cancel, List.take_left]

/-- Replacing the separator of a joined list joins with the replacement. -/
theorem map_intercalate {α β : Type} (f : α → β) (sep : α) (l : List (List α)) :
    ([sep].intercalate l).map f = [f sep].intercalate (l.map (List.map f)) := by
  induction l with
  | nil => rfl
  | cons part rest ih =>
      cases rest with
      | nil => simp
      | cons next rest =>
          simp only [List.intercalate_cons_cons, List.map_append, ih, List.map_cons, List.map_nil]

/-- A list is sorted without loss of an element that is determined by its key. -/
theorem mem_sortByKey {α : Type} {key : α → String} (hkey : ∀ a b, key a = key b → a = b)
    {l : List α} {a : α} : a ∈ sortByKey key l ↔ a ∈ l := by
  constructor
  · exact mem_of_mem_sortByKey
  · intro ha
    obtain ⟨b, hb, hsame⟩ : ∃ b ∈ sortByKey key l, key b = key a := exists_mem_sortByKey ha
    rwa [hkey b a hsame] at hb

/-- A container whose lookups never fail, and find bytes exactly under the names it lists.  Which bytes
these are may change from one lookup to the next. -/
def Container.Candid (c : Container) : Prop :=
  ∃ names, c.resources = .ok names ∧ ∀ clock name, ∃ answer,
    c.lookup clock name = .ok answer ∧ (answer.isSome ↔ name ∈ names)

namespace Loader

/-! ## Artifacts -/

/-- The name of a resource is the segments with separators between them, a dot and the extension. -/
theorem resourceName_toList (n : Identity) (extension : String) :
    (n.resourceName extension).toList =
      ['/'].intercalate (n.segments.map String.toList) ++ '.' :: extension.toList := by
  rw [Identity.resourceName, String.toList_append, String.toList_append, String.toList_intercalate,
    List.append_assoc]
  rfl

/-- The separators of an artifact's name become those of the dotted name. -/
theorem dotted_segments (n : Identity) :
    (['/'].intercalate (n.segments.map String.toList)).map (fun c => if c = '/' then '.' else c) =
      n.text.toList := by
  rw [map_intercalate, List.map_map, Identity.text_toList, if_pos rfl]
  congr 1
  refine List.map_congr_left fun s hs => ?_
  have hslash : '/' ∉ s.toList := Identity.not_mem_of_isSegment (n.valid s hs) (by decide)
  refine (List.map_congr_left fun c hc => ?_).trans (List.map_id _)
  refine if_neg ?_
  rintro rfl
  exact hslash hc

/-- The name of an artifact gives back its identity. -/
theorem identityOf?_resourceName (l : Loader) (n : Identity) :
    l.identityOf? (n.resourceName l.artifactExtension) = some n := by
  unfold identityOf?
  rw [resourceName_toList, dropSuffix?_append]
  simp only [Option.bind_eq_bind, Option.bind_some, dotted_segments, String.ofList_toList,
    Identity.parse?, Identity.parse_text]
  exact if_pos rfl

/-- A listed name is the resource of the identity it is taken for. -/
theorem resourceName_of_identityOf? {l : Loader} {resource : String} {n : Identity}
    (h : l.identityOf? resource = some n) : n.resourceName l.artifactExtension = resource := by
  unfold identityOf? at h
  simp only [Option.bind_eq_bind, Option.bind_eq_some_iff] at h
  obtain ⟨stem, -, m, -, hm⟩ := h
  split at hm
  · next hname =>
    obtain rfl := Option.some.inj hm
    exact hname
  · cases hm

/-- **A name is listed exactly if a container lists its artifact.** -/
theorem mem_available {l : Loader} {n : Identity} :
    n ∈ l.available.1 ↔ ∃ c ∈ l.containers, ∃ names, c.resources = .ok names ∧
      n.resourceName l.artifactExtension ∈ names := by
  unfold available
  rw [mem_sortByKey fun _ _ => Identity.text_inj, List.mem_filterMap]
  constructor
  · rintro ⟨resource, hresource, hn⟩
    obtain ⟨listing, hlisting, hmem⟩ := List.mem_flatMap.mp hresource
    obtain ⟨c, hc, rfl⟩ := List.mem_map.mp hlisting
    cases hnames : c.resources with
    | error e => simp [hnames] at hmem
    | ok names =>
        rw [hnames] at hmem
        exact ⟨c, hc, names, hnames, resourceName_of_identityOf? hn ▸ hmem⟩
  · rintro ⟨c, hc, names, hnames, hmem⟩
    refine ⟨_, List.mem_flatMap.mpr ⟨c.resources, List.mem_map_of_mem hc, ?_⟩,
      l.identityOf?_resourceName n⟩
    rw [hnames]
    exact hmem

/-! ## Containers that list what they have -/

/-- Every container lists exactly what it has, and never fails. -/
def Candid (l : Loader) : Prop := ∀ c ∈ l.containers, c.Candid

/-- Resources in memory have the bytes of their contents. -/
theorem lookup_map_bytes (contents : List (String × Bytes)) (name : String) :
    (contents.map fun (name, bytes) => (name, Resource.bytes bytes)).lookup name =
      (contents.lookup name).map .bytes := by
  induction contents with
  | nil => rfl
  | cons entry rest ih =>
      rw [List.map_cons, List.lookup_cons, List.lookup_cons, ih]
      cases name == entry.1 <;> rfl

/-- Something is found exactly under the keys of a list. -/
theorem mem_keys_iff_lookup (contents : List (String × Bytes)) (name : String) :
    name ∈ contents.map (·.1) ↔ (contents.lookup name).isSome := by
  induction contents with
  | nil => simp
  | cons entry rest ih =>
      rw [List.map_cons, List.mem_cons, List.lookup_cons, ih]
      by_cases hname : name = entry.1
      · simp [hname]
      · simp [hname, beq_false_of_ne hname]

/-- A container in memory lists what it has. -/
theorem candid_overMemory (number : Nat) (contents : List (String × Bytes)) (host : HostUnits) :
    (overMemory number contents host).Candid := by
  intro c hc
  obtain rfl := List.mem_singleton.mp hc
  refine ⟨contents.map (·.1), ?_, fun clock name => ⟨contents.lookup name, ?_,
    (mem_keys_iff_lookup contents name).symm⟩⟩
  · simp [Medium.container, Memory.list, Function.comp_def]
  · show Memory.lookup _ name = _
    unfold Memory.lookup
    rw [lookup_map_bytes]
    cases contents.lookup name <;> simp

/-- Scanning such containers does not fail, and finds what one of them lists. -/
theorem scan_of_candid {cs : List Container} (h : ∀ c ∈ cs, c.Candid) (resource : String) (clock : Nat) :
    ∃ answer, (scan resource cs clock).1 = .ok answer ∧
      (answer.isSome ↔ ∃ c ∈ cs, ∃ names, c.resources = .ok names ∧ resource ∈ names) := by
  induction cs generalizing clock with
  | nil => exact ⟨none, rfl, by simp⟩
  | cons c rest ih =>
      obtain ⟨names, hnames, hlookups⟩ := h c List.mem_cons_self
      obtain ⟨bytes?, hlookup, hmem⟩ := hlookups clock resource
      unfold scan
      rw [hlookup]
      cases bytes? with
      | some bytes => exact ⟨_, rfl, fun _ => ⟨c, List.mem_cons_self, names, hnames, hmem.mp rfl⟩, fun _ => rfl⟩
      | none =>
          obtain ⟨answer, hanswer, hiff⟩ :=
            ih (fun d hd => h d (List.mem_cons_of_mem _ hd)) (clock + 1)
          refine ⟨answer, hanswer, fun hsome => ?_, ?_⟩
          · obtain ⟨d, hd, hlisted⟩ := hiff.mp hsome
            exact ⟨d, List.mem_cons_of_mem _ hd, hlisted⟩
          · rintro ⟨d, hd, names', hnames', hlisted⟩
            rcases List.mem_cons.mp hd with rfl | hd
            · rw [hnames] at hnames'
              obtain rfl := Except.ok.inj hnames'
              cases hmem.mpr hlisted
            · exact hiff.mpr ⟨d, hd, names', hnames', hlisted⟩

/-- **A name is listed exactly if scanning for it finds something**, at any time, and otherwise scanning
says that it is nowhere. -/
theorem Candid.scanFor {l : Loader} (h : l.Candid) (n : Identity) (clock : Nat) :
    n ∈ l.available.1 ∧ (∃ found, (l.scanFor n clock).1 = .ok (some found)) ∨
      n ∉ l.available.1 ∧ (l.scanFor n clock).1 = .ok none := by
  obtain ⟨answer, hanswer, hiff⟩ := scan_of_candid h (n.resourceName l.artifactExtension) clock
  rw [← mem_available] at hiff
  cases answer with
  | some found => exact .inl ⟨hiff.mp rfl, found, hanswer⟩
  | none => exact .inr ⟨fun hmem => Bool.false_ne_true (hiff.mpr hmem), hanswer⟩

/-- What scanning finds is listed. -/
theorem Candid.mem_available {l : Loader} (h : l.Candid) {n : Identity} {clock lookups : Nat} {found : Found}
    (hscan : l.scanFor n clock = (.ok (some found), lookups)) : n ∈ l.available.1 := by
  rcases h.scanFor n clock with ⟨hlisted, -⟩ | ⟨-, hnone⟩
  · exact hlisted
  · rw [hscan] at hnone
    cases hnone

/-- What scanning does not find is not listed. -/
theorem Candid.not_mem_available {l : Loader} (h : l.Candid) {n : Identity} {clock lookups : Nat}
    (hscan : l.scanFor n clock = (.ok none, lookups)) : n ∉ l.available.1 := by
  rcases h.scanFor n clock with ⟨-, found, hfound⟩ | ⟨hunlisted, -⟩
  · rw [hscan] at hfound
    cases hfound
  · exact hunlisted

/-! ## Listed names and the registry -/

/-- A registry tells listed names from others. -/
structure Divided (l : Loader) (r : Registry) : Prop where
  /-- Registered names are listed. -/
  listed : ∀ u ∈ r.units, u.name ∈ l.available.1
  /-- Unresolvable names are not. -/
  unlisted : ∀ n ∈ r.unresolvable, n ∉ l.available.1

/-- What resolving keeps if the containers list what they have. -/
def dividing (l : Loader) : Contract Registry where
  Inv := l.Divided
  Grows _ _ := True
  refl _ := trivial
  trans _ _ := trivial

/-- **Every resolution tells listed names from others.** -/
theorem divided_resolveAt {l : Loader} (hcandid : l.Candid) (path : List Identity) (n : Identity) :
    Meets l.dividing (fun _ => True) (l.resolveAt path n) fun _ _ => True := by
  induction path using l.byPath generalizing n with
  | step path ih =>
  intro r hr _
  have hcounted : ∀ lookups, l.Divided (r.countScan lookups) := fun _ => ⟨hr.listed, hr.unlisted⟩
  have hstep := l.resolveAt_step path n r
  generalize l.resolveAt path n r = result at hstep ⊢
  refine ⟨?_, trivial, fun _ _ => trivial⟩
  cases hstep with
  | registered _ => exact ⟨hr.listed, hr.unlisted⟩
  | delegated _ _ => exact ⟨hr.listed, hr.unlisted⟩
  | loop _ _ => exact hr
  | unreadable _ _ _ => exact hcounted _
  | absent _ _ hscan =>
      exact ⟨hr.listed, List.forall_mem_cons.mpr ⟨hcandid.not_mem_available hscan, hr.unlisted⟩⟩
  | broken _ hn hscan hfails => exact inv_linkFound (ih n _ _ _ hn hscan) (hcounted _) hfails
  | @linked _ _ u r' _ hn hscan hlinked =>
      have hr' : l.Divided r' := inv_linkFound (ih n _ _ _ hn hscan) (hcounted _) hlinked
      have hname : u.name = n := (fullyLinked_materialise (l.named_resolveAt (path ++ [n])) hlinked).1
      exact ⟨List.forall_mem_cons.mpr ⟨hname ▸ hcandid.mem_available hscan, hr'.listed⟩, hr'.unlisted⟩

theorem divided_start (l : Loader) : l.Divided {} where
  listed _ hu := (List.not_mem_nil hu).elim
  unlisted _ hn := (List.not_mem_nil hn).elim

/-- After any requests the registry tells listed names from others. -/
theorem divided_visit {l : Loader} (hcandid : l.Candid) (ns : List Identity) {r : Registry}
    (hr : l.Divided r) : l.Divided (l.visit ns r) := by
  induction ns generalizing r with
  | nil => exact hr
  | cons n rest ih => exact ih (divided_resolveAt hcandid [] n r hr trivial).1

/-- A name that is not listed is left to the host, whatever has been requested before. -/
theorem Candid.resolve_of_unlisted {l : Loader} (hcandid : l.Candid) {r : Registry} (hr : l.Divided r)
    {n : Identity} (hn : n ∉ l.available.1) : (l.resolve n r).1 = l.hostAnswer n := by
  have hstep := l.resolveAt_step [] n r
  unfold resolve
  generalize l.resolveAt [] n r = result at hstep ⊢
  cases hstep with
  | registered hu =>
      rw [← Registry.name_of_unit? hu] at hn
      exact absurd (hr.listed _ (Registry.mem_of_unit? hu)) hn
  | delegated => rfl
  | loop _ hpath => cases hpath
  | unreadable _ _ hread =>
      rcases hcandid.scanFor n r.counters.lookups with ⟨-, _, hscan⟩ | ⟨-, hscan⟩ <;>
        rw [hread] at hscan <;> cases hscan
  | absent => rfl
  | broken _ _ hscan => exact absurd (hcandid.mem_available hscan) hn
  | linked _ _ hscan => exact absurd (hcandid.mem_available hscan) hn

end Loader

end LiveUnits
