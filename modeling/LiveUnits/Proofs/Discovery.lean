import LiveUnits.Proofs.Discovery.Walk
import LiveUnits.Proofs.FileSystem.Walk
import LiveUnits.Proofs.Identity.Source
import LiveUnits.Proofs.Path.Order

/-!
# What discovery matches

A file with the source extension is matched: it becomes a source unit, or an issue if its path spells
no identity.  In a tidy tree every path is reported at most once, in a unit or an issue, and no two units
have one identity (`FileSystem.orderly_discover`): a search comes by every node once, each adds one unit
or issue at most, and the names on the way to it can be read off its identity.

Units are found in the order of their paths from the root.  So a unit in a namespace comes before the
unit that has the name of the namespace (`FileSystem.pairwise_segments_discover`).
-/

namespace LiveUnits

/-- The path that an issue is about. -/
def DiscoveryIssue.path : DiscoveryIssue → Path
  | .invalidIdentity path _ => path
  | .unreadableDirectory path _ => path

/-- The matched file that an issue is about, if it is about one. -/
def DiscoveryIssue.matched? : DiscoveryIssue → Option Path
  | .invalidIdentity path _ => some path
  | .unreadableDirectory _ _ => none

namespace Findings

variable {f g : Findings}

/-- The paths of all matched files. -/
def matched (f : Findings) : List Path :=
  f.units.map (·.path) ++ f.issues.filterMap DiscoveryIssue.matched?

/-- A file is matched that a unit comes from, or an issue about what its path spells. -/
theorem mem_matched {p : Path} :
    p ∈ f.matched ↔ (∃ u ∈ f.units, u.path = p) ∨ ∃ e, .invalidIdentity p e ∈ f.issues := by
  rw [matched, List.mem_append, List.mem_map, List.mem_filterMap]
  refine or_congr_right ⟨?_, fun ⟨e, he⟩ => ⟨_, he, rfl⟩⟩
  rintro ⟨issue, hissue, hpath⟩
  cases issue with
  | invalidIdentity path error =>
      obtain rfl := Option.some.inj hpath
      exact ⟨error, hissue⟩
  | unreadableDirectory path fault => cases hpath

/-- The paths of all units and issues. -/
def places (f : Findings) : List Path := f.units.map (·.path) ++ f.issues.map DiscoveryIssue.path

/-- Matched files are among the places of findings, in the same order. -/
theorem matched_sublist (f : Findings) : f.matched.Sublist f.places := by
  refine (List.Sublist.refl _).append ?_
  induction f.issues with
  | nil => exact .refl _
  | cons issue rest ih =>
      cases issue with
      | invalidIdentity path error => exact ih.cons_cons path
      | unreadableDirectory path fault => exact ih.cons path

/-- The same was found, in another order. -/
structure Perm (f g : Findings) : Prop where
  units : f.units.Perm g.units
  issues : f.issues.Perm g.issues

/-- Findings that are the same up to order have the same places. -/
theorem Perm.places (h : f.Perm g) : f.places.Perm g.places :=
  (h.units.map _).append (h.issues.map _)

/-- Sorting only puts units in another order. -/
theorem sorted_perm (f : Findings) : f.sorted.Perm f := ⟨List.mergeSort_perm _ _, .refl _⟩

end Findings

namespace FileSystem

/-- A unit that was found through plain names below the root. -/
def Search.Finds (s : Search) (u : SourceUnit) : Prop :=
  ∃ names, names ≠ [] ∧ (∀ n ∈ names, PlainName n) ∧ u.relativePath = Path.empty.descend names ∧
    u.path = s.root.descend names ∧ Identity.ofSourcePath u.relativePath s.extension = .ok u.identity

/-- Findings of which no two are about one path. -/
structure Search.Orderly (s : Search) (f : Findings) : Prop where
  /-- The paths of units and issues differ in their components. -/
  distinct : (f.places.map Path.components).Nodup
  /-- Units have the identities that their paths spell. -/
  identified : ∀ u ∈ f.units, s.Finds u

variable {a : Access} {s : Search} {f g : Findings} {entries : List (Name × Node)} {found : Findings}

/-- **No file is matched twice.** -/
theorem Search.Orderly.matched_nodup (h : s.Orderly f) : (f.matched.map Path.components).Nodup :=
  h.distinct.sublist (f.matched_sublist.map _)

/-- Being orderly does not depend on the order of findings. -/
theorem Search.Orderly.of_perm (h : s.Orderly f) (hperm : g.Perm f) : s.Orderly g :=
  ⟨(hperm.places.map _).nodup_iff.mpr h.distinct, fun u hu => h.identified u (hperm.units.mem_iff.mp hu)⟩

/-- Different names below one path lead to different paths. -/
theorem descend_inj {p : Path} {names names' : List Name} (h : ∀ n ∈ names, PlainName n)
    (h' : ∀ n ∈ names', PlainName n)
    (hsame : (p.descend names).components = (p.descend names').components) : names = names' := by
  rw [p.components_descend h, p.components_descend h'] at hsame
  refine List.map_injective_iff.mpr (fun a b hab => ?_) (List.append_cancel_left hsame)
  exact Path.Component.name.inj hab

/-! ## What a node adds -/

/-- A claim makes a unit if its path spells an identity. -/
theorem mem_units_claim {path relative : Path} {u : SourceUnit} : u ∈ (s.claim path relative).units ↔
    ∃ n, Identity.ofSourcePath relative s.extension = .ok n ∧ u = ⟨path, relative, n⟩ := by
  unfold Search.claim
  cases Identity.ofSourcePath relative s.extension with
  | ok n => simp
  | error e => simp

/-- Otherwise it makes an issue. -/
theorem mem_issues_claim {path relative : Path} {issue : DiscoveryIssue} :
    issue ∈ (s.claim path relative).issues ↔
      ∃ e, Identity.ofSourcePath relative s.extension = .error e ∧ issue = .invalidIdentity path e := by
  unfold Search.claim
  cases Identity.ofSourcePath relative s.extension with
  | ok n => simp
  | error e => simp

namespace Access

variable {v : List Name × Node}

/-- A source file is no directory. -/
theorem isDirectory_of_source {path relative : Path} {x : Node} (h : a.isSource s path relative x = true) :
    x.isDirectory = false := by
  cases x with
  | directory entries => cases h
  | file contents => rfl
  | link target => rfl

/-- A source file is claimed when the search comes by. -/
theorem verdict_of_source (h : a.isSource s (s.place v.1) (Path.empty.descend v.1) v.2 = true) :
    a.verdict s v = s.claim (s.place v.1) (Path.empty.descend v.1) := by
  rw [verdict, if_neg (by simp [isDirectory_of_source h]), if_pos h]

/-- A node that is no source file is an issue if it is a directory that cannot be opened. -/
theorem verdict_of_not_source (h : a.isSource s (s.place v.1) (Path.empty.descend v.1) v.2 = false) :
    a.verdict s v = ⟨[], if v.2.isDirectory then
      ((a.refusal? (s.place v.1)).map (.unreadableDirectory (s.place v.1))).toList else []⟩ := by
  unfold verdict
  rw [h]
  split
  · cases a.refusal? (s.place v.1) <;> rfl
  · rfl

/-- A node adds one unit or one issue at most, of the path that leads to it. -/
theorem places_verdict (a : Access) (s : Search) (v : List Name × Node) :
    (a.verdict s v).places.Sublist [s.place v.1] := by
  cases hsource : a.isSource s (s.place v.1) (Path.empty.descend v.1) v.2 with
  | true =>
      rw [verdict_of_source hsource]
      unfold Search.claim
      cases Identity.ofSourcePath (Path.empty.descend v.1) s.extension with
      | ok n => exact .refl _
      | error e => exact .refl _
  | false =>
      rw [verdict_of_not_source hsource]
      split
      · cases a.refusal? (s.place v.1) with
        | none => exact List.nil_sublist _
        | some f => exact .refl _
      · exact List.nil_sublist _

/-- The paths that nodes add, one after the other. -/
theorem places_gathered (vs : List (List Name × Node)) :
    (a.gathered s vs).places.Perm (vs.flatMap fun v => (a.verdict s v).places) := by
  induction vs with
  | nil => exact .refl _
  | cons v rest ih =>
      have hfirst : (a.gathered s (v :: rest)).places =
          ((a.verdict s v).units.map (·.path) ++ (a.gathered s rest).units.map (·.path)) ++
            ((a.verdict s v).issues.map DiscoveryIssue.path ++
              (a.gathered s rest).issues.map DiscoveryIssue.path) := by
        simp [Findings.places, gathered]
      rw [hfirst, List.flatMap_cons]
      refine List.Perm.trans ?_ (ih.append_left _)
      simp only [Findings.places, List.append_assoc]
      exact (List.perm_append_comm_assoc _ _ _).append_left _

/-- **What is found by coming by every node once** is about different paths. -/
theorem orderly_gathered (htidy : (Node.directory entries).Tidy) {seen : List (List Name × Node)}
    (hseen : seen.Perm (a.visits s [] (.directory entries))) : s.Orderly (a.gathered s seen) := by
  have hreaches {v : List Name × Node} (hv : v ∈ seen) : a.Reaches s [] (.directory entries) v.1 v.2 :=
    (mem_seen htidy hseen).mp hv
  have hplain {v : List Name × Node} (hv : v ∈ seen) : ∀ n ∈ v.1, PlainName n :=
    (htidy.of_get? (hreaches hv).node).1
  constructor
  · rw [((places_gathered seen).map _).nodup_iff, List.map_flatMap, List.nodup_flatMap]
    have hcomponents {v : List Name × Node} {cs : List Path.Component}
        (hcs : cs ∈ (a.verdict s v).places.map Path.components) : cs = (s.place v.1).components := by
      obtain ⟨p, hp, rfl⟩ := List.mem_map.mp hcs
      rw [List.mem_singleton.mp ((a.places_verdict s v).subset hp)]
    refine ⟨fun v _ => ?_, ?_⟩
    · exact (List.nodup_singleton _).sublist ((a.places_verdict s v).map _)
    · have hnames := ((hseen.map (·.1)).nodup_iff.mpr (nodup_visits htidy []))
      refine (List.pairwise_map.mp hnames).imp_of_mem fun {v w} hv hw hne cs hcs hcs' => hne ?_
      have hsame := (hcomponents hcs).symm.trans (hcomponents hcs')
      rw [Search.place, Search.place, s.root.components_join_descend (hplain hv),
        s.root.components_join_descend (hplain hw), ← s.root.components_descend (hplain hv),
        ← s.root.components_descend (hplain hw)] at hsame
      exact descend_inj (hplain hv) (hplain hw) hsame
  · intro u hu
    obtain ⟨v, hv, hu⟩ := List.mem_flatMap.mp hu
    cases hsource : a.isSource s (s.place v.1) (Path.empty.descend v.1) v.2 with
    | false =>
        rw [verdict_of_not_source hsource] at hu
        cases hu
    | true =>
        rw [verdict_of_source hsource, mem_units_claim] at hu
        obtain ⟨n, hn, rfl⟩ := hu
        have hne : v.1 ≠ [] := by
          intro hroot
          have hnode := (hreaches hv).node
          rw [hroot] at hnode
          rw [← Option.some.inj hnode] at hsource
          cases hsource
        exact ⟨v.1, hne, hplain hv, rfl, s.root.join_descend (hplain hv) hne, hn⟩

end Access

/-- Matched units have different identities. -/
theorem Search.Orderly.identities_nodup (h : s.Orderly f) : (f.units.map (·.identity)).Nodup := by
  have hpaths : (f.units.map fun u => u.path.components).Nodup := by
    have hdistinct := h.distinct
    unfold Findings.places at hdistinct
    rw [List.map_append, List.map_map] at hdistinct
    exact hdistinct.of_append_left
  refine List.Nodup.map_on (fun u hu v hv hsame => ?_) hpaths.of_map
  obtain ⟨names, -, hplain, hrelative, hpath, hidentity⟩ := h.identified u hu
  obtain ⟨names', -, hplain', hrelative', hpath', hidentity'⟩ := h.identified v hv
  rw [hrelative, hsame] at hidentity
  rw [hrelative'] at hidentity'
  obtain rfl := Identity.names_inj hplain hplain' hidentity hidentity'
  refine List.inj_on_of_nodup_map hpaths hu hv ?_
  rw [hpath, hpath']

/-- **A search reports every path and every identity at most once.** -/
theorem Access.orderly_discover (htidy : (Node.directory entries).Tidy)
    (h : a.discover s entries = .ok found) : s.Orderly found := by
  obtain ⟨seen, hseen, rfl⟩ := exists_of_discover htidy h
  exact (orderly_gathered htidy hseen).of_perm (Findings.sorted_perm _)

/-- Discovery searches the tidy entries of the root. -/
theorem search_of_discover {fs : FileSystem} (htidy : fs.root.Tidy) {root : Path} {extension : String}
    (h : fs.discover root extension = .ok found) :
    ∃ entries, fs.list (root.join .empty) = .ok entries ∧ (Node.directory entries).Tidy ∧
      fs.access.discover ⟨root, extension⟩ entries = .ok found := by
  unfold discover at h
  obtain ⟨entries, hlist, hfound⟩ := Identity.exists_of_bind h
  exact ⟨entries, hlist, tidy_of_list htidy hlist, hfound⟩

/-- **Discovery reports every path and every identity at most once.** -/
theorem orderly_discover {fs : FileSystem} (htidy : fs.root.Tidy) {root : Path} {extension : String}
    (h : fs.discover root extension = .ok found) : Search.Orderly ⟨root, extension⟩ found := by
  obtain ⟨entries, -, hentries, hfound⟩ := search_of_discover htidy h
  exact Access.orderly_discover hentries hfound

/-! ## The order of units -/

/-- Matched units have different paths from the root. -/
theorem Search.Orderly.relative_nodup (h : s.Orderly f) :
    (f.units.map fun u => u.relativePath.components).Nodup := by
  refine List.Nodup.map_on (fun u hu v hv hsame => ?_) h.identities_nodup.of_map
  obtain ⟨names, -, hplain, hrelative, -, hidentity⟩ := h.identified u hu
  obtain ⟨names', -, hplain', hrelative', -, hidentity'⟩ := h.identified v hv
  rw [hrelative, hrelative'] at hsame
  obtain rfl := descend_inj hplain hplain' hsame
  refine List.inj_on_of_nodup_map h.identities_nodup hu hv ?_
  rw [hrelative] at hidentity
  rw [hrelative'] at hidentity'
  exact Except.ok.inj (hidentity.symm.trans hidentity')

/-- A unit in a namespace comes before the unit that has the name of the namespace: its path goes through
the bare name, which the path of the other one continues with a dot. -/
theorem Search.Finds.not_prefix_segments {u v : SourceUnit} (hu : s.Finds u) (hv : s.Finds v)
    (h : u.relativePath.compare v.relativePath = .lt) :
    ¬ u.identity.segments <+: v.identity.segments := by
  obtain ⟨names, -, hplain, hrelative, -, hidentity⟩ := hu
  obtain ⟨names', -, hplain', hrelative', -, hidentity'⟩ := hv
  rw [hrelative] at hidentity h
  rw [hrelative'] at hidentity' h
  obtain ⟨front, last, hsegments, hnames⟩ := Identity.names_of_ofSourcePath hplain hidentity
  obtain ⟨front', last', hsegments', hnames'⟩ := Identity.names_of_ofSourcePath hplain' hidentity'
  unfold Path.compare at h
  rw [Path.components_descend _ hplain, Path.components_descend _ hplain',
    Path.compareComponents_append_left] at h
  rw [hsegments, hsegments']
  intro hbegins
  rcases List.prefix_concat_iff.mp hbegins with hsame | ⟨more, hmore⟩
  · obtain ⟨rfl, hlast⟩ := List.append_inj' hsame rfl
    obtain rfl := List.singleton_inj.mp hlast
    have hself (cs : List Path.Component) : Path.compareComponents cs cs = .eq :=
      Std.ReflCmp.compare_self
    rw [hnames, hnames', hself] at h
    cases h
  · rw [hnames, hnames', ← hmore] at h
    simp only [List.map_append, List.map_cons, List.map_nil, List.append_assoc,
      Path.compareComponents_append_left, List.cons_append, List.nil_append] at h
    rw [Path.compareComponents, Path.Component.compare, Path.compare_append_cons] at h
    cases h

/-- A search gives units in the order of their paths from the root. -/
theorem Access.ascending_discover (htidy : (Node.directory entries).Tidy)
    (h : a.discover s entries = .ok found) :
    found.units.Pairwise fun u v => u.relativePath.compare v.relativePath = .lt := by
  obtain ⟨seen, hseen, rfl⟩ := exists_of_discover htidy h
  exact Path.pairwise_mergeSort (orderly_gathered htidy hseen).relative_nodup

/-- Units are found in the order of their paths from the root. -/
theorem ascending_discover {fs : FileSystem} (htidy : fs.root.Tidy) {root : Path} {extension : String}
    {found : Findings} (h : fs.discover root extension = .ok found) :
    found.units.Pairwise fun u v => u.relativePath.compare v.relativePath = .lt := by
  obtain ⟨entries, -, hentries, hfound⟩ := search_of_discover htidy h
  exact Access.ascending_discover hentries hfound

/-- **A namespace comes before the unit that has its name.** -/
theorem pairwise_segments_discover {fs : FileSystem} (htidy : fs.root.Tidy) {root : Path}
    {extension : String} {found : Findings} (h : fs.discover root extension = .ok found) :
    found.units.Pairwise fun u v => ¬ u.identity.segments <+: v.identity.segments := by
  have horderly := orderly_discover htidy h
  exact (ascending_discover htidy h).imp_of_mem fun hu hv =>
    (horderly.identified _ hu).not_prefix_segments (horderly.identified _ hv)

end FileSystem

end LiveUnits
