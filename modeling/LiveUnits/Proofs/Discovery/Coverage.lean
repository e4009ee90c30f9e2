import Mathlib
import LiveUnits.Proofs.Discovery
import LiveUnits.Proofs.FileSystem.Sameness

/-!
# What discovery finds

Discovery reports exactly the source files that can be reached from the root through directories that
can be opened, each as a unit or, if its path spells no identity, as an issue, and the directories that
cannot be opened (`Access.exact_discover`).  All this can be told from the tree, whatever the order in
which its directories list their entries.  So another order gives the same units and the same issues
(`Access.discover_of_alike`).
-/

namespace LiveUnits

namespace FileSystem

namespace Access

/-- A search reaches a source file through these names. -/
def SourceAt (a : Access) (s : Search) (entries : List (Name × Node)) (names : List Name) : Prop :=
  ∃ x, a.Reaches s [] (.directory entries) names x ∧
    a.isSource s (s.place names) (Path.empty.descend names) x = true

/-- A search reaches a directory through these names that cannot be opened. -/
def ClosedAt (a : Access) (s : Search) (entries : List (Name × Node)) (names : List Name) (f : Fault) :
    Prop :=
  ∃ x, a.Reaches s [] (.directory entries) names x ∧ x.isDirectory = true ∧
    a.refusal? (s.place names) = some f

/-- Findings that are what is below a root, and nothing else. -/
structure Exact (a : Access) (s : Search) (entries : List (Name × Node)) (found : Findings) : Prop where
  /-- Units are the source files whose paths spell identities. -/
  units : ∀ u, u ∈ found.units ↔ ∃ names n, a.SourceAt s entries names ∧
    Identity.ofSourcePath (Path.empty.descend names) s.extension = .ok n ∧
      u = ⟨s.place names, Path.empty.descend names, n⟩
  /-- The other source files are issues. -/
  unnamed : ∀ p e, .invalidIdentity p e ∈ found.issues ↔ ∃ names, a.SourceAt s entries names ∧
    Identity.ofSourcePath (Path.empty.descend names) s.extension = .error e ∧ p = s.place names
  /-- They are never issues for want of the extension. -/
  extended : ∀ p q, .invalidIdentity p (.wrongExtension q) ∉ found.issues
  /-- So the matched files are the source files. -/
  matched : ∀ p, p ∈ found.matched ↔ ∃ names, a.SourceAt s entries names ∧ p = s.place names
  /-- Directories that cannot be opened are issues. -/
  closed : ∀ p f, .unreadableDirectory p f ∈ found.issues ↔
    ∃ names, a.ClosedAt s entries names f ∧ p = s.place names
  /-- No two units or issues are about one path. -/
  once : (found.places.map Path.components).Nodup
  /-- Units are in the order of their paths from the root. -/
  ascending : found.units.Pairwise fun u v => u.relativePath.compare v.relativePath = .lt
  /-- No two units have one identity. -/
  identities : (found.units.map (·.identity)).Nodup
  /-- Units are found where their paths lead from the root. -/
  located : ∀ u ∈ found.units, u.path = s.root.join u.relativePath

variable {a : Access} {s : Search} {entries entries' : List (Name × Node)} {found : Findings}

/-! ## What one node adds -/

section Verdict

variable {v : List Name × Node} {p : Path}

/-- A visit finds a unit exactly at a source file whose path spells an identity. -/
theorem mem_units_verdict {u : SourceUnit} : u ∈ (a.verdict s v).units ↔
    a.isSource s (s.place v.1) (Path.empty.descend v.1) v.2 = true ∧
      ∃ n, Identity.ofSourcePath (Path.empty.descend v.1) s.extension = .ok n ∧
        u = ⟨s.place v.1, Path.empty.descend v.1, n⟩ := by
  cases hsource : a.isSource s (s.place v.1) (Path.empty.descend v.1) v.2 with
  | true => simp [verdict_of_source hsource, mem_units_claim]
  | false => simp [verdict_of_not_source hsource]

/-- A visit complains about the path of a source file exactly if that spells no identity. -/
theorem invalidIdentity_mem_verdict {e : IdentityError} :
    .invalidIdentity p e ∈ (a.verdict s v).issues ↔
      a.isSource s (s.place v.1) (Path.empty.descend v.1) v.2 = true ∧
        Identity.ofSourcePath (Path.empty.descend v.1) s.extension = .error e ∧ p = s.place v.1 := by
  cases hsource : a.isSource s (s.place v.1) (Path.empty.descend v.1) v.2 with
  | true =>
      rw [verdict_of_source hsource, mem_issues_claim]
      constructor
      · rintro ⟨e, he, ⟨⟩⟩
        exact ⟨rfl, he, rfl⟩
      · rintro ⟨-, he, rfl⟩
        exact ⟨e, he, rfl⟩
  | false =>
      rw [verdict_of_not_source hsource]
      cases v.2.isDirectory <;> simp

/-- A visit complains about a directory exactly if that cannot be opened. -/
theorem unreadableDirectory_mem_verdict {f : Fault} :
    .unreadableDirectory p f ∈ (a.verdict s v).issues ↔
      v.2.isDirectory = true ∧ a.refusal? (s.place v.1) = some f ∧ p = s.place v.1 := by
  cases hsource : a.isSource s (s.place v.1) (Path.empty.descend v.1) v.2 with
  | true =>
      rw [verdict_of_source hsource, mem_issues_claim, isDirectory_of_source hsource]
      simp
  | false =>
      rw [verdict_of_not_source hsource]
      cases v.2.isDirectory with
      | false => simp
      | true =>
          rw [if_pos rfl, Option.mem_toList, Option.map_eq_some_iff]
          constructor
          · rintro ⟨f, hf, ⟨⟩⟩
            exact ⟨rfl, hf, rfl⟩
          · rintro ⟨-, hf, rfl⟩
            exact ⟨f, hf, rfl⟩

end Verdict

/-! ## What all nodes add -/

section Gathered

variable {seen : List (List Name × Node)}

/-- A search finds exactly the units below its root. -/
theorem mem_units_gathered (htidy : (Node.directory entries).Tidy)
    (hseen : seen.Perm (a.visits s [] (.directory entries))) (u : SourceUnit) :
    u ∈ (a.gathered s seen).units ↔ ∃ names n, a.SourceAt s entries names ∧
      Identity.ofSourcePath (Path.empty.descend names) s.extension = .ok n ∧
        u = ⟨s.place names, Path.empty.descend names, n⟩ := by
  rw [gathered, List.mem_flatMap]
  constructor
  · rintro ⟨v, hv, hu⟩
    obtain ⟨hsource, n, hn, rfl⟩ := mem_units_verdict.mp hu
    exact ⟨v.1, n, ⟨v.2, (mem_seen htidy hseen).mp hv, hsource⟩, hn, rfl⟩
  · rintro ⟨names, n, ⟨x, hx, hsource⟩, hn, rfl⟩
    exact ⟨(names, x), (mem_seen htidy hseen).mpr hx, mem_units_verdict.mpr ⟨hsource, n, hn, rfl⟩⟩

/-- A search complains exactly about the source files below its root whose paths spell no identity. -/
theorem invalidIdentity_mem_gathered (htidy : (Node.directory entries).Tidy)
    (hseen : seen.Perm (a.visits s [] (.directory entries))) (p : Path) (e : IdentityError) :
    .invalidIdentity p e ∈ (a.gathered s seen).issues ↔ ∃ names, a.SourceAt s entries names ∧
      Identity.ofSourcePath (Path.empty.descend names) s.extension = .error e ∧ p = s.place names := by
  rw [gathered, List.mem_flatMap]
  constructor
  · rintro ⟨v, hv, hissue⟩
    obtain ⟨hsource, he, rfl⟩ := invalidIdentity_mem_verdict.mp hissue
    exact ⟨v.1, ⟨v.2, (mem_seen htidy hseen).mp hv, hsource⟩, he, rfl⟩
  · rintro ⟨names, ⟨x, hx, hsource⟩, he, rfl⟩
    exact ⟨(names, x), (mem_seen htidy hseen).mpr hx, invalidIdentity_mem_verdict.mpr ⟨hsource, he, rfl⟩⟩

/-- A search complains exactly about the directories below its root that cannot be opened. -/
theorem unreadableDirectory_mem_gathered (htidy : (Node.directory entries).Tidy)
    (hseen : seen.Perm (a.visits s [] (.directory entries))) (p : Path) (f : Fault) :
    .unreadableDirectory p f ∈ (a.gathered s seen).issues ↔
      ∃ names, a.ClosedAt s entries names f ∧ p = s.place names := by
  rw [gathered, List.mem_flatMap]
  constructor
  · rintro ⟨v, hv, hissue⟩
    obtain ⟨hdirectory, hf, rfl⟩ := unreadableDirectory_mem_verdict.mp hissue
    exact ⟨v.1, ⟨v.2, (mem_seen htidy hseen).mp hv, hdirectory, hf⟩, rfl⟩
  · rintro ⟨names, ⟨x, hx, hdirectory, hf⟩, rfl⟩
    exact ⟨(names, x), (mem_seen htidy hseen).mpr hx,
      unreadableDirectory_mem_verdict.mpr ⟨hdirectory, hf, rfl⟩⟩

end Gathered

/-- **A search finds exactly what is below the root.** -/
theorem exact_discover (htidy : (Node.directory entries).Tidy)
    (h : a.discover s entries = .ok found) : a.Exact s entries found := by
  have horderly := orderly_discover htidy h
  have hascending := ascending_discover htidy h
  obtain ⟨seen, hseen, rfl⟩ := exists_of_discover htidy h
  obtain ⟨hsortedUnits, hsortedIssues⟩ := (a.gathered s seen).sorted_perm
  have hunits := fun u => hsortedUnits.mem_iff.trans (mem_units_gathered htidy hseen u)
  have hunnamed := fun p e => hsortedIssues.mem_iff.trans (invalidIdentity_mem_gathered htidy hseen p e)
  refine ⟨hunits, hunnamed, fun p q hissue => ?_, fun p => ?_, fun p f =>
    hsortedIssues.mem_iff.trans (unreadableDirectory_mem_gathered htidy hseen p f), horderly.distinct,
    hascending, horderly.identities_nodup, fun u hu => ?_⟩
  · obtain ⟨names, ⟨x, -, hsource⟩, he, -⟩ := (hunnamed p _).mp hissue
    have hcarries := (Bool.and_eq_true_iff.mp hsource).2
    exact Identity.ofSourcePath_ne_wrongExtension (beq_iff_eq.mp hcarries) he
  · rw [Findings.mem_matched]
    constructor
    · rintro (⟨u, hu, rfl⟩ | ⟨e, hissue⟩)
      · obtain ⟨names, n, hsource, -, rfl⟩ := (hunits u).mp hu
        exact ⟨names, hsource, rfl⟩
      · obtain ⟨names, hsource, -, rfl⟩ := (hunnamed p e).mp hissue
        exact ⟨names, hsource, rfl⟩
    · rintro ⟨names, hsource, rfl⟩
      cases hidentity : Identity.ofSourcePath (Path.empty.descend names) s.extension with
      | ok n => exact .inl ⟨_, (hunits _).mpr ⟨names, n, hsource, hidentity, rfl⟩, rfl⟩
      | error e => exact .inr ⟨e, (hunnamed _ e).mpr ⟨names, hsource, hidentity, rfl⟩⟩
  · obtain ⟨names, n, -, -, rfl⟩ := (hunits u).mp hu
    rfl

/-! ## The order of entries -/

/-- Findings agree if the same source files and the same closed directories are reached. -/
theorem Exact.agree {f g : Findings} (h : a.Exact s entries f) (h' : a.Exact s entries' g)
    (hsource : ∀ names, a.SourceAt s entries names ↔ a.SourceAt s entries' names)
    (hclosed : ∀ names fault, a.ClosedAt s entries names fault ↔ a.ClosedAt s entries' names fault) :
    f.units = g.units ∧ f.issues.Perm g.issues := by
  have hunits (u : SourceUnit) : u ∈ f.units ↔ u ∈ g.units := by
    rw [h.units, h'.units]
    simp only [hsource]
  have hissues (issue : DiscoveryIssue) : issue ∈ f.issues ↔ issue ∈ g.issues := by
    cases issue with
    | invalidIdentity p e =>
        rw [h.unnamed, h'.unnamed]
        simp only [hsource]
    | unreadableDirectory p fault =>
        rw [h.closed, h'.closed]
        simp only [hclosed]
  have hnodup {f : Findings} (hidentities : (f.units.map (·.identity)).Nodup)
      (honce : (f.places.map Path.components).Nodup) : f.units.Nodup ∧ f.issues.Nodup :=
    ⟨hidentities.of_map, honce.of_map.of_append_right.of_map⟩
  obtain ⟨hf, hf'⟩ := hnodup h.identities h.once
  obtain ⟨hg, hg'⟩ := hnodup h'.identities h'.once
  -- the paths of the units ascend in both, so there is one order for them
  exact ⟨Path.eq_of_perm ((List.perm_ext_iff_of_nodup hf hg).mpr hunits) h.ascending h'.ascending,
    (List.perm_ext_iff_of_nodup hf' hg').mpr hissues⟩

/-- What is reached in a tree is reached in any tree that looks the same. -/
theorem Reaches.of_alike {names more : List Name} {x x' y : Node} (h : a.Reaches s names x more y)
    (halike : x.Alike x') : ∃ y', a.Reaches s names x' more y' ∧ y.Alike y' := by
  have hnode := halike.get? more
  rw [h.node] at hnode
  generalize hy : x'.get? more = z at hnode
  cases hnode with
  | some hyy' => exact ⟨_, ⟨hy, h.opened⟩, hyy'⟩

/-- Source files are at the same places in trees that look the same. -/
theorem SourceAt.of_alike {names : List Name} (h : a.SourceAt s entries names)
    (halike : (Node.directory entries).Alike (.directory entries')) : a.SourceAt s entries' names := by
  obtain ⟨x, hx, hsource⟩ := h
  obtain ⟨y, hy, hxy⟩ := hx.of_alike halike
  refine ⟨y, hy, ?_⟩
  rw [isSource, hxy.isFile_eq, hxy.isLink_eq]
  exact hsource

/-- Directories that cannot be opened are at the same places as well. -/
theorem ClosedAt.of_alike {names : List Name} {f : Fault} (h : a.ClosedAt s entries names f)
    (halike : (Node.directory entries).Alike (.directory entries')) : a.ClosedAt s entries' names f := by
  obtain ⟨x, hx, hdirectory, hf⟩ := h
  obtain ⟨y, hy, hxy⟩ := hx.of_alike halike
  exact ⟨y, hy, hxy.isDirectory_eq.trans hdirectory, hf⟩

/-- **A search finds the same units**, and the same issues in some order, whatever the order in which
directories list their entries. -/
theorem discover_of_alike (a : Access) (s : Search)
    (h : (Node.directory entries).Alike (.directory entries')) (htidy : (Node.directory entries).Tidy)
    (htidy' : (Node.directory entries').Tidy) :
    Agree (fun f g => f.units = g.units ∧ f.issues.Perm g.issues) (a.discover s entries)
      (a.discover s entries') := by
  cases hrefusal : a.refusal? (s.place []) with
  | some f =>
      rw [(discover_eq_error htidy).mpr hrefusal, (discover_eq_error htidy').mpr hrefusal]
      exact .error f
  | none =>
      obtain ⟨seen, -, hfound⟩ := discover_of_opened htidy hrefusal
      obtain ⟨seen', -, hfound'⟩ := discover_of_opened htidy' hrefusal
      have hagree := (exact_discover htidy hfound).agree (exact_discover htidy' hfound')
        (fun names => ⟨fun hx => hx.of_alike h, fun hx => hx.of_alike h.symm⟩)
        fun names f => ⟨fun hx => hx.of_alike h, fun hx => hx.of_alike h.symm⟩
      rw [hfound, hfound']
      exact .ok hagree

/-! ## Everything -/

/-- Searches of a root that are right, whatever the operating system refuses to open. -/
structure Thorough (a : Access) (s : Search) (entries : List (Name × Node)) : Prop where
  /-- A search fails only if the root cannot be opened. -/
  fails : ∀ f, a.discover s entries = .error f ↔ a.refusal? (s.root.join .empty) = some f
  /-- Otherwise it finds exactly what is below the root. -/
  finds : a.refusal? (s.root.join .empty) = none →
    ∃ found, a.discover s entries = .ok found ∧ a.Exact s entries found
  /-- The order in which directories list their entries makes no difference but for the order of issues. -/
  steady : ∀ entries', (Node.directory entries').Tidy →
    (Node.directory entries).Alike (.directory entries') →
      Agree (fun f g => f.units = g.units ∧ f.issues.Perm g.issues) (a.discover s entries)
        (a.discover s entries')

/-- **Discovery is thorough.** -/
theorem thorough_discover (a : Access) (s : Search) (htidy : (Node.directory entries).Tidy) :
    a.Thorough s entries where
  fails _ := discover_eq_error htidy
  finds hrefusal := by
    obtain ⟨seen, -, hfound⟩ := discover_of_opened htidy hrefusal
    exact ⟨_, hfound, exact_discover htidy hfound⟩
  steady _ htidy' halike := a.discover_of_alike s halike htidy htidy'

namespace Guarded

/-- A search of the working directory. -/
def search : Search := ⟨⟨[fullStop]⟩, "src"⟩

/-- A source file, a link to it, a file whose name is no text, and a directory with another source
file. -/
def tree : List (Name × Node) :=
  [(Utf8.encode "locked", .directory [(Utf8.encode "Bar.src", .file [])]),
    (Utf8.encode "Link.src", .link ⟨Utf8.encode "Base.src"⟩),
    (0xFF :: Utf8.encode ".src", .file []),
    (Utf8.encode "Base.src", .file [])]

/-- The directory cannot be opened. -/
def access : Access where
  refusal? p := if p = search.place [Utf8.encode "locked"] then some .denied else none
  isFile p := p = search.place [Utf8.encode "Link.src"]

theorem tidy_tree : (Node.directory tree).Tidy := by
  have hbelow : (Node.directory [(Utf8.encode "Bar.src", .file [])]).Tidy :=
    .singleton ⟨by decide, by decide, by decide, by decide⟩ (.file [])
  refine .directory ?_ (by decide) ?_
  · simp only [tree, List.forall_mem_cons]
    exact ⟨⟨by decide, by decide, by decide, by decide⟩, ⟨by decide, by decide, by decide, by decide⟩,
      ⟨by decide, by decide, by decide, by decide⟩, ⟨by decide, by decide, by decide, by decide⟩, nofun⟩
  · simp only [tree, List.forall_mem_cons]
    exact ⟨hbelow, .link _, .file _, .file _, nofun⟩

/-- What the source file is found as. -/
def base : SourceUnit :=
  ⟨search.place [Utf8.encode "Base.src"], .ofString "Base.src", ⟨["Base"], by decide, by decide⟩⟩

/-- What the link to it is found as. -/
def link : SourceUnit :=
  ⟨search.place [Utf8.encode "Link.src"], .ofString "Link.src", ⟨["Link"], by decide, by decide⟩⟩

/-- The issue with the file whose name is no text. -/
def nameless : DiscoveryIssue :=
  .invalidIdentity (search.place [0xFF :: Utf8.encode ".src"]) (.invalidSegment "\uFFFD.src" "\uFFFD")

/-- The issue with the directory. -/
def locked : DiscoveryIssue := .unreadableDirectory (search.place [Utf8.encode "locked"]) .denied

/-- The search comes by the link before the file, and finds nothing in the directory. -/
theorem discover_tree : access.discover search tree = .ok ⟨[base, link], [nameless, locked]⟩ := by
  have hopened : access.refusal? (search.root.join .empty) = none := by decide
  have hread : access.read search .empty tree ⟨[], {}⟩ =
      ⟨[(Path.empty.joinBytes (Utf8.encode "locked"), [(Utf8.encode "Bar.src", .file [])])],
        ⟨[link, base], [nameless]⟩⟩ := by cbv
  have hrefused : access.refusal? (search.root.join (Path.empty.joinBytes (Utf8.encode "locked"))) =
      some .denied := by decide
  have hsorted : (Findings.mk [link, base] [nameless, locked]).sorted =
      ⟨[base, link], [nameless, locked]⟩ := by
    have horder : (link.relativePath.compare base.relativePath != .gt) = false := by decide
    simp [Findings.sorted, List.mergeSort, horder]
  rw [discover, walk]
  simp only [hopened]
  rw [hread, walk]
  simp only [hrefused]
  rw [if_neg Bool.false_ne_true, walk]
  exact congrArg Except.ok hsorted

/-- **Two units and two issues** are found, and that is exactly what is there. -/
theorem thorough_discover_guarded :
    (Node.directory tree).Tidy ∧ access.Thorough search tree ∧
      access.discover search tree = .ok ⟨[base, link], [nameless, locked]⟩ ∧
      access.Exact search tree ⟨[base, link], [nameless, locked]⟩ := by
  have hthorough := thorough_discover access search tidy_tree
  obtain ⟨found, hfound, hexact⟩ := hthorough.finds (by decide)
  obtain rfl := Except.ok.inj (hfound.symm.trans discover_tree)
  exact ⟨tidy_tree, hthorough, hfound, hexact⟩

end Guarded

end Access

/-- **Discovery in a file system** finds exactly what is below the source root. -/
theorem exact_of_discover {fs : FileSystem} (htidy : fs.root.Tidy) {root : Path} {extension : String}
    {found : Findings} (h : fs.discover root extension = .ok found) :
    ∃ entries, fs.list (root.join .empty) = .ok entries ∧
      fs.access.Exact ⟨root, extension⟩ entries found := by
  obtain ⟨entries, hlist, hentries, hfound⟩ := search_of_discover htidy h
  exact ⟨entries, hlist, Access.exact_discover hentries hfound⟩

end FileSystem

end LiveUnits
