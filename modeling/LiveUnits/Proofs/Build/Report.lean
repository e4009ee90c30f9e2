import LiveUnits.Build.Basic
import LiveUnits.Proofs.Catalog.Agreement
import LiveUnits.Proofs.Discovery
import LiveUnits.Proofs.Path.Order

/-!
# What a finished build reports

A matched file goes through the compiler, through linking, and through three sorted lists.  Each step
divides what it is given and loses nothing: the compiler (`Build.perm_outcomes`), linking
(`Build.link_accounts`), and sorting, since no two files have the same path or spell the same identity.
So a finished build accounts for every matched file (`Build.accounts_finish`).

A unit that could not be linked once can never be linked, so it is not registered when the catalog
asks for it again; what is left under its name is at most a host unit (`Build.get?_failed`).
-/

namespace LiveUnits

namespace Build

/-! ## Compiling -/

section Outcomes

variable {σ : Type} {c : Compiler σ} {b : Build}

/-- Every unit has an outcome. -/
theorem units_of_compileAll {units : List SourceUnit} {site site' : Site σ}
    {outcomes : List (SourceUnit × Option CompileError)}
    (h : b.compileAll c units site = (.ok outcomes, site')) : outcomes.map (·.1) = units := by
  induction units generalizing site site' outcomes with
  | nil =>
      obtain ⟨houtcomes, -⟩ := Prod.mk.inj h
      obtain rfl := Except.ok.inj houtcomes
      rfl
  | cons u rest ih =>
      obtain ⟨outcome, between, -, hbind⟩ := Attempt.ok_of_bind h
      obtain ⟨others, last, hothers, hend⟩ := Attempt.ok_of_bind hbind
      obtain rfl := Except.ok.inj (Prod.mk.inj hend).1
      rw [List.map_cons, ih hothers]

/-- A unit is compiled or rejected. -/
theorem perm_outcomes (outcomes : List (SourceUnit × Option CompileError)) :
    ((compiledUnits outcomes).map (·.path) ++ (rejected outcomes).map (·.path)).Perm
      (outcomes.map (·.1.path)) := by
  induction outcomes with
  | nil => exact .refl _
  | cons outcome rest ih =>
      obtain ⟨u, error⟩ := outcome
      cases error with
      | none => exact ih.cons u.path
      | some e => exact List.perm_middle.trans (ih.cons u.path)

/-- The compiled units are in the order of the calls. -/
theorem sublist_compiledUnits (outcomes : List (SourceUnit × Option CompileError)) :
    (compiledUnits outcomes).Sublist (outcomes.map (·.1)) :=
  List.filter_sublist.map _

/-- A file is refused for every issue about the spelling of its path. -/
theorem paths_refused (issues : List DiscoveryIssue) :
    (refused issues).map (·.path) = issues.filterMap DiscoveryIssue.matched? := by
  induction issues with
  | nil => rfl
  | cons issue rest ih =>
      cases issue with
      | invalidIdentity path error => exact congrArg (path :: ·) ih
      | unreadableDirectory path fault => exact ih

end Outcomes

/-! ## Linking -/

section Linking

variable {l : Loader}

/-- Resolving fails with the error that a fresh loader gives. -/
theorem error_of_resolve (hsteady : l.Steady) {r : Registry} (hr : l.Reliable [] r) {n : Identity}
    {e : ResolveError} (h : (l.resolve n r).1 = .error e) : l.resolveAfresh [] n = .error e :=
  Loader.error_of_map_shape (hr.resolve_eq hsteady n).symm h

/-- **Linking loses no unit**: each becomes an entry of its name or a failure, and what failed fails
always. -/
theorem link_accounts (hsteady : l.Steady) {units : List SourceUnit} {r r' : Registry}
    (hr : l.Reliable [] r) {entries : List CatalogEntry} {failures : List LinkFailure}
    (h : link l units r = ((entries, failures), r')) :
    l.Reliable [] r' ∧
      ((entries.map fun e => (e.name, e.sourceFile)) ++
        failures.map fun f => (f.identity, some f.sourceFile)).Perm
          (units.map fun u => (u.identity, some u.path)) ∧
      ∀ f ∈ failures, ∃ e, l.resolveAfresh [] f.identity = .error e := by
  induction units generalizing r r' entries failures with
  | nil =>
      obtain ⟨hlists, rfl⟩ := Prod.mk.inj h
      obtain ⟨rfl, rfl⟩ := Prod.mk.inj hlists
      exact ⟨hr, .refl _, fun f hf => (List.not_mem_nil hf).elim⟩
  | cons u rest ih =>
      have hafter : l.Reliable [] (l.resolve u.identity r).2 :=
        Loader.reliable_visit hsteady [u.identity] hr
      have hname := (Loader.closed_resolve hr.1.1 u.identity).2.2
      have herror := fun e => error_of_resolve (e := e) hsteady hr (n := u.identity)
      unfold link at h
      -- the outcome of the first request decides which list the unit goes to
      generalize l.resolve u.identity r = result at hafter hname herror h
      obtain ⟨outcome, between⟩ := result
      cases hrest : link l rest between with
      | mk lists last =>
          obtain ⟨others, failed⟩ := lists
          obtain ⟨hlast, hperm, hfails⟩ := ih hafter hrest
          cases outcome with
          | ok v =>
              simp only [hrest] at h
              obtain ⟨hlists, rfl⟩ := Prod.mk.inj h
              obtain ⟨rfl, rfl⟩ := Prod.mk.inj hlists
              have hv : v.name = u.identity := (hname v rfl).name_eq
              refine ⟨hlast, ?_, hfails⟩
              show ((v.name, some u.path) :: _).Perm ((u.identity, some u.path) :: _)
              rw [hv]
              exact hperm.cons (u.identity, some u.path)
          | error e =>
              simp only [hrest] at h
              obtain ⟨hlists, rfl⟩ := Prod.mk.inj h
              obtain ⟨rfl, rfl⟩ := Prod.mk.inj hlists
              refine ⟨hlast, List.perm_middle.trans (hperm.cons (u.identity, some u.path)), ?_⟩
              exact List.forall_mem_cons.mpr ⟨⟨e, herror e rfl⟩, hfails⟩

/-- Containers made from media answer the same at any time. -/
theorem steady_session (s : Session) (fs : FileSystem) : (s.loader fs).Steady := by
  intro container hcontainer clock name
  obtain ⟨m, -, rfl⟩ := List.mem_map.mp hcontainer
  cases m with
  | directory root => rfl
  | archive path contents down => cases down <;> rfl
  | memory contents => rfl

/-- A name that cannot be resolved is never registered. -/
theorem unit?_eq_none_of_error (hsteady : l.Steady) {r : Registry} (hr : l.Reliable [] r)
    {n : Identity} {e : ResolveError} (h : l.resolveAfresh [] n = .error e) :
    r.unit? n.text = none := by
  cases hu : r.unit? n.text with
  | none => rfl
  | some u =>
      have hanswer : l.Answers n u r := .inl ⟨Registry.mem_of_unit? hu, Registry.name_of_unit? hu⟩
      have hsame := hr.resolve_eq hsteady n
      rw [hr.1.1.resolve_of_answers hanswer, h] at hsame
      cases hsame

end Linking

/-! ## Sorting -/

/-- If one of two lists has everything that both have together, and nothing twice, the other one is
empty. -/
theorem mem_left_of_perm {α : Type} {xs ys zs : List α} (hperm : (xs ++ ys).Perm zs) (hnodup : zs.Nodup)
    (hall : ∀ a ∈ zs, a ∈ xs) : ys = [] := by
  rw [List.eq_nil_iff_forall_not_mem]
  intro a ha
  have hdisjoint := (List.nodup_append'.mp (hperm.nodup_iff.mpr hnodup)).2.2
  exact hdisjoint (hall a (hperm.mem_iff.mp (List.mem_append_right xs ha))) ha

end Build

/-- A finished build accounts for what discovery matched. -/
structure Generation.Accounts (g : Generation) (b : Build) (found : Findings) : Prop where
  /-- The source files of the compiled units, the failed sources and the sources of the failed links
  are the matched files. -/
  complete : (g.catalog.compiled.map (fun e => g.catalog.sourceFileOf e.text) ++
    (g.failedSources.map (fun f => some f.path) ++
      g.failedLinks.map fun f => some f.sourceFile)).Perm (found.matched.map some)
  /-- Every one occurs once. -/
  distinct : found.matched.Nodup
  /-- Compiled units have different names. -/
  names : (g.catalog.compiled.map (·.name)).Nodup
  /-- The name of a compiled unit is spelt by the path of its source file. -/
  derived : ∀ e ∈ g.catalog.compiled, ∃ relative,
    g.catalog.sourceFileOf e.text = some (b.sourceRoot.join relative) ∧
      Identity.ofSourcePath relative b.settings.sourceExtension = .ok e.name
  /-- Failed sources are in the order of their paths. -/
  sources : g.failedSources.Pairwise fun x y => x.path.compare y.path = .lt
  /-- Failed links are in the order of their identities. -/
  links : g.failedLinks.Pairwise fun x y => x.identity.compare y.identity = .lt
  /-- The build is clean exactly if every matched file is the source file of a compiled unit. -/
  clean : g.isClean = true ↔
    ∀ p ∈ found.matched, ∃ e ∈ g.catalog.compiled, g.catalog.sourceFileOf e.text = some p

namespace Build

open FileSystem

variable {σ : Type}

/-- A clean build is one in which every matched file became a compiled unit. -/
theorem clean_iff {g : Generation} {found : Findings}
    (hcomplete : (g.catalog.compiled.map (fun e => g.catalog.sourceFileOf e.text) ++
      (g.failedSources.map (fun f => some f.path) ++
        g.failedLinks.map fun f => some f.sourceFile)).Perm (found.matched.map some))
    (hdistinct : found.matched.Nodup) : g.isClean = true ↔
      ∀ p ∈ found.matched, ∃ e ∈ g.catalog.compiled, g.catalog.sourceFileOf e.text = some p := by
  unfold Generation.isClean
  rw [Bool.and_eq_true, List.isEmpty_iff, List.isEmpty_iff]
  constructor
  · rintro ⟨hsources, hlinks⟩ p hp
    rw [hsources, hlinks, List.map_nil, List.map_nil, List.append_nil, List.append_nil] at hcomplete
    exact List.mem_map.mp (hcomplete.mem_iff.mpr (List.mem_map_of_mem hp))
  · intro hall
    have hnone := mem_left_of_perm hcomplete (hdistinct.map fun _ _ => Option.some.inj) fun a ha => by
      obtain ⟨p, hp, rfl⟩ := List.mem_map.mp ha
      exact List.mem_map.mpr (hall p hp)
    obtain ⟨hsources, hlinks⟩ := List.append_eq_nil_iff.mp hnone
    exact ⟨List.map_eq_nil_iff.mp hsources, List.map_eq_nil_iff.mp hlinks⟩

/-- The loader with which a build links. -/
def linker (b : Build) (fs : FileSystem) : Loader := (b.openSession fs).1.loader fs

/-- What a finished build is made of. -/
theorem finish_eq_ok {b : Build} {fs : FileSystem} {issues : List DiscoveryIssue}
    {outcomes : List (SourceUnit × Option CompileError)} {g : Generation}
    (h : b.finish fs issues outcomes = .ok g) :
    ∃ entries failures linked,
      link (b.linker fs) (compiledUnits outcomes) {} = ((entries, failures), linked) ∧
      g.catalog = (Catalog.make (b.linker fs) entries linked).1 ∧
      g.session.loader fs = b.linker fs ∧
      g.failedSources =
        (refused issues ++ rejected outcomes).mergeSort (fun x y => x.path.compare y.path != .gt) ∧
      g.failedLinks = failures.mergeSort fun x y => x.identity.compare y.identity != .gt := by
  unfold finish at h
  simp only at h
  split at h
  · cases h
  · obtain rfl := Except.ok.inj h
    exact ⟨_, _, _, rfl, rfl, rfl, rfl, rfl⟩

/-- A build is finished if no container breaks down. -/
theorem exists_finish_of_unbroken {b : Build} {fs : FileSystem} (issues : List DiscoveryIssue)
    (outcomes : List (SourceUnit × Option CompileError)) {entries : List CatalogEntry}
    {failures : List LinkFailure} {linked : Registry}
    (hlink : link (b.linker fs) (compiledUnits outcomes) {} = ((entries, failures), linked))
    (hcompiled : (b.linker fs).breaksDown ((compiledUnits outcomes).map (·.identity)) {} = false)
    (hlisted : (b.linker fs).breaksDown
      (Catalog.uncompiled (b.linker fs) (Catalog.make (b.linker fs) entries linked).1.compiled) linked =
        false) : ∃ g, b.finish fs issues outcomes = .ok g := by
  have hlinker : (b.openSession fs).1.loader fs = b.linker fs := rfl
  unfold finish
  simp only
  rw [hlinker, hlink, hcompiled, hlisted]
  exact ⟨_, rfl⟩

/-- A catalog keeps all entries of different names, each with its source file. -/
theorem compiled_make {l : Loader} {entries : List CatalogEntry} {r : Registry}
    (hnames : (entries.map (·.name)).Nodup) :
    (Catalog.make l entries r).1.compiled.Perm entries ∧
      ∀ e ∈ (Catalog.make l entries r).1.compiled,
        (Catalog.make l entries r).1.sourceFileOf e.text = e.sourceFile := by
  have htexts : (entries.map CatalogEntry.text).Nodup := by
    have hmapped := hnames.map fun _ _ => Identity.text_inj
    rwa [List.map_map] at hmapped
  refine ⟨perm_sortByKey htexts, fun e he => ?_⟩
  have hfound : Catalog.find? (sortByKey CatalogEntry.text entries) e.text = some e :=
    find?_of_mem_ascending (ascending_sortByKey entries) he rfl
  show (Catalog.find? (sortByKey CatalogEntry.text entries) e.text).bind CatalogEntry.sourceFile = _
  rw [hfound]
  rfl

section Finish

variable {b : Build} {fs : FileSystem} {found : Findings}
  {outcomes : List (SourceUnit × Option CompileError)} {g : Generation}

/-- Only units that were found are compiled, in the order in which they were found. -/
theorem sublist_found (hunits : outcomes.map (·.1) = found.units) :
    (compiledUnits outcomes).Sublist found.units :=
  hunits ▸ sublist_compiledUnits outcomes

/-- A matched file was compiled, refused or rejected. -/
theorem perm_matched (hunits : outcomes.map (·.1) = found.units) :
    ((compiledUnits outcomes).map (·.path) ++
      (refused found.issues ++ rejected outcomes).map (·.path)).Perm found.matched := by
  unfold Findings.matched
  rw [List.map_append, paths_refused, ← hunits, List.map_map]
  refine (List.perm_append_comm.append_left _).trans ?_
  rw [← List.append_assoc]
  exact (perm_outcomes outcomes).append_right _

/-- A linked unit has the name and the source file of a compiled source. -/
theorem source_of_entry {entries : List CatalogEntry} {failures : List LinkFailure}
    (hperm : ((entries.map fun e => (e.name, e.sourceFile)) ++
      failures.map fun f => (f.identity, some f.sourceFile)).Perm
        ((compiledUnits outcomes).map fun u => (u.identity, some u.path)))
    {e : CatalogEntry} (he : e ∈ entries) :
    ∃ u ∈ compiledUnits outcomes, u.identity = e.name ∧ some u.path = e.sourceFile := by
  have hpair : (e.name, e.sourceFile) ∈ entries.map fun e => (e.name, e.sourceFile) :=
    List.mem_map_of_mem he
  obtain ⟨u, hu, hsame⟩ := List.mem_map.mp (hperm.mem_iff.mp (List.mem_append_left _ hpair))
  exact ⟨u, hu, Prod.mk.inj hsame⟩

/-- Linked units and failures have the names of the compiled sources, which all differ. -/
theorem names_nodup
    (horderly : Search.Orderly ⟨b.sourceRoot, b.settings.sourceExtension⟩ found)
    (hunits : outcomes.map (·.1) = found.units) {entries : List CatalogEntry}
    {failures : List LinkFailure}
    (hperm : ((entries.map fun e => (e.name, e.sourceFile)) ++
      failures.map fun f => (f.identity, some f.sourceFile)).Perm
        ((compiledUnits outcomes).map fun u => (u.identity, some u.path))) :
    (entries.map (·.name) ++ failures.map (·.identity)).Nodup := by
  have hidentities : ((compiledUnits outcomes).map (·.identity)).Nodup :=
    horderly.identities_nodup.sublist ((sublist_found hunits).map _)
  have hfirst := hperm.map Prod.fst
  rw [List.map_append, List.map_map, List.map_map, List.map_map] at hfirst
  exact hfirst.nodup_iff.mpr hidentities

/-- No two failed sources have the same path. -/
theorem failed_nodup
    (horderly : Search.Orderly ⟨b.sourceRoot, b.settings.sourceExtension⟩ found)
    (hunits : outcomes.map (·.1) = found.units) :
    ((refused found.issues ++ rejected outcomes).map fun f => f.path.components).Nodup := by
  have hcomponents := ((perm_matched hunits).map Path.components).nodup_iff.mpr horderly.matched_nodup
  rw [List.map_append, List.map_map, List.map_map] at hcomponents
  exact hcomponents.of_append_right

/-- **A finished build accounts for every matched file.** -/
theorem accounts_finish
    (horderly : Search.Orderly ⟨b.sourceRoot, b.settings.sourceExtension⟩ found)
    (hunits : outcomes.map (·.1) = found.units)
    (h : b.finish fs found.issues outcomes = .ok g) : g.Accounts b found := by
  obtain ⟨entries, failures, linked, hlink, hcatalog, -, hsources, hlinks⟩ := finish_eq_ok h
  obtain ⟨-, hperm, -⟩ := link_accounts (steady_session _ fs) (Loader.reliable_start _) hlink
  have hnames := names_nodup horderly hunits hperm
  obtain ⟨hcompiled, hsourceOf⟩ :=
    compiled_make (l := b.linker fs) (r := linked) hnames.of_append_left
  rw [← hcatalog] at hcompiled hsourceOf
  have hmatched : found.matched.Nodup := horderly.matched_nodup.of_map
  have hfailedLinks : g.failedLinks.Perm failures := hlinks ▸ List.mergeSort_perm failures _
  have hfailedSources : g.failedSources.Perm (refused found.issues ++ rejected outcomes) :=
    hsources ▸ List.mergeSort_perm _ _
  have hparts := perm_matched hunits
  have hlinked : (entries.map (·.sourceFile) ++ failures.map fun f => some f.sourceFile).Perm
      ((compiledUnits outcomes).map fun u => some u.path) := by
    have hsecond := hperm.map Prod.snd
    rwa [List.map_append, List.map_map, List.map_map, List.map_map] at hsecond
  have hcomplete : (g.catalog.compiled.map (fun e => g.catalog.sourceFileOf e.text) ++
      (g.failedSources.map (fun f => some f.path) ++
        g.failedLinks.map fun f => some f.sourceFile)).Perm (found.matched.map some) := by
    rw [List.map_congr_left hsourceOf]
    have hsome := hparts.map some
    rw [List.map_append, List.map_map, List.map_map] at hsome
    -- the failed sources are moved behind the failed links, which linking keeps with the entries
    refine ((hcompiled.map _).append
      ((hfailedSources.map _).append (hfailedLinks.map _))).trans ?_
    refine (List.perm_append_comm.append_left _).trans ?_
    rw [← List.append_assoc]
    exact (hlinked.append_right _).trans hsome
  refine ⟨hcomplete, hmatched, ?_, ?_, ?_, ?_, clean_iff hcomplete hmatched⟩
  · exact (hcompiled.map _).nodup_iff.mpr hnames.of_append_left
  · intro e he
    obtain ⟨u, hu, hname, hsource⟩ := source_of_entry hperm (hcompiled.mem_iff.mp he)
    obtain ⟨names, hne, hplain, hrelative, hpath, hidentity⟩ :=
      horderly.identified u ((sublist_found hunits).subset hu)
    refine ⟨u.relativePath, ?_, hname ▸ hidentity⟩
    rw [hsourceOf e he, ← hsource, hpath, hrelative, b.sourceRoot.join_descend hplain hne]
  · rw [hsources]
    exact Path.pairwise_mergeSort (failed_nodup horderly hunits)
  · rw [hlinks]
    refine pairwise_mergeSort_lt (compare : String → String → Ordering) ?_
    have htexts := hnames.of_append_right.map fun _ _ => Identity.text_inj
    rwa [List.map_map] at htexts

/-- **What is found under the name of a failed link**: nothing, unless no container lists the name and
it belongs to a host unit. -/
theorem get?_failed (hhost : b.host.Defined)
    (horderly : Search.Orderly ⟨b.sourceRoot, b.settings.sourceExtension⟩ found)
    (hunits : outcomes.map (·.1) = found.units) (h : b.finish fs found.issues outcomes = .ok g)
    {f : LinkFailure} (hf : f ∈ g.failedLinks) :
    g.catalog.get? f.identity.text = none ↔
      f.identity ∈ (g.session.available fs).1 ∨ b.host.lookup f.identity.text = none := by
  obtain ⟨entries, failures, linked, hlink, hcatalog, hsession, -, hlinks⟩ := finish_eq_ok h
  have hsteady : (b.linker fs).Steady := steady_session _ fs
  obtain ⟨hreliable, hperm, hfails⟩ := link_accounts hsteady (Loader.reliable_start _) hlink
  have hnames := names_nodup horderly hunits hperm
  have hf' : f ∈ failures := by
    rw [hlinks] at hf
    exact List.mem_mergeSort.mp hf
  obtain ⟨e, he⟩ := hfails f hf'
  have hmade : (b.linker fs).Reliable [] (Catalog.make (b.linker fs) entries linked).2 :=
    Loader.reliable_visit hsteady _ hreliable
  have hcompiled : entries.reverse.find? (fun e => e.text == f.identity.text) = none := by
    rw [List.find?_eq_none]
    intro e he hsame
    have hname : e.name = f.identity := Identity.text_inj (beq_iff_eq.mp hsame)
    refine (List.nodup_append'.mp hnames).2.2 (List.mem_map_of_mem (List.mem_reverse.mp he)) ?_
    rw [hname]
    exact List.mem_map_of_mem hf'
  have hclosed : (b.linker fs).host.Closed := hhost.closed
  have hget := Catalog.unit_get?_make hclosed hmade.1.1 f.identity
  rw [hcompiled, unit?_eq_none_of_error hsteady hmade he, ← hcatalog] at hget
  rw [← Option.map_eq_none_iff (f := fun e : CatalogEntry => e.unit), hget]
  show (if f.identity ∈ (b.linker fs).available.1 then none else b.host.lookup f.identity.text) = none
    ↔ f.identity ∈ (g.session.loader fs).available.1 ∨ _
  rw [hsession]
  split <;> simp_all

end Finish

end Build

end LiveUnits
