import Mathlib
import LiveUnits.Proofs.Build.Calls
import LiveUnits.Proofs.Build.Report
import LiveUnits.Proofs.Container.Directory

/-!
# Builds account for every source file

Every file that discovery matched ends up in exactly one place: as the source file of a compiled unit,
among the failed sources, or among the failed links (`Build.accounts_run`).

A unit that could not be linked is not in the catalog, unless its name is listed by no container and
belongs to a host unit.  The artifact of such a unit is there, since only artifacts are linked; so it is
listed, if the output root was empty when the compiler began and can be listed afterwards.  The root may
fail to be empty: nothing is removed from a root that leads through a name which does not exist yet,
and links to directories that stand there from earlier are followed by lookups but not listed.
-/

namespace LiveUnits

namespace Build

open FileSystem

variable {σ : Type}

/-- The output root is the first container. -/
theorem containers_of_isDirectory {b : Build} {fs : FileSystem} (h : fs.isDirectory b.outputRoot = true) :
    (b.linker fs).containers = Medium.container fs (.directory b.outputRoot) ::
      ((b.settings.libraries.map (Medium.openAt fs)).filterMap Except.toOption).map
        (Medium.container fs) := by
  have hopened : Medium.openAt fs b.outputRoot = .ok (.directory b.outputRoot) := by
    obtain ⟨l, entries, hl⟩ := isDirectory_eq_true.mp h
    unfold Medium.openAt Medium.openDirectory
    rw [node_eq_ok.mpr ⟨l, hl⟩, h]
    rfl
  show List.map _ (List.filterMap _ (List.map _ _)) = _
  rw [List.map_cons, hopened]
  rfl

/-- An artifact in an output root that can be listed is listed. -/
theorem mem_available_of_artifact {b : Build} {fs : FileSystem} {L : Location}
    (hstaged : fs.Staged b.outputRoot L)
    (hextension : '/' ∉ b.settings.artifactExtension.toList) {names : List String}
    (hlist : fs.resourcesBelow b.outputRoot = .ok names) {u : SourceUnit}
    (hfile : fs.isFile (b.artifactOf u) = true) : u.identity ∈ (b.linker fs).available.1 := by
  obtain ⟨entries, harrives⟩ := hstaged.arrives
  obtain ⟨-, hroot⟩ := locateWith_eq_ok.mp harrives
  refine Loader.mem_available.mpr ⟨Medium.container fs (.directory b.outputRoot), ?_, names, hlist, ?_⟩
  · rw [containers_of_isDirectory (isDirectory_eq_true.mpr ⟨L, entries, harrives⟩)]
    exact List.mem_cons_self
  · obtain ⟨bytes, hread⟩ := exists_read_of_isFile hfile
    obtain ⟨l', hlocate⟩ := read_eq_ok.mp hread
    have hplain := Identity.plain_artifactNames (n := u.identity) hextension
    have hne : u.identity.artifactNames b.settings.artifactExtension ≠ [] :=
      u.identity.artifactNames_ne_nil _
    obtain ⟨left, hwalks⟩ := hstaged.arrives.walks hne hplain hlocate
    have hopen : fs.Open L (u.identity.artifactNames b.settings.artifactExtension) := by
      intro front hfront hends y hy
      rcases List.prefix_concat_iff.mp hfront with hall | hfront
      · exact absurd hall hends
      · refine hstaged.dotless front (fun m hm => ?_) y hy
        exact (Identity.plain_of_mem_front (hfront.subset hm)).2
    obtain ⟨y, hget, hleaf⟩ : ∃ y, (Node.directory entries).get?
        (u.identity.artifactNames b.settings.artifactExtension) = some y ∧ y.isDirectory = false := by
      have hstraight := hwalks.straight hplain hopen
      rw [Node.get?_append, hroot.get?_of_found, Option.bind_some] at hstraight
      rcases hstraight with hget | ⟨target, hget⟩
      · exact ⟨_, hget, rfl⟩
      · exact ⟨_, hget, rfl⟩
    unfold resourcesBelow at hlist
    rw [list_eq_ok.mpr ⟨L, harrives⟩] at hlist
    unfold artifactOf at hfile
    rw [← Identity.encode_artifactParts] at hne hget hfile
    have hmem := mem_listEntries hlist (fun hnil => hne (congrArg (List.map Utf8.encode) hnil)) hget hleaf hfile
    rwa [Identity.intercalate_artifactParts, String.empty_append] at hmem

/-- **Linking finds what the compiler wrote.** -/
theorem scanFor_of_read {b : Build} {fs : FileSystem} {u : SourceUnit}
    (hroot : fs.isDirectory b.outputRoot = true)
    (hslash : '/' ∉ b.settings.artifactExtension.toList)
    (hbackslash : '\\' ∉ b.settings.artifactExtension.toList) {bytes : Bytes}
    (hread : fs.read (b.artifactOf u) = .ok bytes) (clock : Nat) :
    (b.linker fs).scanFor u.identity clock = (.ok (some ⟨b.outputRoot, bytes⟩), clock + 1) := by
  obtain ⟨l, hl⟩ := read_eq_ok.mp hread
  have hnode : fs.node (b.outputRoot.descend
      (u.identity.artifactNames b.settings.artifactExtension)) = .ok (.file bytes) :=
    node_eq_ok.mpr ⟨l, hl⟩
  have hlookup : (Medium.container fs (.directory b.outputRoot)).lookup clock
      (u.identity.resourceName b.settings.artifactExtension) = .ok (some bytes) := by
    show fs.lookupBelow b.outputRoot _ = _
    unfold lookupBelow
    rw [u.identity.resourceParts?_resourceName hslash hbackslash]
    simp only [u.identity.resourcePath_artifactParts, hnode]
  unfold Loader.scanFor
  rw [containers_of_isDirectory hroot, scan,
    show (b.linker fs).artifactExtension = b.settings.artifactExtension from rfl,
    hlookup]
  rfl

/-! ## Builds -/

/-- A build into an empty output root that can be listed afterwards, with a compiler that touches
nothing but the places of artifacts. -/
structure Undisturbed (c : Compiler σ) (b : Build) (site site' : Site σ) : Prop where
  /-- The compiler touches nothing but the places of artifacts. -/
  confined : c.Confined
  /-- The extension of artifacts is not empty. -/
  extension_ne : b.settings.artifactExtension.toList ≠ []
  /-- The extension of artifacts holds no separator. -/
  extension_slash : '/' ∉ b.settings.artifactExtension.toList
  /-- The output root is empty once it has been prepared. -/
  empty : (site.files.clear b.outputRoot).files.list b.outputRoot = .ok []
  /-- The output root can be listed in the end. -/
  listable : ∃ names, site'.files.resourcesBelow b.outputRoot = .ok names

/-- A build that gets through finds its source files after the output root is prepared. -/
theorem files_of_prepare_clear {c : Compiler σ} {b : Build} {site site' : Site σ} {g : Generation}
    (h : b.run c site = (.ok g, site')) :
    ∃ prepared found outcomes,
      prepared.files = (site.files.clear b.outputRoot).files ∧
      prepared.files.discover b.sourceRoot b.settings.sourceExtension = .ok found ∧
      b.compileAll c found.units prepared = (.ok outcomes, site') ∧
      b.finish site'.files found.issues outcomes = .ok g := by
  obtain ⟨found, outcomes, hfound, hcompile, hfinish⟩ := phases_of_ok h
  exact ⟨b.cleared site, found, outcomes, rfl, hfound, hcompile, hfinish⟩

/-- **A build accounts for every matched file, exactly once.**  A failed link is not in the catalog,
unless no container lists its name and it belongs to a host unit; and that does not happen in a build
that is not disturbed. -/
theorem accounts_run (c : Compiler σ) (b : Build) (hhost : b.host.Defined) {site site' : Site σ}
    (htidy : site.files.root.Tidy) {g : Generation} (h : b.run c site = (.ok g, site')) :
    ∃ found, (site.files.clear b.outputRoot).files.discover b.sourceRoot
        b.settings.sourceExtension = .ok found ∧
      g.Accounts b found ∧
      ∀ f ∈ g.failedLinks,
        (g.catalog.get? f.identity.text = none ↔
          f.identity ∈ (g.session.available site'.files).1 ∨
            b.host.lookup f.identity.text = none) ∧
        (b.Undisturbed c site site' → g.catalog.get? f.identity.text = none) := by
  obtain ⟨prepared, found, outcomes, hprepared, hdiscover, hcompile, hfinish⟩ :=
    files_of_prepare_clear h
  have htidy' : prepared.files.root.Tidy := hprepared ▸ tidy_clear htidy b.outputRoot
  have horderly := orderly_discover htidy' hdiscover
  have hunits := units_of_compileAll hcompile
  refine ⟨found, hprepared ▸ hdiscover, accounts_finish horderly hunits hfinish, fun f hf => ?_⟩
  have hget := get?_failed hhost horderly hunits hfinish hf
  refine ⟨hget, fun hquiet => hget.mpr (.inl ?_)⟩
  obtain ⟨names, hlist⟩ := hquiet.listable
  obtain ⟨L, hready⟩ := ready_of_empty (hprepared ▸ hquiet.empty) b.settings.artifactExtension
    (found.units.map (·.identity))
  obtain ⟨-, hstaged, hfiles⟩ := ready_compileAll hquiet.confined hquiet.extension_ne
    hquiet.extension_slash horderly.identities_nodup hready hcompile
  obtain ⟨entries, failures, linked, hlink, -, hsession, -, hlinks⟩ := finish_eq_ok hfinish
  obtain ⟨-, hperm, -⟩ := link_accounts (steady_session _ _) (Loader.reliable_start _) hlink
  -- only units with an artifact are linked
  have hpair : (f.identity, some f.sourceFile) ∈ failures.map fun f => (f.identity, some f.sourceFile) := by
    rw [hlinks] at hf
    exact List.mem_map_of_mem (List.mem_mergeSort.mp hf)
  obtain ⟨u, hu, hsame⟩ := List.mem_map.mp (hperm.mem_iff.mp (List.mem_append_right _ hpair))
  have hlisted := mem_available_of_artifact hstaged hquiet.extension_slash hlist (hfiles u hu)
  rw [(Prod.mk.inj hsame).1] at hlisted
  show f.identity ∈ (g.session.loader site'.files).available.1
  rw [hsession]
  exact hlisted

/-! ## A build of one file

The compiler writes an empty artifact, which cannot be linked, for a name that the host defines too. -/

/-- The compiler that writes fixed bytes where nothing is. -/
def writing (contents : Bytes) : Compiler σ := fun i site =>
  match site.files.locate false i.artifact with
  | .ok (.vacant d name) =>
    (.compiled, { site with files := site.files.put (d ++ [name]) (some (.file contents)) })
  | _ => (.failed (.diagnostic "occupied"), site)

/-- Writing where the artifact belongs, and only if nothing is there, is confined. -/
theorem confined_writing (contents : Bytes) : (writing contents : Compiler σ).Confined := by
  intro i site
  unfold Compiler.ConfinedAt writing
  cases site.files.locate false i.artifact with
  | error f => rfl
  | ok spot =>
      cases spot with
      | found l x => exact Apart.refl l site.files
      | vacant d name => exact apart_put site.files (d ++ [name]) _

/-- An empty artifact cannot be linked. -/
theorem resolve_of_empty {l : Loader} {n : Identity} {r : Registry} {root : Path} {after : Nat}
    (hopen : r.Open n) (hscan : l.scanFor n r.counters.lookups = (.ok (some ⟨root, []⟩), after)) :
    ∃ e : ResolveError, e.crash? = none ∧ l.resolve n r = (.error e, r.countScan after) := by
  have hstep := l.resolveAt_step [] n r
  unfold Loader.resolve
  generalize l.resolveAt [] n r = result at hstep ⊢
  cases hstep with
  | registered hu =>
      rw [hopen.1] at hu
      cases hu
  | delegated _ hn => exact absurd hn hopen.2
  | loop _ hn => cases hn
  | unreadable _ _ hread =>
      rw [hscan] at hread
      cases hread
  | absent _ _ habsent =>
      rw [hscan] at habsent
      cases habsent
  | broken _ _ hfound hlink =>
      rw [hscan] at hfound
      obtain ⟨houtcome, rfl⟩ := Prod.mk.inj hfound
      obtain rfl := Option.some.inj (Except.ok.inj houtcome)
      obtain ⟨herror, rfl⟩ := Prod.mk.inj hlink
      obtain rfl := Except.error.inj herror
      exact ⟨_, rfl, rfl⟩
  | linked _ _ hfound hlink =>
      rw [hscan] at hfound
      obtain ⟨houtcome, rfl⟩ := Prod.mk.inj hfound
      obtain rfl := Option.some.inj (Except.ok.inj houtcome)
      cases hlink

namespace OneFile

/-- The build. -/
def build (h : HostUnits) : Build := ⟨1, h, { sourceExtension := "src" }, ⟨Utf8.encode "s"⟩, ⟨Utf8.encode "o"⟩⟩

/-- The name of the unit. -/
def name : Identity := ⟨["a", "Foo"], by decide, by decide⟩

/-- The source file. -/
def source : SourceUnit := ⟨.ofString "s/a/Foo.src", .ofString "a/Foo.src", name⟩

/-- The files, given what is in the working directory apart from the source file. -/
def files (others : List (Name × Node)) : FileSystem :=
  let source : Node := .directory [(Utf8.encode "Foo.src", .file [])]
  ⟨.directory ((Utf8.encode "s", .directory [(Utf8.encode "a", source)]) :: others), []⟩

/-- An output root with these entries. -/
def output (entries : List (Name × Node)) : Name × Node := (Utf8.encode "o", .directory entries)

/-- The files that the build leaves. -/
def built : FileSystem :=
  files [output [(Utf8.encode "a", .directory [(Utf8.encode "Foo.wasm", .file [])])]]

theorem tidy_files : (files []).root.Tidy := by
  have hfile : (Node.directory [(Utf8.encode "Foo.src", .file [])]).Tidy :=
    .singleton ⟨by decide, by decide, by decide, by decide⟩ (.file [])
  exact .singleton ⟨by decide, by decide, by decide, by decide⟩
    (.singleton ⟨by decide, by decide, by decide, by decide⟩ hfile)

/-- A build of these files gets to the calls of the compiler, whatever its settings but for the extension
of source files. -/
theorem run_calls (h : HostUnits) {s : Settings} (hs : s.sourceExtension = "src") (c : Compiler Unit) :
    ({ build h with settings := s } : Build).run c ⟨files [], ()⟩ =
      (({ build h with settings := s } : Build).compileAll c [source] >>=
        ({ build h with settings := s } : Build).conclude []) ⟨files [output []], ()⟩ := by
  have hroots : (files []).liesInside (build h).sourceRoot (build h).outputRoot = false := by cbv
  have hclear : (files []).clear (build h).outputRoot = ⟨none, files [output []]⟩ := by cbv
  have hfound : (files [output []]).discover (build h).sourceRoot "src" = .ok ⟨[source], []⟩ := by cbv
  rw [run_phases]
  simp only [cleared, hroots, hclear, hs, hfound, Bool.false_eq_true, if_false]

/-- The files once an artifact has been written. -/
def filesWith (artifact : Bytes) : FileSystem :=
  files [output [(Utf8.encode "a", .directory [(Utf8.encode "Foo.wasm", .file artifact)])]]

/-- The build up to linking. -/
theorem run_writing (h : HostUnits) (artifact : Bytes) :
    (build h).run (writing artifact) (⟨files [], ()⟩ : Site Unit) =
      ((build h).finish (filesWith artifact) [] [(source, none)], ⟨filesWith artifact, ()⟩) := by
  have hcompile : (build h).compileAll (writing artifact) [source]
      (⟨files [output []], ()⟩ : Site Unit) =
        (.ok [(source, none)], ⟨filesWith artifact, ()⟩) := by cbv
  have hcalls : (build h).run (writing artifact) (⟨files [], ()⟩ : Site Unit) =
      ((build h).compileAll (writing artifact) [source] >>= (build h).conclude [])
        ⟨files [output []], ()⟩ := run_calls h rfl _
  rw [hcalls, Attempt.bind_run, hcompile]
  rfl

theorem run_eq (h : HostUnits) :
    (build h).run (writing []) (⟨files [], ()⟩ : Site Unit) =
      ((build h).finish built [] [(source, none)], ⟨built, ()⟩) :=
  run_writing h []

/-- A build without libraries links from the output root alone. -/
theorem containers_linker (h : HostUnits) {fs : FileSystem}
    (hroot : fs.isDirectory (build h).outputRoot = true) :
    ((build h).linker fs).containers = [Medium.container fs (.directory (build h).outputRoot)] :=
  containers_of_isDirectory hroot

theorem isDirectory_filesWith (h : HostUnits) (artifact : Bytes) :
    (filesWith artifact).isDirectory (build h).outputRoot = true := by cbv

/-- The artifact is all that is listed. -/
theorem resourcesBelow_filesWith (h : HostUnits) (artifact : Bytes) :
    (filesWith artifact).resourcesBelow (build h).outputRoot = .ok [name.resourceName "wasm"] := by cbv

theorem isDirectory_built (h : HostUnits) : built.isDirectory (build h).outputRoot = true :=
  isDirectory_filesWith h []

theorem resourcesBelow_built (h : HostUnits) :
    built.resourcesBelow (build h).outputRoot = .ok [name.resourceName "wasm"] :=
  resourcesBelow_filesWith h []

/-- Linking finds the empty artifact. -/
theorem scanFor_eq (h : HostUnits) (clock : Nat) : ((build h).linker built).scanFor name clock =
    (.ok (some ⟨(build h).outputRoot, []⟩), clock + 1) := by
  have hparts : resourceParts? (name.resourceName "wasm") =
      some [['a'], ['F', 'o', 'o', '.', 'w', 'a', 's', 'm']] := by decide
  have hnode : built.node (resourcePath (build h).outputRoot
      [['a'], ['F', 'o', 'o', '.', 'w', 'a', 's', 'm']]) = .ok (.file []) := by cbv
  have hlookup : (Medium.container built (.directory (build h).outputRoot)).lookup clock
      (name.resourceName "wasm") = .ok (some []) := by
    show built.lookupBelow (build h).outputRoot (name.resourceName "wasm") = _
    unfold lookupBelow
    rw [hparts]
    simp only [hnode]
  unfold Loader.scanFor
  rw [containers_linker h (isDirectory_built h), scan,
    show ((build h).linker built).artifactExtension = "wasm" from rfl, hlookup]
  rfl

/-- The only name that can be asked for is that of the unit. -/
theorem eq_name_of_available {h : HostUnits} {fs : FileSystem}
    (hroot : fs.isDirectory (build h).outputRoot = true)
    (hlist : fs.resourcesBelow (build h).outputRoot = .ok [name.resourceName "wasm"]) {n : Identity}
    (hn : n ∈ ((build h).linker fs).available.1) : n = name := by
  obtain ⟨c, hc, names, hnames, hmem⟩ := Loader.mem_available.mp hn
  rw [containers_linker h hroot] at hc
  obtain rfl := List.mem_singleton.mp hc
  obtain rfl := Except.ok.inj (hlist.symm.trans hnames)
  exact Identity.resourceName_inj (List.mem_singleton.mp hmem)

/-- No request brings the containers down. -/
theorem not_breaksDown (h : HostUnits) {ns : List Identity} (hns : ∀ n ∈ ns, n = name) {r : Registry}
    (hunits : r.units = []) (hunresolvable : r.unresolvable = []) :
    ((build h).linker built).breaksDown ns r = false := by
  induction ns generalizing r with
  | nil => rfl
  | cons n rest ih =>
      obtain rfl := hns n List.mem_cons_self
      have hopen : r.Open name := by
        refine ⟨?_, ?_⟩
        · rw [Registry.unit?, hunits]
          rfl
        · rw [hunresolvable]
          exact List.not_mem_nil
      obtain ⟨e, hcrash, hresolve⟩ := resolve_of_empty hopen (scanFor_eq h _)
      unfold Loader.breaksDown
      rw [hresolve]
      simp only [hcrash, Option.isSome_none, Bool.false_or]
      exact ih (fun m hm => hns m (List.mem_cons_of_mem _ hm)) hunits hunresolvable

/-- The build is finished, and its unit is a failed link. -/
theorem exists_finish (h : HostUnits) : ∃ g e,
    (build h).finish built [] [(source, none)] = .ok g ∧ g.failedLinks = [⟨name, source.path, e⟩] := by
  obtain ⟨e, hcrash, hresolve⟩ := resolve_of_empty (r := {}) ⟨rfl, List.not_mem_nil⟩ (scanFor_eq h 0)
  have hlink : link ((build h).linker built) [source] {} =
      (([], [⟨name, source.path, e⟩]), Registry.countScan {} 1) := by
    unfold link
    rw [show source.identity = name from rfl, hresolve]
    rfl
  have hfirst : ((build h).linker built).breaksDown [name] {} = false :=
    not_breaksDown h (fun n hn => List.mem_singleton.mp hn) rfl rfl
  have hsecond : ((build h).linker built).breaksDown (Catalog.uncompiled ((build h).linker built)
      (Catalog.make ((build h).linker built) [] (Registry.countScan {} 1)).1.compiled)
        (Registry.countScan {} 1) = false :=
    not_breaksDown h (fun n hn => eq_name_of_available (isDirectory_built h) (resourcesBelow_built h)
      (List.mem_of_mem_filter hn)) rfl rfl
  obtain ⟨g, hg⟩ := exists_finish_of_unbroken [] [(source, none)] hlink hfirst hsecond
  refine ⟨g, e, hg, ?_⟩
  obtain ⟨entries, failures, linked, hlinked, -, -, -, hlinks⟩ := finish_eq_ok hg
  rw [show compiledUnits [(source, none)] = [source] from rfl, hlink] at hlinked
  obtain ⟨hlists, -⟩ := Prod.mk.inj hlinked
  obtain ⟨-, rfl⟩ := Prod.mk.inj hlists
  rw [hlinks, List.mergeSort_singleton]

/-- Nothing was in the way of this build. -/
theorem undisturbed (h : HostUnits) :
    (build h).Undisturbed (writing []) (⟨files [], ()⟩ : Site Unit) ⟨built, ()⟩ where
  confined := confined_writing []
  extension_ne := by
    show "wasm".toList ≠ []
    decide
  extension_slash := by
    show '/' ∉ "wasm".toList
    decide
  empty := by cbv
  listable := ⟨_, resourcesBelow_built h⟩

/-- A failed link hides the host unit of its name. -/
theorem accounts_run_one_file : ∃ h : HostUnits, h.Defined ∧ (h.lookup "a.Foo").isSome ∧
    (files []).root.Tidy ∧ ∃ g,
      (build h).run (writing []) (⟨files [], ()⟩ : Site Unit) = (.ok g, ⟨built, ()⟩) ∧
      (∃ f ∈ g.failedLinks, f.identity.text = "a.Foo") ∧ g.catalog.get? "a.Foo" = none := by
  obtain ⟨h, hdefined, hfound⟩ := HostUnits.exists_defined
  obtain ⟨g, e, hfinish, hlinks⟩ := exists_finish h
  have hrun := run_eq h
  rw [hfinish] at hrun
  have hfailed : ⟨name, source.path, e⟩ ∈ g.failedLinks := by
    rw [hlinks]
    exact List.mem_singleton_self _
  have htext : name.text = "a.Foo" := by decide
  obtain ⟨found, -, -, hmissing⟩ := accounts_run (writing []) (build h) hdefined tidy_files hrun
  exact ⟨h, hdefined, hfound, tidy_files, g, hrun, ⟨_, hfailed, htext⟩,
    htext ▸ (hmissing _ hfailed).2 (undisturbed h)⟩

end OneFile

end Build

end LiveUnits
