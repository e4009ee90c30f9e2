import Mathlib
import LiveUnits.Proofs.Build.Isolation

/-!
# Compiled units come from their own artifacts

The compiler is told one place for an artifact, and linking looks for it under a name inside the output
root.  Both lead to the same file if the extension of artifacts is not empty and holds no backslash
(`Build.scanFor_of_read`).  Then every compiled unit was made from the bytes that the call for its
source file left, and from no library and no host unit of its name (`Build.fresh_run`).

With a backslash in the extension no container is ever asked for an artifact, so whatever is compiled
is answered by the host (`Build.scanFor_of_backslash`).
-/

namespace LiveUnits

namespace Build

open FileSystem

variable {σ : Type} {b : Build} {fs : FileSystem} {u : SourceUnit}

/-! ## Where linking looks -/

/-- What a medium says to a name with a backslash in it. -/
theorem lookup_of_backslash (m : Medium) {name : String} (h : resourceParts? name = none)
    (hm : ∀ contents, m ≠ .memory contents) (clock : Nat) :
    (m.container fs).lookup clock name = .ok none := by
  cases m with
  | directory root =>
      show fs.lookupBelow root name = _
      unfold lookupBelow
      rw [h]
  | archive path contents down =>
      cases down with
      | false =>
          show contents.lookup path name = _
          unfold Archive.lookup
          rw [h]
      | true =>
          show Archive.refuse path name = _
          unfold Archive.refuse
          rw [h]
  | memory contents => exact absurd rfl (hm contents)

/-- What is opened at a path is not in memory. -/
theorem ne_memory_of_openAt {path : Path} {m : Medium} (h : Medium.openAt fs path = .ok m)
    (contents : Memory) : m ≠ .memory contents := by
  rintro rfl
  unfold Medium.openAt Medium.openDirectory Medium.openArchive at h
  split at h
  · cases h
  · split at h <;> cases h
  · split at h
    · cases h
    · split at h <;> cases h
    · cases h

/-- The containers of a build are what could be opened at the output root and at the libraries. -/
theorem exists_openAt {container : Container} (h : container ∈ (b.linker fs).containers) :
    ∃ path ∈ b.outputRoot :: b.settings.libraries, ∃ m, Medium.openAt fs path = .ok m ∧
      container = m.container fs := by
  obtain ⟨m, hm, rfl⟩ := List.mem_map.mp h
  obtain ⟨opened, hopened, hkept⟩ := List.mem_filterMap.mp hm
  obtain ⟨path, hpath, rfl⟩ := List.mem_map.mp hopened
  cases hresult : Medium.openAt fs path with
  | error e =>
      rw [hresult] at hkept
      cases hkept
  | ok m' =>
      rw [hresult] at hkept
      obtain rfl := Option.some.inj hkept
      exact ⟨path, hpath, m', hresult, rfl⟩

/-- **No container is asked for an artifact whose name has a backslash in it.** -/
theorem scanFor_of_backslash (hbackslash : '\\' ∈ b.settings.artifactExtension.toList) (n : Identity)
    (clock : Nat) : ((b.linker fs).scanFor n clock).1 = .ok none := by
  refine Loader.scan_absent (fun c hc clock => ?_) clock
  obtain ⟨path, -, m, hopened, rfl⟩ := exists_openAt hc
  exact lookup_of_backslash m (n.resourceParts?_of_backslash hbackslash) (ne_memory_of_openAt hopened)
    clock

/-! ## What linking answers -/

section Linking

variable {l : Loader} {r : Registry}

/-- **An entry is the answer to a request** for the identity of its source file. -/
theorem answered_of_link (hsteady : l.Steady) {units : List SourceUnit} {r' : Registry}
    (hr : l.Reliable [] r) {entries : List CatalogEntry} {failures : List LinkFailure}
    (h : link l units r = ((entries, failures), r')) {e : CatalogEntry} (he : e ∈ entries) :
    ∃ u ∈ units, e.sourceFile = some u.path ∧
      ∃ before, l.Reliable [] before ∧ (l.resolve u.identity before).1 = .ok e.unit := by
  induction units generalizing r r' entries failures with
  | nil =>
      obtain ⟨hlists, -⟩ := Prod.mk.inj h
      obtain ⟨rfl, -⟩ := Prod.mk.inj hlists
      cases he
  | cons u rest ih =>
      have hafter : l.Reliable [] (l.resolve u.identity r).2 :=
        Loader.reliable_visit hsteady [u.identity] hr
      unfold link at h
      cases hresult : l.resolve u.identity r with
      | mk outcome between =>
          rw [hresult] at hafter h
          cases hrest : link l rest between with
          | mk lists last =>
              obtain ⟨others, failed⟩ := lists
              have hothers : e ∈ others → ∃ v ∈ u :: rest, e.sourceFile = some v.path ∧
                  ∃ before, l.Reliable [] before ∧ (l.resolve v.identity before).1 = .ok e.unit := by
                intro he
                obtain ⟨v, hv, hanswer⟩ := ih hafter hrest he
                exact ⟨v, List.mem_cons_of_mem _ hv, hanswer⟩
              cases outcome with
              | error error =>
                  simp only [hrest] at h
                  obtain ⟨hlists, -⟩ := Prod.mk.inj h
                  obtain ⟨rfl, -⟩ := Prod.mk.inj hlists
                  exact hothers he
              | ok v =>
                  simp only [hrest] at h
                  obtain ⟨hlists, -⟩ := Prod.mk.inj h
                  obtain ⟨rfl, -⟩ := Prod.mk.inj hlists
                  rcases List.mem_cons.mp he with rfl | he
                  · exact ⟨u, List.mem_cons_self, rfl, r, hr, by rw [hresult]⟩
                  · exact hothers he

/-- A name whose bytes are found is answered by what these bytes make. -/
theorem shape_of_found (hsteady : l.Steady) (hr : l.Reliable [] r) {n : Identity} {found : Found}
    (hscan : (l.scanFor n 0).1 = .ok (some found)) {u : LinkedUnit}
    (h : (l.resolve n r).1 = .ok u) :
    (l.linkAfresh [] n found ⟨⟩).1.map LinkedUnit.shape = .ok u.shape := by
  have hsame := hr.resolve_eq hsteady n
  rw [h, Loader.resolveAfresh_found List.not_mem_nil hscan, Loader.map_shape_mapError] at hsame
  cases hlinked : (l.linkAfresh [] n found ⟨⟩).1.map LinkedUnit.shape with
  | error e =>
      rw [hlinked] at hsame
      cases hsame
  | ok v =>
      rw [hlinked] at hsame
      obtain rfl : u.shape = v := Except.ok.inj hsame
      rfl

/-- Bytes make a unit whose origin is the container they were found in. -/
theorem origin_of_linkAfresh {n : Identity} {found : Found} {u : LinkedUnit}
    (h : (l.linkAfresh [] n found ⟨⟩).1.map LinkedUnit.shape = .ok u.shape) :
    u.origin = .container found.root := by
  let anything : Attempt.Contract PUnit := ⟨fun _ => True, fun _ _ => True, fun _ => trivial,
    fun _ _ => trivial⟩
  let answers : Identity → LinkedUnit → PUnit → Prop := fun _ _ _ => True
  have hmeets : Attempt.Meets anything (fun _ => True)
      (Linkage.materialise (l.afresh ([] ++ [n])) (fun _ => ⟨.loader l.number, 0⟩) n found.bytes
        (.container found.root))
      fun v s => v.handle = ⟨.loader l.number, 0⟩ ∧
        Linkage.Linked (fun m w => answers m w s) n found.bytes (.container found.root) v :=
    Linkage.meets_materialise (fun _ _ _ _ => ⟨trivial, trivial, fun _ _ => trivial⟩)
      (fun _ _ _ _ _ _ _ _ => trivial) _ n found.bytes _
  have hmade := hmeets ⟨⟩ trivial trivial
  cases hlinked : (l.linkAfresh [] n found ⟨⟩).1 with
  | error e =>
      rw [hlinked] at h
      cases h
  | ok v =>
      rw [hlinked] at h
      have hshape : v.shape = u.shape := Except.ok.inj h
      rw [← u.shape_origin, ← hshape, v.shape_origin]
      exact (hmade.2.2 v hlinked).2.origin_eq

end Linking

/-! ## Builds -/

/-- An entry of a catalog is backed by the artifact of a source file: its unit is what linking makes of
the bytes that the call of the compiler left there. -/
structure Backs (c : Compiler σ) (b : Build) (units : List SourceUnit) (site : Site σ) (fs : FileSystem)
    (u : SourceUnit) (e : CatalogEntry) : Prop where
  /-- The entry has the identity of the source file. -/
  name_eq : e.name = u.identity
  /-- The entry names the source file. -/
  source_eq : e.sourceFile = some u.path
  /-- The unit comes from the output root. -/
  origin_eq : e.unit.origin = .container b.outputRoot
  /-- The unit was made from what the call left. -/
  made : ∃ artifact ready left bytes, Called c b units site u artifact ready .compiled left ∧
    left.files.read artifact = .ok bytes ∧
    ((b.linker fs).linkAfresh [] u.identity ⟨b.outputRoot, bytes⟩ ⟨⟩).1.map LinkedUnit.shape =
      .ok e.unit.shape

/-- Only a call that succeeds and leaves a file at the place of the artifact is accepted. -/
theorem accepted_of_inspect {artifact : Path} {verdict : Verdict}
    (h : inspect artifact fs verdict = .compiled) :
    verdict = .compiled ∧ ∃ bytes, fs.read artifact = .ok bytes := by
  unfold inspect at h
  split at h
  · split at h
    · next hfile => exact ⟨rfl, exists_read_of_isFile hfile⟩
    · cases h
  · next hother => exact absurd h hother

/-- Where linking can ask for artifacts, every entry is backed by the artifact of a source file. -/
theorem backs_of_link {c : Compiler σ} {found : Findings} {site site' : Site σ} (hc : c.Confined)
    (hne : b.settings.artifactExtension.toList ≠ [])
    (hslash : '/' ∉ b.settings.artifactExtension.toList)
    (hbackslash : '\\' ∉ b.settings.artifactExtension.toList)
    (horderly : Search.Orderly ⟨b.sourceRoot, b.settings.sourceExtension⟩ found)
    {L : Location} (hready : site.files.Ready b.outputRoot L b.settings.artifactExtension
      (found.units.map (·.identity)))
    {outcomes : List (SourceUnit × Option CompileError)}
    (hcompile : b.compileAll c found.units site = (.ok outcomes, site')) {entries : List CatalogEntry}
    {failures : List LinkFailure} {linked : Registry}
    (hlink : link (b.linker site'.files) (compiledUnits outcomes) {} = ((entries, failures), linked))
    {e : CatalogEntry} (he : e ∈ entries) :
    ∃ u ∈ found.units, Backs c b found.units site site'.files u e := by
  have hsteady : (b.linker site'.files).Steady := steady_session _ _
  obtain ⟨u, hu, hsource, before, hbefore, hanswer⟩ :=
    answered_of_link hsteady (Loader.reliable_start _) hlink he
  obtain ⟨artifact, ready, verdict, left, hcalled, hshows, hkept⟩ :=
    kept_called hc hne hslash horderly.identities_nodup hready hcompile hu
  obtain ⟨rfl, bytes, hread⟩ := accepted_of_inspect hshows
  obtain rfl : b.artifactOf u = artifact := Option.some.inj
    ((u.identity.artifactPath?_eq b.outputRoot hne hslash).symm.trans hcalled.artifact_eq)
  obtain ⟨-, hstaged, -⟩ := ready_compileAll hc hne hslash horderly.identities_nodup hready hcompile
  obtain ⟨below, harrives⟩ := hstaged.arrives
  have hscan := scanFor_of_read (isDirectory_eq_true.mpr ⟨L, below, harrives⟩) hslash hbackslash
    (hkept.read hread) 0
  have hshape := shape_of_found hsteady hbefore (by rw [hscan]) hanswer
  refine ⟨u, (sublist_found (units_of_compileAll hcompile)).subset hu, ?_, hsource,
    origin_of_linkAfresh hshape, b.artifactOf u, ready, left, bytes, hcalled, hread, hshape⟩
  exact ((Loader.closed_resolve hbefore.1.1 u.identity).2.2 e.unit hanswer).name_eq

/-- **Compiled units come from their own artifacts.**  In a build that starts with an empty output root
and a compiler that touches nothing but the places of artifacts, every compiled unit was made from the
bytes that the call for its source file left, unless linking cannot ask for artifacts by the name they
have.  It cannot if their extension is empty or holds a backslash, and then the host answers. -/
theorem fresh_run (c : Compiler σ) (b : Build) (hhost : b.host.Defined) {site site' : Site σ}
    (htidy : site.files.root.Tidy) (hc : c.Confined)
    (hempty : (b.cleared site).files.list b.outputRoot = .ok []) {g : Generation}
    (h : b.run c site = (.ok g, site')) :
    ∃ found,
      (b.cleared site).files.discover b.sourceRoot b.settings.sourceExtension = .ok found ∧
      (b.settings.artifactExtension.toList ≠ [] → '\\' ∉ b.settings.artifactExtension.toList →
        ∀ e ∈ g.catalog.compiled, ∃ u ∈ found.units,
          Backs c b found.units (b.cleared site) site'.files u e) ∧
      ('\\' ∈ b.settings.artifactExtension.toList →
        ∀ e ∈ g.catalog.compiled, e.unit ∈ b.host.units) := by
  obtain ⟨found, outcomes, hfound, hcompile, hfinish⟩ := phases_of_ok h
  have htidy' : (b.cleared site).files.root.Tidy := tidy_clear htidy b.outputRoot
  have horderly := orderly_discover htidy' hfound
  have hunits := units_of_compileAll hcompile
  have hsteady : (b.linker site'.files).Steady := steady_session _ _
  obtain ⟨entries, failures, linked, hlink, hcatalog, -, -, -⟩ := finish_eq_ok hfinish
  obtain ⟨-, hperm, -⟩ := link_accounts hsteady (Loader.reliable_start _) hlink
  have hnames := names_nodup horderly hunits hperm
  obtain ⟨hcompiled, -⟩ :=
    compiled_make (l := b.linker site'.files) (r := linked) hnames.of_append_left
  rw [← hcatalog] at hcompiled
  refine ⟨found, hfound, fun hne hbackslash e he => ?_, fun hbackslash e he => ?_⟩
  · have he' := hcompiled.mem_iff.mp he
    -- only an extension without a separator gives a place for the artifact of a unit
    have hslash : '/' ∉ b.settings.artifactExtension.toList := by
      obtain ⟨u, hu, -⟩ := answered_of_link hsteady (Loader.reliable_start _) hlink he'
      obtain ⟨⟨v, outcome⟩, hv, hsame⟩ := List.mem_map.mp hu
      obtain ⟨artifact, _, _, _, hcalled, -⟩ := exists_called hcompile (List.mem_of_mem_filter hv)
      intro hmem
      have hartifact := hcalled.artifact_eq
      unfold Identity.artifactPath? at hartifact
      rw [if_pos hmem] at hartifact
      cases hartifact
    obtain ⟨L, hready⟩ := ready_of_empty hempty b.settings.artifactExtension
      (found.units.map (·.identity))
    exact backs_of_link hc hne hslash hbackslash horderly hready hcompile hlink he'
  · obtain ⟨u, -, -, before, hbefore, hanswer⟩ :=
      answered_of_link hsteady (Loader.reliable_start _) hlink (hcompiled.mem_iff.mp he)
    rw [hbefore.resolve_of_absent hhost.closed hsteady (scanFor_of_backslash hbackslash _ 0)] at hanswer
    exact HostUnits.mem_of_lookup (Loader.lookup_of_hostAnswer hanswer)

/-! ## A module with nothing in it

The compiler writes a module that refers to nothing, for a name that the host defines too. -/

namespace OneFile

/-- The files that the build leaves. -/
def written : FileSystem :=
  files [output [(Utf8.encode "a", .directory [(Utf8.encode "Foo.wasm", .file bareModule)])]]

/-- The build up to linking. -/
theorem run_written (h : HostUnits) :
    (build h).run (writing bareModule) (⟨files [], ()⟩ : Site Unit) =
      ((build h).finish written [] [(source, none)], ⟨written, ()⟩) :=
  run_writing h bareModule

theorem isDirectory_written (h : HostUnits) : written.isDirectory (build h).outputRoot = true :=
  isDirectory_filesWith h bareModule

/-- The artifact is the module. -/
theorem read_written (h : HostUnits) : written.read ((build h).artifactOf source) = .ok bareModule := by
  cbv

theorem resourcesBelow_written (h : HostUnits) :
    written.resourcesBelow (build h).outputRoot = .ok [name.resourceName "wasm"] :=
  resourcesBelow_filesWith h bareModule

/-- The build is finished, and its unit is compiled. -/
theorem exists_finish_written (h : HostUnits) : ∃ g e,
    (build h).finish written [] [(source, none)] = .ok g ∧ e ∈ g.catalog.compiled ∧ e.name = name :=
  exists_finish_of_bare h written (isDirectory_written h) (resourcesBelow_written h) (read_written h) rfl

/-- The compiled unit comes from its artifact, and not from the host. -/
theorem fresh_run_one_file : ∃ h : HostUnits, h.Defined ∧ (h.lookup "a.Foo").isSome ∧
    (files []).root.Tidy ∧ (writing bareModule : Compiler Unit).Confined ∧ ∃ g,
      (build h).run (writing bareModule) (⟨files [], ()⟩ : Site Unit) = (.ok g, ⟨written, ()⟩) ∧
      ∃ e ∈ g.catalog.compiled, e.name.text = "a.Foo" ∧
        e.unit.origin = .container (build h).outputRoot := by
  obtain ⟨h, hdefined, hfound⟩ := HostUnits.exists_defined
  obtain ⟨g, e, hfinish, he, hname⟩ := exists_finish_written h
  have hrun := run_written h
  rw [hfinish] at hrun
  have hempty : ((build h).cleared (⟨files [], ()⟩ : Site Unit)).files.list (build h).outputRoot =
      .ok [] := by cbv
  obtain ⟨found, -, hbacks, -⟩ := fresh_run (writing bareModule) (build h) hdefined tidy_files
    (confined_writing bareModule) hempty hrun
  obtain ⟨u, -, hu⟩ := hbacks (show "wasm".toList ≠ [] by decide)
    (show '\\' ∉ "wasm".toList by decide) e he
  have htext : name.text = "a.Foo" := by decide
  exact ⟨h, hdefined, hfound, tidy_files, confined_writing bareModule, g, hrun, e, he,
    hname ▸ htext, hu.origin_eq⟩

end OneFile

end Build

end LiveUnits
