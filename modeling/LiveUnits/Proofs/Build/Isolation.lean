import Mathlib
import LiveUnits.Proofs.Build.Accounting

/-!
# One source file does not hold up the others

Once the roots are accepted and the source files are known, a build gets to the end, whatever the
compiler says about single files: every unit is handed to the compiler, a failure is reported as one,
and what was compiled is linked (`Build.run_carries_on`).

Three things end a build all the same.  A directory above an artifact cannot be made
(`Build.Walled`); what a failed call left cannot be removed (`Build.Stuck`); or, after a failed call,
the operating system refuses the path of the artifact as such, so that nothing can be there, and still
the removal fails (`Build.Astray`).  A confined compiler with an empty output root meets the last one
only if the path of the artifact is too long, has too long a name, or holds a NUL byte.
-/

namespace LiveUnits

namespace Build

open FileSystem

variable {σ : Type}

/-! ## What can end a build -/

section Obstacles

variable (c : Compiler σ) (b : Build) (units : List SourceUnit) (site : Site σ)

/-- A directory above the artifact of a unit that was reached cannot be made. -/
def Walled (parent : Path) (f : Fault) : Prop :=
  ∃ u before artifact, Reached c b units site u before ∧
    u.identity.artifactPath? b.outputRoot b.settings.artifactExtension = some artifact ∧
    artifact.parent? = some parent ∧ (before.files.makeDirectories parent).fault = some f

/-- Something is at the place of the artifact after a failed call and cannot be removed. -/
def Stuck (artifact : Path) (f : Fault) : Prop :=
  ∃ u ready verdict left e l x, Called c b units site u artifact ready verdict left ∧
    inspect artifact left.files verdict = .failed e ∧
    left.files.locate false artifact = .ok (.found l x) ∧
    (left.files.discard artifact).fault = some f

/-- The path of the artifact of a failed call cannot be followed. -/
def Astray (artifact : Path) (f : Fault) : Prop :=
  ∃ u ready verdict left e, Called c b units site u artifact ready verdict left ∧
    inspect artifact left.files verdict = .failed e ∧
    left.files.locate false artifact = .error f ∧ f ≠ .notFound

end Obstacles

/-- A path that the operating system refuses because of its spelling. -/
def Refused (p : Path) : Prop :=
  0 ∈ p.bytes ∨ pathLimit < p.bytes.length ∨ ∃ n, p.fileName? = some n ∧ nameLimit < n.length

section Obstacles

variable {c : Compiler σ} {b : Build} {units : List SourceUnit} {u : SourceUnit} {L : Location}
  {pending : List Identity} {site ready : Site σ}

/-- **The way to an artifact is open** once there is room for it. -/
theorem isDirectory_front (hextension : '/' ∉ b.settings.artifactExtension.toList)
    (hready : ready.files.Staged b.outputRoot L)
    (h : makeRoom (b.artifactOf u) site = (.ok (), ready)) :
    ready.files.isDirectory (b.outputRoot.descend (u.identity.segments.dropLast.map Utf8.encode)) =
      true := by
  cases hfront : (u.identity.segments.dropLast.map Utf8.encode) using List.reverseRecOn with
  | nil =>
      obtain ⟨entries, harrives⟩ := hready.arrives
      exact isDirectory_eq_true.mpr ⟨L, entries, harrives⟩
  | append_singleton front m =>
      have hm : PlainName m := (Identity.plain_of_mem_front (by rw [hfront]; simp)).1
      have hlast := Identity.plain_artifactName u.identity.valid_simpleName hextension
      have hparent : (b.artifactOf u).parent? = some (b.outputRoot.descend (front ++ [m])) := by
        unfold artifactOf Identity.artifactNames
        rw [hfront, Path.descend_append, Path.descend_concat,
          Path.descend_cons, Path.descend_nil]
        exact Path.parent?_joinBytes_joinBytes _ hm hlast
      have hspelt : b.outputRoot.descend (front ++ [m]) = (b.outputRoot.descend front).joinBytes m := by
        rw [Path.descend_concat]
      unfold makeRoom at h
      rw [hparent] at h
      have hfault : (site.files.makeDirectories (b.outputRoot.descend (front ++ [m]))).fault = none := by
        cases hfault : (site.files.makeDirectories (b.outputRoot.descend (front ++ [m]))).fault with
        | none => rfl
        | some f =>
            simp only [prepare, hfault] at h
            cases h
      rw [ok_of_prepare h]
      refine isDirectory_of_makeDirectories hfault ?_ ?_
      · rw [hspelt]
        exact Path.bytes_joinBytes_ne_nil _ hm
      · unfold Path.parent?
        rw [hspelt, Path.components_joinBytes _ hm, List.getLast?_concat]
        rfl

/-- **A confined compiler with an empty output root** is led astray only by paths that are refused as
such. -/
theorem refused_of_astray (hc : c.Confined) (hne : b.settings.artifactExtension.toList ≠ [])
    (hextension : '/' ∉ b.settings.artifactExtension.toList)
    (hdistinct : (units.map (·.identity)).Nodup)
    (hready : site.files.Ready b.outputRoot L b.settings.artifactExtension (units.map (·.identity)))
    {artifact : Path} {f : Fault} (h : Astray c b units site artifact f) : Refused artifact := by
  obtain ⟨u, ready, verdict, left, e, ⟨⟨before, hreached, hroom⟩, hartifact, hcall⟩, -, hlocate, -⟩ := h
  have hspelt := u.identity.artifactPath?_eq b.outputRoot hne hextension
  obtain rfl : b.artifactOf u = artifact := Option.some.inj (hspelt.symm.trans hartifact)
  obtain ⟨pending, hnew, hbefore⟩ := ready_reached hc hne hextension hdistinct hready hreached
  obtain ⟨-, hmade⟩ := ready_makeRoom hextension hbefore hroom
  obtain ⟨hkept, -⟩ := ready_call hc hextension hnew hmade hcall
  have hfront := hkept.isDirectory (isDirectory_front hextension hmade.staged hroom)
  have hlast := Identity.plain_artifactName u.identity.valid_simpleName hextension
  have hjoined : b.artifactOf u =
      (b.outputRoot.descend (u.identity.segments.dropLast.map Utf8.encode)).joinBytes
        (Utf8.encode u.identity.simpleName ++ fullStop :: Utf8.encode b.settings.artifactExtension) := by
    unfold artifactOf Identity.artifactNames
    rw [Path.descend_concat]
  by_contra hrefused
  unfold Refused at hrefused
  rw [not_or, not_or, Nat.not_lt] at hrefused
  obtain ⟨hnul, hshort, hname⟩ := hrefused
  have haccepted : Accepted (b.artifactOf u) :=
    ⟨hnul, hjoined ▸ Path.bytes_joinBytes_ne_nil _ hlast, hshort⟩
  have hlength : (Utf8.encode u.identity.simpleName ++
      fullStop :: Utf8.encode b.settings.artifactExtension).length ≤ nameLimit := by
    by_contra hlong
    exact hname ⟨_, hjoined ▸ Path.fileName?_joinBytes _ hlast, Nat.not_le.mp hlong⟩
  obtain ⟨spot, hspot⟩ := exists_locate_joinBytes hfront hlast hlength (hjoined ▸ haccepted)
  unfold locate at hlocate
  rw [not_trailing_artifactOf hextension, hjoined, hspot] at hlocate
  cases hlocate

/-- **What ends a build among the calls**, if the compiler never breaks down. -/
theorem obstacle_of_error (hcalm : ∀ i site, (c i site).1 ≠ .crashed)
    (hne : b.settings.artifactExtension.toList ≠ [])
    (hextension : '/' ∉ b.settings.artifactExtension.toList) {halt : Halt} {site' : Site σ}
    (h : b.compileAll c units site = (.error halt, site')) :
    ∃ p f, halt = .error (.outputPreparation p f) ∧
      (Walled c b units site p f ∨ Stuck c b units site p f ∨ Astray c b units site p f) := by
  obtain ⟨u, before, hreached, hcompile⟩ := exists_reached_of_error h
  have hartifact : u.identity.artifactPath? b.outputRoot b.settings.artifactExtension =
      some (b.artifactOf u) := u.identity.artifactPath?_eq b.outputRoot hne hextension
  rcases error_of_compile hartifact hcompile with
    ⟨parent, f, hparent, hf, hhalt⟩ | ⟨ready, hroom, hinvoke⟩
  · exact ⟨parent, f, hhalt, .inl ⟨u, before, b.artifactOf u, hreached, hartifact, hparent, hf⟩⟩
  · obtain ⟨verdict, left, hcall, ⟨hcrash, -⟩ | ⟨e, f, hfailed, hf, hhalt⟩⟩ := error_of_invoke hinvoke
    · have hverdict := hcalm ⟨u, b.outputRoot, b.artifactOf u⟩ ready
      rw [hcall] at hverdict
      exact absurd hcrash hverdict
    · have hcalled : Called c b units site u (b.artifactOf u) ready verdict left :=
        ⟨⟨before, hreached, hroom⟩, hartifact, hcall⟩
      refine ⟨b.artifactOf u, f, hhalt, .inr ?_⟩
      rcases fault_discard (not_trailing_artifactOf hextension) hf with
        ⟨l, x, hfound⟩ | ⟨hlocate, hf'⟩
      · exact .inl ⟨u, ready, verdict, left, e, l, x, hcalled, hfailed, hfound, hf⟩
      · exact .inr ⟨u, ready, verdict, left, e, hcalled, hfailed, hlocate, hf'⟩

end Obstacles

end Build

/-- How a generation reports on a unit that was handed to the compiler: as a failed source, or, after
it was resolved, as a compiled unit or a failed link. -/
def Generation.Reports (g : Generation) (u : SourceUnit) : Option CompileError → Prop
  | some e => ⟨u.path, some u.identity, e⟩ ∈ g.failedSources
  | none =>
    (∃ entry ∈ g.catalog.compiled, entry.name = u.identity ∧ entry.sourceFile = some u.path) ∨
      ∃ f ∈ g.failedLinks, f.identity = u.identity ∧ f.sourceFile = u.path

/-- Every source file was taken into account: it was handed to the compiler and what came of it is
reported, or it was refused because its path spells no identity. -/
structure Generation.Carries (g : Generation) {σ : Type} (c : Compiler σ) (b : Build) (found : Findings)
    (site : Site σ) : Prop where
  /-- Every unit was handed to the compiler, and what was seen afterwards is reported. -/
  called : ∀ u ∈ found.units, ∃ artifact ready verdict left outcome,
    b.Called c found.units site u artifact ready verdict left ∧
      Build.Shows artifact left.files verdict outcome ∧ g.Reports u outcome
  /-- A file whose path spells no identity is a failed source. -/
  refused : ∀ path error, .invalidIdentity path error ∈ found.issues →
    ⟨path, none, .invalidIdentity error⟩ ∈ g.failedSources

namespace Build

open FileSystem

variable {σ : Type}

section Carrying

variable {c : Compiler σ} {b : Build} {found : Findings} {site : Site σ} {fs : FileSystem}
  {outcomes : List (SourceUnit × Option CompileError)} {g : Generation}

/-- **A finished build reports on every unit.** -/
theorem reports_finish
    (horderly : Search.Orderly ⟨b.sourceRoot, b.settings.sourceExtension⟩ found)
    (hunits : outcomes.map (·.1) = found.units) (h : b.finish fs found.issues outcomes = .ok g)
    {u : SourceUnit} {outcome : Option CompileError} (hu : (u, outcome) ∈ outcomes) :
    g.Reports u outcome := by
  obtain ⟨entries, failures, linked, hlink, hcatalog, -, hsources, hlinks⟩ := finish_eq_ok h
  cases outcome with
  | some e =>
      show _ ∈ g.failedSources
      rw [hsources, List.mem_mergeSort]
      exact List.mem_append_right _ (List.mem_filterMap.mpr ⟨(u, some e), hu, rfl⟩)
  | none =>
      obtain ⟨-, hperm, -⟩ := link_accounts (steady_session _ fs) (Loader.reliable_start _) hlink
      have hnames := names_nodup horderly hunits hperm
      obtain ⟨hcompiled, -⟩ := compiled_make (l := b.linker fs) (r := linked) hnames.of_append_left
      rw [← hcatalog] at hcompiled
      have hunit : u ∈ compiledUnits outcomes :=
        List.mem_map.mpr ⟨(u, none), List.mem_filter.mpr ⟨hu, rfl⟩, rfl⟩
      have hpair := hperm.mem_iff.mpr
        (List.mem_map_of_mem (f := fun u : SourceUnit => (u.identity, some u.path)) hunit)
      rcases List.mem_append.mp hpair with hentry | hfailure
      · obtain ⟨entry, hentry, hsame⟩ := List.mem_map.mp hentry
        exact .inl ⟨entry, hcompiled.mem_iff.mpr hentry, Prod.mk.inj hsame⟩
      · obtain ⟨f, hf, hsame⟩ := List.mem_map.mp hfailure
        obtain ⟨hname, hsource⟩ := Prod.mk.inj hsame
        refine .inr ⟨f, ?_, hname, Option.some.inj hsource⟩
        rw [hlinks, List.mem_mergeSort]
        exact hf

/-- A build that is not finished was brought down by a container. -/
theorem breaksDown_of_finish {issues : List DiscoveryIssue} {halt : Halt}
    (h : b.finish fs issues outcomes = .error halt) :
    halt = .crashed ∧ ∃ names r, (b.linker fs).breaksDown names r = true := by
  unfold finish at h
  simp only at h
  split at h
  · next hbreaks =>
    refine ⟨(Except.error.inj h).symm, ?_⟩
    rcases Bool.or_eq_true _ _ ▸ hbreaks with hbreaks | hbreaks
    · exact ⟨_, _, hbreaks⟩
    · exact ⟨_, _, hbreaks⟩
  · cases h

/-- **A build that gets through carries every source file**: its calls were made, and their outcomes are
reported. -/
theorem carries_of_ok
    (horderly : Search.Orderly ⟨b.sourceRoot, b.settings.sourceExtension⟩ found)
    {site' : Site σ} (hcompile : b.compileAll c found.units site = (.ok outcomes, site'))
    (hfinish : b.finish fs found.issues outcomes = .ok g) : g.Carries c b found site := by
  have hunits := units_of_compileAll hcompile
  refine ⟨fun u hu => ?_, fun path error hissue => ?_⟩
  · obtain ⟨⟨v, outcome⟩, houtcome, rfl⟩ := List.mem_map.mp (hunits ▸ hu)
    obtain ⟨artifact, ready, verdict, left, hcalled, hshows⟩ := exists_called hcompile houtcome
    exact ⟨artifact, ready, verdict, left, outcome, hcalled, hshows,
      reports_finish horderly hunits hfinish houtcome⟩
  · obtain ⟨entries, failures, linked, -, -, -, hsources, -⟩ := finish_eq_ok hfinish
    rw [hsources, List.mem_mergeSort]
    exact List.mem_append_left _ (List.mem_filterMap.mpr ⟨_, hissue, rfl⟩)

end Carrying

/-- **One source file does not hold up the others.**  Once the roots have been accepted, the output
root has been prepared and the source files are known, the build ends in one of three ways.  It gets
through and reports on every file; or a place for an artifact cannot be made or cleared; or a container
brings it down while units are linked.  The third obstacle is not there to be removed: the path of the
artifact is refused as such. -/
theorem run_carries_on (c : Compiler σ) (b : Build) {site : Site σ} (htidy : site.files.root.Tidy)
    (hcalm : ∀ i site, (c i site).1 ≠ .crashed) (hne : b.settings.artifactExtension.toList ≠ [])
    (hextension : '/' ∉ b.settings.artifactExtension.toList)
    (hroots : site.files.liesInside b.sourceRoot b.outputRoot = false)
    (hcleared : (site.files.clear b.outputRoot).fault = none) {found : Findings}
    (hfound : (b.cleared site).files.discover b.sourceRoot b.settings.sourceExtension = .ok found) :
    match b.run c site with
    | (.ok g, _) => g.Carries c b found (b.cleared site)
    | (.error (.error (.outputPreparation p f)), _) =>
      Walled c b found.units (b.cleared site) p f ∨ Stuck c b found.units (b.cleared site) p f ∨
        Astray c b found.units (b.cleared site) p f ∧
          (c.Confined → (b.cleared site).files.list b.outputRoot = .ok [] → Refused p)
    | (.error .crashed, site') => ∃ names r, (b.linker site'.files).breaksDown names r = true
    | (.error (.error _), _) => False := by
  have htidy' : (b.cleared site).files.root.Tidy := tidy_clear htidy b.outputRoot
  have horderly := orderly_discover htidy' hfound
  rw [run_phases, if_neg (by rw [hroots]; exact Bool.false_ne_true), hcleared, hfound]
  simp only
  rw [Attempt.bind_run]
  cases hcompile : b.compileAll c found.units (b.cleared site) with
  | mk outcome site' =>
      cases outcome with
      | error halt =>
          obtain ⟨p, f, rfl, hobstacle⟩ := obstacle_of_error hcalm hne hextension hcompile
          rcases hobstacle with hwalled | hstuck | hastray
          · exact .inl hwalled
          · exact .inr (.inl hstuck)
          · refine .inr (.inr ⟨hastray, fun hc hempty => ?_⟩)
            obtain ⟨L, hready⟩ := ready_of_empty hempty b.settings.artifactExtension
              (found.units.map (·.identity))
            exact refused_of_astray hc hne hextension horderly.identities_nodup hready hastray
      | ok outcomes =>
          simp only [conclude]
          cases hfinish : b.finish site'.files found.issues outcomes with
          | ok g => exact carries_of_ok horderly hcompile hfinish
          | error halt =>
              obtain ⟨rfl, hbreaks⟩ := breaksDown_of_finish hfinish
              exact hbreaks

/-! ## A file that fails and a file that is compiled

The compiler refuses the first file and writes a module with nothing in it for the second one. -/

/-- The compiler that compiles nothing and touches nothing. -/
def refusing : Compiler σ := fun _ site => (.failed (.diagnostic "refused"), site)

/-- A compiler that touches nothing is confined. -/
theorem confined_refusing : (refusing : Compiler σ).Confined := by
  intro i site
  unfold Compiler.ConfinedAt refusing
  cases site.files.locate false i.artifact with
  | error f => rfl
  | ok spot => exact Apart.refl spot.location site.files

/-- The compiler that compiles nothing never breaks down. -/
theorem calm_refusing (i : Invocation) (site : Site σ) : (refusing i site).1 ≠ .crashed := nofun

/-- The bytes of a module that refers to nothing. -/
def bareModule : Bytes := [0, 0x61, 0x73, 0x6D, 1, 0, 0, 0]

/-- The module can be read under any name, and declares nothing. -/
theorem declared_bareModule (n : Identity) :
    Linkage.declared n bareModule = .ok ⟨{}, { imports := [], exports := [] }⟩ := by cbv

/-- A module that refers to nothing can be linked. -/
theorem resolve_of_bare {l : Loader} {n : Identity} {r : Registry} {root : Path} {after : Nat}
    (hopen : r.Open n)
    (hscan : l.scanFor n r.counters.lookups = (.ok (some ⟨root, bareModule⟩), after)) :
    ∃ u r', l.resolve n r = (.ok u, r') ∧ u.name = n := by
  have hstep := l.resolveAt_step [] n r
  unfold Loader.resolve
  generalize l.resolveAt [] n r = result at hstep ⊢
  have hfound : ∀ {found : Found} {after' : Nat}, l.scanFor n r.counters.lookups =
      (.ok (some found), after') → found.bytes = bareModule := by
    intro found after' hscan'
    obtain rfl := Option.some.inj (Except.ok.inj (Prod.mk.inj (hscan.symm.trans hscan')).1)
    rfl
  cases hstep with
  | registered hu =>
      rw [hopen.1] at hu
      cases hu
  | delegated _ hn => exact absurd hn hopen.2
  | loop _ hn => cases hn
  | unreadable _ _ hread => cases hscan.symm.trans hread
  | absent _ _ habsent => cases hscan.symm.trans habsent
  | broken _ _ hbytes hlink =>
      unfold Loader.linkFound at hlink
      rw [hfound hbytes, Linkage.materialise_alone _ _ (declared_bareModule n) rfl rfl] at hlink
      cases hlink
  | linked _ _ hbytes hlink =>
      unfold Loader.linkFound at hlink
      rw [hfound hbytes, Linkage.materialise_alone _ _ (declared_bareModule n) rfl rfl] at hlink
      obtain ⟨hunit, -⟩ := Prod.mk.inj hlink
      obtain rfl := Except.ok.inj hunit
      exact ⟨_, _, rfl, rfl⟩

/-- The compiler that refuses one unit. -/
def sparing (refused : Identity) : Compiler σ := fun i site =>
  if i.source.identity = refused then refusing i site else writing bareModule i site

/-- Each of its calls is that of a confined compiler. -/
theorem confined_sparing (refused : Identity) : (sparing refused : Compiler σ).Confined := by
  intro i site
  unfold Compiler.ConfinedAt
  by_cases h : i.source.identity = refused
  · rw [show sparing refused i site = refusing i site from if_pos h]
    exact confined_refusing i site
  · rw [show sparing refused i site = writing bareModule i site from if_neg h]
    exact confined_writing bareModule i site

/-- The compiler that refuses one unit never breaks down. -/
theorem calm_sparing {refused : Identity} (i : Invocation) (site : Site σ) :
    (sparing refused i site).1 ≠ .crashed := by
  unfold sparing writing
  split
  · exact calm_refusing i site
  · split <;> nofun

namespace OneFile

/-- **A build with one artifact is finished** if that is a module that refers to nothing, and its unit is
compiled. -/
theorem exists_finish_of_bare (h : HostUnits) (fs : FileSystem)
    (hroot : fs.isDirectory (build h).outputRoot = true)
    (hlist : fs.resourcesBelow (build h).outputRoot = .ok [name.resourceName "wasm"])
    (hread : fs.read ((build h).artifactOf source) = .ok bareModule)
    {outcomes : List (SourceUnit × Option CompileError)} (hunits : compiledUnits outcomes = [source]) :
    ∃ g e, (build h).finish fs [] outcomes = .ok g ∧ e ∈ g.catalog.compiled ∧ e.name = name := by
  have hscan := scanFor_of_read (u := source) hroot
    (show '/' ∉ "wasm".toList by decide) (show '\\' ∉ "wasm".toList by decide) hread 0
  obtain ⟨u, r, hresolve, hname⟩ := resolve_of_bare (r := {}) ⟨rfl, List.not_mem_nil⟩ hscan
  have hlink : link ((build h).linker fs) (compiledUnits outcomes) {} =
      (([⟨u, some source.path⟩], []), r) := by
    rw [hunits]
    unfold link
    rw [hresolve]
    rfl
  have hfirst : ((build h).linker fs).breaksDown ((compiledUnits outcomes).map (·.identity)) {} =
      false := by
    rw [hunits]
    show ((build h).linker fs).breaksDown [source.identity] {} = false
    unfold Loader.breaksDown
    rw [hresolve]
    rfl
  -- the only listed name is that of the compiled unit
  have hrest : Catalog.uncompiled ((build h).linker fs)
      (Catalog.make ((build h).linker fs) [⟨u, some source.path⟩] r).1.compiled = [] := by
    refine List.filter_eq_nil_iff.mpr fun n hn => ?_
    obtain rfl := eq_name_of_available hroot hlist hn
    show ¬ (Catalog.find? [⟨u, some source.path⟩] name.text).isNone = true
    unfold Catalog.find?
    rw [List.find?_cons_of_pos (by simp [CatalogEntry.text, hname, source])]
    exact Bool.false_ne_true
  obtain ⟨g, hg⟩ := exists_finish_of_unbroken [] outcomes hlink hfirst (by rw [hrest]; rfl)
  refine ⟨g, ⟨u, some source.path⟩, hg, ?_, hname⟩
  obtain ⟨entries, failures, linked, hlinked, hcatalog, -⟩ := finish_eq_ok hg
  rw [hlink] at hlinked
  obtain ⟨hlists, -⟩ := Prod.mk.inj hlinked
  obtain ⟨rfl, -⟩ := Prod.mk.inj hlists
  rw [hcatalog]
  exact List.mem_singleton_self _

/-- Another source file. -/
def other : SourceUnit := ⟨.ofString "s/Bar.src", .ofString "Bar.src", ⟨["Bar"], by decide, by decide⟩⟩

/-- The files with the other source file, given what else is in the working directory. -/
def both (others : List (Name × Node)) : FileSystem :=
  let source : Node := .directory [(Utf8.encode "Foo.src", .file [])]
  let sources : Node := .directory [(Utf8.encode "Bar.src", .file []), (Utf8.encode "a", source)]
  ⟨.directory ((Utf8.encode "s", sources) :: others), []⟩

/-- The files that the build of both leaves. -/
def spared : FileSystem :=
  both [output [(Utf8.encode "a", .directory [(Utf8.encode "Foo.wasm", .file bareModule)])]]

theorem tidy_both : (both []).root.Tidy := by
  have hfile : (Node.directory [(Utf8.encode "Foo.src", .file [])]).Tidy :=
    .singleton ⟨by decide, by decide, by decide, by decide⟩ (.file [])
  refine .singleton ⟨by decide, by decide, by decide, by decide⟩ (.directory ?_ (by decide) ?_)
  · simp only [List.forall_mem_cons]
    exact ⟨⟨by decide, by decide, by decide, by decide⟩, ⟨by decide, by decide, by decide, by decide⟩,
      nofun⟩
  · simp only [List.forall_mem_cons]
    exact ⟨.file _, hfile, nofun⟩

theorem liesInside_both (h : HostUnits) :
    (both []).liesInside (build h).sourceRoot (build h).outputRoot = false := by cbv

/-- The preparation makes an empty output root. -/
theorem clear_both (h : HostUnits) :
    (both []).clear (build h).outputRoot = ⟨none, both [output []]⟩ := by cbv

/-- Both files are found, the other one first. -/
theorem discover_both (h : HostUnits) : (both [output []]).discover (build h).sourceRoot
    (build h).settings.sourceExtension = .ok ⟨[other, source], []⟩ := by cbv

/-- The build of both files, up to linking. -/
theorem run_sparing (h : HostUnits) :
    (build h).run (sparing other.identity) (⟨both [], ()⟩ : Site Unit) =
      ((build h).finish spared [] [(other, some (.diagnostic "refused")), (source, none)],
        ⟨spared, ()⟩) := by
  have hcompile : (build h).compileAll (sparing other.identity) [other, source]
      (⟨both [output []], ()⟩ : Site Unit) =
        (.ok [(other, some (.diagnostic "refused")), (source, none)], ⟨spared, ()⟩) := by cbv
  rw [run_phases]
  simp only [cleared, liesInside_both, clear_both, discover_both, Bool.false_eq_true, if_false]
  rw [Attempt.bind_run, hcompile]
  rfl

/-! ## A name that no file can have

The compiler fails and leaves nothing, but the removal of the artifact is refused. -/

/-- The build, with an extension for artifacts that no name of a file can have. -/
def unnameable : Build :=
  { build {} with settings := { sourceExtension := "src", artifactExtension := "\x00" } }

/-- Where the artifact would be. -/
def nowhere : Path := ⟨Utf8.encode "o/a/Foo.\x00"⟩

/-- The preparation makes an empty output root. -/
theorem cleared_unnameable :
    unnameable.cleared (⟨files [], ()⟩ : Site Unit) = ⟨files [output []], ()⟩ := by cbv

/-- The call leaves nothing, and the build ends with what the removal says. -/
theorem run_unnameable :
    unnameable.run refusing (⟨files [], ()⟩ : Site Unit) =
      (.error (.error (.outputPreparation nowhere .interiorNul)),
        ⟨files [output [(Utf8.encode "a", .directory [])]], ()⟩) := by
  have hcompile : unnameable.compileAll refusing [source] (⟨files [output []], ()⟩ : Site Unit) =
      (.error (.error (.outputPreparation nowhere .interiorNul)),
        ⟨files [output [(Utf8.encode "a", .directory [])]], ()⟩) := by cbv
  have hcalls : unnameable.run refusing (⟨files [], ()⟩ : Site Unit) =
      (unnameable.compileAll refusing [source] >>= unnameable.conclude []) ⟨files [output []], ()⟩ :=
    run_calls {} rfl refusing
  rw [hcalls, Attempt.bind_run, hcompile]

/-- **One file fails and the other one is compiled.**  But a failed compilation that leaves nothing ends
the build if the name of the artifact is refused. -/
theorem run_carries_on_unnameable :
    ((files []).root.Tidy ∧ (refusing : Compiler Unit).Confined ∧
      (files []).liesInside unnameable.sourceRoot unnameable.outputRoot = false ∧
      ((files []).clear unnameable.outputRoot).fault = none ∧ ∃ p f site',
        unnameable.run refusing (⟨files [], ()⟩ : Site Unit) =
          (.error (.error (.outputPreparation p f)), site') ∧
        (Walled refusing unnameable [source] (⟨files [output []], ()⟩ : Site Unit) p f ∨
          Stuck refusing unnameable [source] (⟨files [output []], ()⟩ : Site Unit) p f ∨
          Astray refusing unnameable [source] (⟨files [output []], ()⟩ : Site Unit) p f ∧ Refused p)) ∧
    (both []).root.Tidy ∧ (sparing other.identity : Compiler Unit).Confined ∧ ∃ g,
      (build {}).run (sparing other.identity) (⟨both [], ()⟩ : Site Unit) = (.ok g, ⟨spared, ()⟩) ∧
        g.Carries (sparing other.identity) (build {}) ⟨[other, source], []⟩
          (⟨both [output []], ()⟩ : Site Unit) ∧
        (∃ f ∈ g.failedSources, f.identity = some other.identity) ∧
        ∃ e ∈ g.catalog.compiled, e.name = name := by
  refine ⟨?_, tidy_both, confined_sparing _, ?_⟩
  · have hroots : (files []).liesInside unnameable.sourceRoot unnameable.outputRoot = false := by cbv
    have hcleared : ((files []).clear unnameable.outputRoot).fault = none := by cbv
    have hfound : (unnameable.cleared (⟨files [], ()⟩ : Site Unit)).files.discover
        unnameable.sourceRoot unnameable.settings.sourceExtension = .ok ⟨[source], []⟩ := by cbv
    have hempty : (files [output []]).list unnameable.outputRoot = .ok [] := by cbv
    have hends := @run_carries_on _ refusing unnameable ⟨files [], ()⟩ tidy_files calm_refusing
      (show "\x00".toList ≠ [] by decide) (show '/' ∉ "\x00".toList by decide) hroots hcleared _ hfound
    rw [run_unnameable, cleared_unnameable] at hends
    refine ⟨tidy_files, confined_refusing, hroots, hcleared, _, _, _, run_unnameable, ?_⟩
    exact hends.imp_right (Or.imp_right fun hastray =>
      ⟨hastray.1, hastray.2 confined_refusing hempty⟩)
  · have hcleared : ((both []).clear (build {}).outputRoot).fault = none := by rw [clear_both]
    have hprepared : (build {}).cleared (⟨both [], ()⟩ : Site Unit) = ⟨both [output []], ()⟩ := by
      rw [cleared, clear_both]
    have hfound : ((build {}).cleared (⟨both [], ()⟩ : Site Unit)).files.discover (build {}).sourceRoot
        (build {}).settings.sourceExtension = .ok ⟨[other, source], []⟩ := by
      rw [hprepared, discover_both]
    obtain ⟨g, e, hfinish, he, hname⟩ := exists_finish_of_bare {} spared (by cbv) (by cbv) (by cbv)
      (show compiledUnits [(other, some (.diagnostic "refused")), (source, none)] = [source] from rfl)
    have hrun := run_sparing {}
    rw [hfinish] at hrun
    have hends := @run_carries_on _ (sparing other.identity) (build {}) ⟨both [], ()⟩ tidy_both calm_sparing
      (show "wasm".toList ≠ [] by decide) (show '/' ∉ "wasm".toList by decide) (liesInside_both {})
      hcleared _ hfound
    rw [hrun, hprepared] at hends
    refine ⟨g, hrun, hends, ⟨⟨other.path, some other.identity, .diagnostic "refused"⟩, ?_, rfl⟩, e, he,
      hname⟩
    obtain ⟨_, _, _, -, -, -, hsources, -⟩ := finish_eq_ok hfinish
    rw [hsources, List.mem_mergeSort]
    exact List.mem_singleton_self _

end OneFile

end Build

end LiveUnits
