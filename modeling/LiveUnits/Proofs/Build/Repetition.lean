import LiveUnits.Proofs.Build.Freshness
import LiveUnits.Proofs.Catalog.Renaming
import LiveUnits.Proofs.FileSystem.Twins

/-!
# Builds repeat

A build comes to the same whatever an earlier one left in the output directory, and in whatever order
directories list their entries (`Build.repeats_run`).  Clearing makes two file systems look the same
that differ in the output directory only; a compiler that depends on what files look like keeps them so;
and what is found, compiled, linked and reported depends on nothing else.  The second build has its own
number, which shows in the handles of units and nowhere else, so both generations give the same answer
to every question (`Generation.Repeats.answers`).

This needs an output root that stands for the same place in both file systems: a directory, or a name
that its directory does not have.  A root may be spelt in a way in which only a directory that exists
can be spelt, such as `out/.`; then it depends on the directory how preparing it fails
(`Build.OneFile.dotted_run`).
-/

namespace LiveUnits

/-- A compiler whose calls come to the same wherever files look the same. -/
def Compiler.Respects {σ : Type} (c : Compiler σ) : Prop :=
  ∀ (i : Invocation) (site site' : Site σ), site.files.Same site'.files →
    (c i site').1 = (c i site).1 ∧ (c i site).2.files.Same (c i site').2.files

/-- A compiler that reads the source file, decides by its bytes and the identity whether there is an
artifact, and writes it.  The verdict may depend on whether that fails. -/
def Compiler.ofSource {σ : Type}
    (answer : Identity → Except Fault Bytes → Option Bytes × (Option Fault → Verdict)) : Compiler σ :=
  fun i site =>
    match answer i.source.identity (site.files.read i.source.path) with
    | (none, verdict) => (verdict none, site)
    | (some artifact, verdict) =>
      let written := site.files.write i.artifact artifact
      (verdict written.fault, { site with files := written.files })

/-- A compiler that depends on source bytes and identities, and writes artifacts only, respects what
files look like. -/
theorem Compiler.respects_ofSource {σ : Type}
    (answer : Identity → Except Fault Bytes → Option Bytes × (Option Fault → Verdict)) :
    (ofSource answer : Compiler σ).Respects := by
  intro i site site' hsame
  unfold ofSource
  rw [hsame.read i.source.path]
  obtain ⟨artifact, verdict⟩ := answer i.source.identity (site.files.read i.source.path)
  cases artifact with
  | none => exact ⟨rfl, hsame⟩
  | some artifact =>
      have hwritten := hsame.write i.artifact artifact
      exact ⟨congrArg verdict hwritten.fault, hwritten.files⟩

/-- The second generation is the first one with other handles; only the order of warnings may differ as
well. -/
structure Generation.Repeats (f : Handle → Handle) (g g' : Generation) : Prop where
  catalog : g'.catalog = g.catalog.relabel f
  /-- The session has the number of its build and gives other handles. -/
  session : g'.session = { g.session with number := g'.number, registry := g.session.registry.relabel f }
  failedSources : g'.failedSources = g.failedSources
  failedLinks : g'.failedLinks = g.failedLinks
  warnings : g.warnings.Perm g'.warnings

/-- Every question to the second generation has the answer of the first one, with other handles. -/
theorem Generation.Repeats.answers {m n : Nat} {g g' : Generation} (h : g.Repeats (Handle.swap m n) g') :
    (∀ name, g'.catalog.get? name = (g.catalog.get? name).map (CatalogEntry.relabel (Handle.swap m n))) ∧
    (∀ name, g'.catalog.sourceFileOf name = g.catalog.sourceFileOf name) ∧
    (∀ marker, g'.catalog.byMarker marker =
      (g.catalog.byMarker marker).map (CatalogEntry.relabel (Handle.swap m n))) ∧
    ∀ type, g'.catalog.byType type =
      (g.catalog.byType type).map (CatalogEntry.relabel (Handle.swap m n)) := by
  rw [h.catalog]
  exact ⟨Catalog.get?_relabel _ g.catalog, Catalog.sourceFileOf_relabel _ g.catalog,
    Catalog.byMarker_relabel _ g.catalog, Catalog.byType_relabel _ (Handle.swap_injective m n) g.catalog⟩

namespace Build

open FileSystem Attempt

variable {σ : Type} {c : Compiler σ} {b : Build} {number : Nat} {fs fs' : FileSystem}

/-- The build with another number. -/
def renumber (b : Build) (number : Nat) : Build := { b with number }

/-- Two file systems differ at most in the output directory, which does not hold the source files. -/
structure Twins (b : Build) (fs fs' : FileSystem) (L : Location) : Prop where
  left : fs.root.Tidy
  right : fs'.root.Tidy
  apart : Apart L fs fs'
  /-- The output root is a directory at the location, or missing there. -/
  output : fs.StandsFor b.outputRoot L
  output' : fs'.StandsFor b.outputRoot L
  /-- The source root does not lead into the output directory. -/
  source : ∀ S, fs.canonical b.sourceRoot = .ok S → ¬ L <+: S
  source' : ∀ S, fs'.canonical b.sourceRoot = .ok S → ¬ L <+: S
  /-- The source root is not spelt as if it were below the output root. -/
  spelt : ¬ b.outputRoot.components <+: b.sourceRoot.components
  located : ¬ .root :: L.map .name <+: b.sourceRoot.components

/-! ## Compiling -/

/-- Two sites where the files look the same. -/
abbrev SameFiles (site site' : Site σ) : Prop := site.files.Same site'.files

/-- What is changed alike is prepared alike. -/
theorem alike_prepare (p : Path) {f : FileSystem → Change}
    (hf : ∀ fs fs', Same fs fs' → (f fs).Same (f fs')) :
    Alike SameFiles Eq (prepare p f : Work σ Unit) (prepare p f) := by
  intro site site' hsame
  obtain ⟨fault, files, files', hc, hc', hfiles⟩ := (hf _ _ hsame).parts
  unfold prepare
  rw [hc, hc']
  cases fault with
  | none => exact ⟨hfiles, .ok rfl⟩
  | some fault => exact ⟨hfiles, .error _⟩

/-- What is seen at the place of an artifact is the same for both. -/
theorem inspect_eq (h : Same fs fs') (artifact : Path) (verdict : Verdict) :
    inspect artifact fs' verdict = inspect artifact fs verdict := by
  cases verdict with
  | compiled => simp only [inspect, h.isFile]
  | failed e => rfl
  | crashed => rfl

/-- A call with its clean-up treats both alike. -/
theorem alike_invoke (hc : c.Respects) (i : Invocation) :
    Alike SameFiles Eq (invoke c i) (invoke c i) := by
  intro site site' hsame
  obtain ⟨hverdict, hfiles⟩ := hc i site site' hsame
  unfold invoke
  generalize c i site = call, c i site' = call' at hverdict hfiles
  obtain ⟨verdict, between⟩ := call
  obtain ⟨verdict', between'⟩ := call'
  obtain rfl : verdict' = verdict := hverdict
  simp only [inspect_eq hfiles]
  cases inspect i.artifact between.files verdict' with
  | compiled => exact ⟨hfiles, .ok rfl⟩
  | crashed => exact ⟨hfiles, .error _⟩
  | failed e =>
      refine Alike.bind (alike_prepare i.artifact fun _ _ h => h.discard i.artifact) ?_ _ _ hfiles
      exact fun _ _ _ => Alike.pure rfl

theorem alike_makeRoom (artifact : Path) :
    Alike SameFiles Eq (makeRoom artifact : Work σ Unit) (makeRoom artifact) := by
  unfold makeRoom
  cases artifact.parent? with
  | none => exact Alike.pure rfl
  | some parent => exact alike_prepare parent fun _ _ h => h.makeDirectories parent

theorem alike_compile (hc : c.Respects) (u : SourceUnit) :
    Alike SameFiles Eq (b.compile c u) (b.compile c u) := by
  rw [compile_eq]
  cases u.identity.artifactPath? b.outputRoot b.settings.artifactExtension with
  | none => exact fun _ _ hsame => ⟨hsame, .error _⟩
  | some artifact => exact Alike.bind (alike_makeRoom artifact) fun _ _ _ => alike_invoke hc _

/-- **Compiling comes to the same** wherever files look the same. -/
theorem alike_compileAll (hc : c.Respects) (units : List SourceUnit) :
    Alike SameFiles Eq (b.compileAll c units) ((b.renumber number).compileAll c units) := by
  induction units with
  | nil => exact Alike.pure rfl
  | cons u rest ih =>
      refine Alike.bind (alike_compile (b := b) hc u) ?_
      rintro outcome _ rfl
      refine Alike.bind ih ?_
      rintro others _ rfl
      exact Alike.pure rfl

/-! ## Linking -/

/-- The same containers can be opened in both. -/
theorem media_eq (h : Same fs fs') (paths : List Path) :
    Medium.openAll fs' paths = Medium.openAll fs paths := by
  have hopened : Medium.openAt fs' = Medium.openAt fs := funext h.openAt
  unfold Medium.openAll
  rw [hopened]

/-- The loaders of both builds differ in number and order only. -/
theorem renamed_linker (hhost : b.host.Defined) (h : Same fs fs') :
    (b.linker fs).Renamed (Handle.swap b.number number) ((b.renumber number).linker fs') where
  containers := by
    show List.Forall₂ Container.Twins (List.map _ (Medium.openAll fs _).1)
      (List.map _ (Medium.openAll fs' _).1)
    rw [media_eq h]
    refine List.forall₂_map_left_iff.mpr (List.forall₂_map_right_iff.mpr ?_)
    exact List.forall₂_same.mpr fun m _ => m.twins h
  host := rfl
  extension := rfl
  fixed := fun _ hu => hhost.closed.relabel_swap hu b.number number
  numbered := Handle.swap_loader b.number number

section Linking

variable {f : Handle → Handle} {l l' : Loader}

/-- Linking gives the same entries and failures, but for the numbers in handles. -/
theorem link_eq (h : l.Renamed f l') (units : List SourceUnit) (r : Registry) :
    link l' units (r.relabel f) =
      (((link l units r).1.1.map (CatalogEntry.relabel f), (link l units r).1.2),
        (link l units r).2.relabel f) := by
  induction units generalizing r with
  | nil => rfl
  | cons u rest ih =>
      unfold link
      rw [h.resolve_eq]
      cases l.resolve u.identity r with
      | mk outcome r' =>
          cases outcome with
          | ok v =>
              simp only [Except.map, ih]
              rfl
          | error e => simp only [Except.map, ih]

end Linking

/-! ## Reporting -/

/-- The failed sources are sorted by their paths, so they do not depend on the order of issues. -/
theorem failedSources_eq {found : Findings} {issues : List DiscoveryIssue}
    (hissues : found.issues.Perm issues)
    (horderly : Search.Orderly ⟨b.sourceRoot, b.settings.sourceExtension⟩ found)
    {outcomes : List (SourceUnit × Option CompileError)} (hunits : outcomes.map (·.1) = found.units) :
    ((refused issues ++ rejected outcomes).mergeSort fun x y => x.path.compare y.path != .gt) =
      (refused found.issues ++ rejected outcomes).mergeSort fun x y => x.path.compare y.path != .gt := by
  have hperm : (refused issues ++ rejected outcomes).Perm (refused found.issues ++ rejected outcomes) :=
    (hissues.symm.filterMap _).append_right _
  have hnodup := failed_nodup horderly hunits
  refine Path.eq_of_perm ?_ (Path.pairwise_mergeSort ?_) (Path.pairwise_mergeSort hnodup)
  · exact (List.mergeSort_perm _ _).trans (hperm.trans (List.mergeSort_perm _ _).symm)
  · exact (hperm.map _).nodup_iff.mpr hnodup

/-- **What is linked and reported is the same**, with other handles. -/
theorem repeats_finish (hhost : b.host.Defined) (h : Same fs fs') {found : Findings}
    {issues : List DiscoveryIssue} (hissues : found.issues.Perm issues)
    (horderly : Search.Orderly ⟨b.sourceRoot, b.settings.sourceExtension⟩ found)
    {outcomes : List (SourceUnit × Option CompileError)} (hunits : outcomes.map (·.1) = found.units) :
    Agree (Generation.Repeats (Handle.swap b.number number)) (b.finish fs found.issues outcomes)
      ((b.renumber number).finish fs' issues outcomes) := by
  have hrenamed : (b.linker fs).Renamed (Handle.swap b.number number) ((b.renumber number).linker fs') :=
    renamed_linker hhost h
  have hlink : link ((b.renumber number).linker fs') (compiledUnits outcomes) {} = _ :=
    link_eq hrenamed (compiledUnits outcomes) {}
  have hcompiled : ((b.renumber number).linker fs').breaksDown
      ((compiledUnits outcomes).map (·.identity)) {} = _ := hrenamed.breaksDown_eq _ {}
  have hmedia := media_eq h (b.outputRoot :: b.settings.libraries)
  have hopened : ((b.renumber number).openSession fs').1.media = (b.openSession fs).1.media :=
    (congrArg Prod.fst hmedia :)
  have hskipped : ((b.renumber number).openSession fs').2 = (b.openSession fs).2 :=
    (congrArg Prod.snd hmedia :)
  have hlinker : (b.openSession fs).1.loader fs = b.linker fs := rfl
  have hlinker' : ((b.renumber number).openSession fs').1.loader fs' = (b.renumber number).linker fs' := rfl
  unfold finish
  simp only
  rw [hlinker, hlinker', hlink, hcompiled, hopened, hskipped]
  simp only [hrenamed.make_eq, hrenamed.breaksDown_eq, Catalog.relabel, hrenamed.uncompiled_eq]
  split
  · exact .error _
  · refine .ok ⟨rfl, rfl, failedSources_eq hissues horderly hunits, rfl, ?_⟩
    exact (hissues.filterMap _).append_right _

/-! ## Whole builds -/

/-- The check of the roots and the preparation of the output root come to the same. -/
theorem alike_roots {L : Location} (h : b.Twins fs fs' L) :
    fs'.liesInside b.sourceRoot b.outputRoot = fs.liesInside b.sourceRoot b.outputRoot ∧
      (fs.clear b.outputRoot).Same (fs'.clear b.outputRoot) := by
  rw [not_liesInside h.output h.source h.spelt h.located,
    not_liesInside h.output' h.source' h.spelt h.located]
  exact ⟨rfl, clear_of_apart h.left h.right h.apart h.output h.output'⟩

/-- Compiling, linking and reporting come to the same. -/
theorem repeats_units (hc : c.Respects) (hhost : b.host.Defined) {site site' : Site σ}
    (hsame : site.files.Same site'.files) {found : Findings} {issues : List DiscoveryIssue}
    (hissues : found.issues.Perm issues)
    (hfound : site.files.discover b.sourceRoot b.settings.sourceExtension = .ok found) :
    Agree (Generation.Repeats (Handle.swap b.number number))
      ((b.compileAll c found.units >>= b.conclude found.issues) site).1
      (((b.renumber number).compileAll c found.units >>= (b.renumber number).conclude issues) site').1 := by
  have horderly := orderly_discover hsame.left hfound
  have hcompiled : Alike SameFiles Eq (b.compileAll c found.units)
      ((b.renumber number).compileAll c found.units) := alike_compileAll hc found.units
  obtain ⟨hleft, hagree⟩ := hcompiled site site' hsame
  rw [bind_run, bind_run]
  generalize hcompile : b.compileAll c found.units site = result at hleft hagree ⊢
  generalize (b.renumber number).compileAll c found.units site' = result' at hleft hagree ⊢
  obtain ⟨outcome, last⟩ := result
  obtain ⟨outcome', last'⟩ := result'
  cases hagree with
  | error e => exact .error e
  | ok houtcomes =>
      subst houtcomes
      exact repeats_finish hhost hleft hissues horderly (units_of_compileAll hcompile)

/-- **A build repeats**, if the file systems look the same or differ in the output directory only. -/
theorem repeats_run (c : Compiler σ) (hc : c.Respects) (b : Build) (hhost : b.host.Defined) (number : Nat)
    {site site' : Site σ}
    (hfiles : site.files.Same site'.files ∨ ∃ L, b.Twins site.files site'.files L) :
    Agree (Generation.Repeats (Handle.swap b.number number)) (b.run c site).1
      ((b.renumber number).run c site').1 := by
  obtain ⟨hroots, hcleared⟩ : site'.files.liesInside b.sourceRoot b.outputRoot =
      site.files.liesInside b.sourceRoot b.outputRoot ∧
        (site.files.clear b.outputRoot).Same (site'.files.clear b.outputRoot) := by
    rcases hfiles with hsame | ⟨L, htwins⟩
    · unfold liesInside placeOf
      rw [hsame.canonical, hsame.canonical]
      exact ⟨rfl, hsame.clear b.outputRoot⟩
    · exact alike_roots htwins
  have hfound := hcleared.files.discover b.sourceRoot b.settings.sourceExtension
  rw [run_phases, run_phases]
  simp only [renumber, hroots, hcleared.fault]
  split
  · exact .error _
  split
  · exact .error _
  unfold cleared at *
  simp only
  generalize hleft : (site.files.clear b.outputRoot).files.discover b.sourceRoot _ = left at hfound ⊢
  generalize (site'.files.clear b.outputRoot).files.discover b.sourceRoot _ = right at hfound ⊢
  cases hfound with
  | error f => exact .error _
  | @ok found found' hsame =>
      obtain ⟨hunits, hissues⟩ := hsame
      simp only [← hunits]
      exact repeats_units hc hhost hcleared.files hissues hleft

/-! ## A build after another one

The output directory of the second build holds an artifact for a unit that no source file makes any more. -/

namespace OneFile

/-- An artifact that an earlier build left. -/
def stale : Name × Node := (Utf8.encode "Old.wasm", .file bareModule)

/-- The compiler that makes a module with nothing in it of every source file. -/
def bare : Compiler Unit := .ofSource fun _ _ => (some bareModule, fun _ => .compiled)

/-- The build up to linking. -/
theorem run_bare (h : HostUnits) :
    (build h).run bare (⟨files [], ()⟩ : Site Unit) =
      ((build h).finish written [] [(source, none)], ⟨written, ()⟩) := by
  have hcompile : (build h).compileAll bare [source] (⟨files [output []], ()⟩ : Site Unit) =
      (.ok [(source, none)], ⟨written, ()⟩) := by cbv
  have hcalls : (build h).run bare (⟨files [], ()⟩ : Site Unit) =
      ((build h).compileAll bare [source] >>= (build h).conclude []) ⟨files [output []], ()⟩ :=
    run_calls h rfl _
  rw [hcalls, Attempt.bind_run, hcompile]
  rfl

/-- The output root is all that is added to the source file. -/
theorem files_output (entries : List (Name × Node)) :
    files [output entries] = (files []).put [Utf8.encode "o"] (some (.directory entries)) := by
  simp only [files, output, FileSystem.put, Node.put, Node.setEntry]
  rfl

theorem apart_output (entries : List (Name × Node)) :
    Apart [Utf8.encode "o"] (files []) (files [output entries]) := by
  rw [files_output]
  exact apart_put (files []) _ _

theorem tidy_output {entries : List (Name × Node)} (h : (Node.directory entries).Tidy) :
    (files [output entries]).root.Tidy := by
  rw [files_output]
  refine tidy_files.put (fun n hn => ?_) fun z hz => Option.some.inj hz ▸ h
  obtain rfl := Option.some.inj hn
  exact ⟨by decide, by decide, by decide, by decide⟩

/-- The output directory is the only difference, and the source files are not in it. -/
theorem twins_stale (h : HostUnits) :
    (build h).Twins (files []) (files [output [stale]]) [Utf8.encode "o"] where
  left := tidy_files
  right := tidy_output (.singleton ⟨by decide, by decide, by decide, by decide⟩ (.file bareModule))
  apart := apart_output [stale]
  output := .vacant (d := []) (by cbv)
  output' := .directory (show (files [output [stale]]).locateWith false false (build h).outputRoot =
    .ok (.found _ (.directory [stale])) by cbv)
  source := fun S hS => by
    have hs : (files []).canonical (build h).sourceRoot = .ok [Utf8.encode "s"] := by cbv
    obtain rfl := Except.ok.inj (hs.symm.trans hS)
    decide
  source' := fun S hS => by
    have hs : (files [output [stale]]).canonical (build h).sourceRoot = .ok [Utf8.encode "s"] := by cbv
    obtain rfl := Except.ok.inj (hs.symm.trans hS)
    decide
  spelt := by
    show ¬ (⟨Utf8.encode "o"⟩ : Path).components <+: (⟨Utf8.encode "s"⟩ : Path).components
    decide
  located := by
    show ¬ .root :: [Utf8.encode "o"].map .name <+: (⟨Utf8.encode "s"⟩ : Path).components
    decide

/-- What an earlier build left makes no difference. -/
theorem repeats_run_stale : ∃ h : HostUnits, h.Defined ∧ (h.lookup "a.Foo").isSome ∧ bare.Respects ∧
    (build h).Twins (files []) (files [output [stale]]) [Utf8.encode "o"] ∧ ∃ g g',
      ((build h).run bare ⟨files [], ()⟩).1 = .ok g ∧
        (((build h).renumber 2).run bare ⟨files [output [stale]], ()⟩).1 = .ok g' ∧
          (∃ e ∈ g.catalog.compiled, e.name = name) ∧ g.Repeats (Handle.swap 1 2) g' := by
  obtain ⟨h, hdefined, hfound⟩ := HostUnits.exists_defined
  obtain ⟨g, e, hfinish, he, hname⟩ := exists_finish_written h
  have hrespects : bare.Respects := Compiler.respects_ofSource _
  have htwins := twins_stale h
  have hrun := run_bare h
  rw [hfinish] at hrun
  have hagree := @repeats_run Unit bare hrespects (build h) hdefined 2 ⟨files [], ()⟩
    ⟨files [output [stale]], ()⟩ (.inr ⟨_, htwins⟩)
  rw [hrun] at hagree
  generalize hrun' : (((build h).renumber 2).run bare ⟨files [output [stale]], ()⟩).1 = result at hagree
  cases hagree with
  | @ok _ g' hrepeats =>
      exact ⟨h, hdefined, hfound, hrespects, htwins, g, g', congrArg Prod.fst hrun, hrun', ⟨e, he, hname⟩,
        hrepeats⟩

/-- An output root that a directory has to be there for. -/
def dotted (h : HostUnits) : Build := { build h with outputRoot := ⟨Utf8.encode "o/."⟩ }

/-- Two builds fail in different ways if the directory that they would clear is there once only. -/
theorem dotted_run : ∃ h : HostUnits, h.Defined ∧ bare.Respects ∧ (files []).root.Tidy ∧
    (files [output []]).root.Tidy ∧ Apart [Utf8.encode "o"] (files []) (files [output []]) ∧
      (files []).locate false (dotted h).outputRoot = .error .notFound ∧
      (files [output []]).locate false (dotted h).outputRoot =
        .ok (.found [Utf8.encode "o"] (.directory [])) ∧
      (files []).canonical (dotted h).sourceRoot = .ok [Utf8.encode "s"] ∧
      (files [output []]).canonical (dotted h).sourceRoot = .ok [Utf8.encode "s"] ∧
      ((dotted h).run bare ⟨files [], ()⟩).1 =
        .error (.error (.outputPreparation ⟨Utf8.encode "o/."⟩ .notFound)) ∧
      (((dotted h).renumber 2).run bare ⟨files [output []], ()⟩).1 =
        .error (.error (.outputPreparation ⟨Utf8.encode "o/."⟩ .invalidArgument)) := by
  obtain ⟨h, hdefined, -⟩ := HostUnits.exists_defined
  refine ⟨h, hdefined, Compiler.respects_ofSource _, tidy_files,
    tidy_output (.directory (by nofun) .nil (by nofun)), apart_output [], by cbv, by cbv, by cbv, by cbv, ?_, ?_⟩
  · have hroots : (files []).liesInside (dotted h).sourceRoot (dotted h).outputRoot = false := by cbv
    have hclear : ((files []).clear (dotted h).outputRoot).fault = some .notFound := by cbv
    rw [run_phases]
    simp only [hroots, hclear]
    rfl
  · have hroots : (files [output []]).liesInside (dotted h).sourceRoot (dotted h).outputRoot = false := by
      cbv
    have hclear : ((files [output []]).clear (dotted h).outputRoot).fault = some .invalidArgument := by cbv
    rw [run_phases]
    simp only [renumber, hroots, hclear]
    rfl

end OneFile

end Build

end LiveUnits
