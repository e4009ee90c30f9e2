import LiveUnits.Proofs.Build.Freshness
import LiveUnits.Proofs.Build.Leftovers
import LiveUnits.Proofs.Loader.References

/-!
# A rejected source file contributes nothing

Units are linked after all calls, over what the calls left.  If the place of an artifact is vacant then,
no container whose path leads to the output directory serves the unit
(`Build.elsewhere_of_lookup`), so every unit of that name that a generation holds comes from
a library or from the host, and whatever was compiled and refers to the name was linked to such a unit
or could not be linked (`Build.disowns_run`).
-/

namespace LiveUnits

/-- A generation holds a unit that is registered, or that its catalog has an entry for, and whatever
can be reached from such a unit. -/
def Generation.Holds (g : Generation) (v : LinkedUnit) : Prop :=
  ∃ u, (u ∈ g.session.registry.units ∨ ∃ e ∈ g.catalog.entries, e.unit = u) ∧ u.Reaches v

/-- A unit comes from the host, or from a library that does not lead to the output directory. -/
def Build.FromElsewhere (b : Build) (fs : FileSystem) (v : LinkedUnit) : Prop :=
  v.origin = .host ∨ ∃ root ∈ b.settings.libraries, v.origin = .container root ∧
    fs.canonical root ≠ fs.canonical b.outputRoot

/-! ## References -/

/-- The references of a shape are the shapes of the references. -/
theorem LinkedUnit.references_shape (u : LinkedUnit) : u.shape.references = u.references.map shape := by
  obtain ⟨handle, name, interface, markers, origin, supertype, dependencies⟩ := u
  rw [shape_mk]
  cases supertype <;> simp [references]

/-- Units of one shape refer to the same names. -/
theorem LinkedUnit.exists_reference_of_shape {u v : LinkedUnit} (h : u.shape = v.shape) {n : Identity}
    (hu : ∃ w ∈ u.references, w.name = n) : ∃ w ∈ v.references, w.name = n := by
  obtain ⟨w, hw, hname⟩ := hu
  have hmem : w.shape ∈ v.references.map shape := by
    rw [← references_shape, ← h, references_shape]
    exact List.mem_map_of_mem hw
  obtain ⟨w', hw', hshape⟩ := List.mem_map.mp hmem
  exact ⟨w', hw', by rw [← hname, ← w.shape_name, ← hshape, w'.shape_name]⟩

namespace Loader

/-- A unit refers to what the bytes refer to that it was made from. -/
theorem exists_reference_of_linkAfresh {l : Loader} {n : Identity} {found : Found}
    {d : Linkage.Declared} (hd : Linkage.declared n found.bytes = .ok d) {u : LinkedUnit}
    (h : (l.linkAfresh [] n found ⟨⟩).1.map LinkedUnit.shape = .ok u.shape) {m : Identity}
    (hm : d.RefersTo m) : ∃ v ∈ u.references, v.name = m := by
  cases hlinked : l.linkAfresh [] n found ⟨⟩ with
  | mk outcome t =>
      rw [hlinked] at h
      cases outcome with
      | error e => cases h
      | ok v =>
          obtain ⟨-, -, d', hd', hfull⟩ := Linkage.fullyLinked_materialise (l.named_afresh [n]) hlinked
          obtain rfl : d = d' := Except.ok.inj (hd.symm.trans hd')
          exact LinkedUnit.exists_reference_of_shape (Except.ok.inj h) (hfull.exists_reference hm)

end Loader

namespace Build

open FileSystem

variable {σ : Type} {b : Build} {fs : FileSystem} {L : Location} {n : Identity}

/-! ## What is not there is not served -/

/-- A directory with nothing at the place of an artifact does not serve it. -/
theorem lookupBelow_of_vacant {root : Path} {extension : String} (hstaged : fs.Staged root L)
    (hextension : '/' ∉ extension.toList)
    (hvacant : fs.root.get? (L ++ n.artifactNames extension) = none) (bytes : Bytes) :
    fs.lookupBelow root (n.resourceName extension) ≠ .ok (some bytes) := by
  intro hlookup
  unfold lookupBelow at hlookup
  by_cases hbackslash : '\\' ∈ extension.toList
  · rw [n.resourceParts?_of_backslash hbackslash] at hlookup
    cases hlookup
  · rw [n.resourceParts?_resourceName hextension hbackslash] at hlookup
    simp only [n.resourcePath_artifactParts] at hlookup
    split at hlookup
    · next contents hnode =>
      obtain ⟨l, hl⟩ := node_eq_ok.mp hnode
      obtain ⟨-, hfound⟩ := locateWith_eq_ok.mp hl
      have hplain := Identity.plain_artifactNames (n := n) hextension
      obtain ⟨left, hwalks⟩ := hstaged.arrives.walks
        (n.artifactNames_ne_nil extension) hplain hl
      -- nothing on the way is a link, and nothing is at its end
      have hplace : l = L ++ n.artifactNames extension := hwalks.location_eq hplain fun front hfront _ => by
        by_cases hends : front = n.artifactNames extension
        · rw [hends, hvacant]
          exact nofun
        · exact (hstaged.open_artifact n extension).not_link hfront hends
      rw [← hplace, hfound.get?_of_found] at hvacant
      cases hvacant
    · cases hlookup
    · split at hlookup <;> cases hlookup

/-- What is opened at a path is the directory that is there, or an archive that is a file there. -/
theorem openAt_eq_ok {path : Path} {m : Medium} (h : Medium.openAt fs path = .ok m) :
    m = .directory path ∨ ∃ a contents, m = .archive path a false ∧
      fs.node path = .ok (.file contents) := by
  unfold Medium.openAt Medium.openDirectory Medium.openArchive at h
  split at h
  · cases h
  · split at h
    · exact .inl (Except.ok.inj h).symm
    · cases h
  · split at h
    · cases h
    · next contents hnode =>
      split at h
      · exact .inr ⟨_, contents, (Except.ok.inj h).symm, hnode⟩
      · cases h
    · cases h

/-- **What a container serves for a vacant place comes from elsewhere.** -/
theorem elsewhere_of_lookup (hstaged : fs.Staged b.outputRoot L)
    (hextension : '/' ∉ b.settings.artifactExtension.toList)
    (hvacant : fs.root.get? (L ++ n.artifactNames b.settings.artifactExtension) = none)
    {container : Container} (hcontainer : container ∈ (b.linker fs).containers) {clock : Nat}
    {bytes : Bytes}
    (h : container.lookup clock (n.resourceName b.settings.artifactExtension) = .ok (some bytes)) :
    container.root ∈ b.settings.libraries ∧
      fs.canonical container.root ≠ fs.canonical b.outputRoot := by
  obtain ⟨entries, harrives⟩ := hstaged.arrives
  have houtput : fs.canonical b.outputRoot = .ok L := canonical_eq_ok.mpr ⟨_, harrives⟩
  obtain ⟨path, hpath, m, hopened, rfl⟩ := exists_openAt hcontainer
  have hroot : (m.container fs).root = path := by
    rcases openAt_eq_ok hopened with rfl | ⟨a, contents, rfl, -⟩ <;> rfl
  have haway : fs.canonical path ≠ .ok L := by
    intro hsame
    obtain ⟨x, hx⟩ := canonical_eq_ok.mp hsame
    obtain ⟨-, hroot⟩ := locateWith_eq_ok.mp harrives
    obtain ⟨-, hlibrary⟩ := locateWith_eq_ok.mp hx
    obtain rfl : .directory entries = x :=
      Option.some.inj (hroot.get?_of_found.symm.trans hlibrary.get?_of_found)
    rcases openAt_eq_ok hopened with rfl | ⟨a, contents, -, hnode⟩
    · exact lookupBelow_of_vacant ⟨⟨entries, hx⟩, hstaged.dotless⟩ hextension hvacant bytes h
    · cases (node_eq_ok.mpr ⟨L, hx⟩).symm.trans hnode
  rw [hroot, houtput]
  refine ⟨(List.mem_cons.mp hpath).resolve_left ?_, haway⟩
  rintro rfl
  exact haway houtput

/-! ## What a generation holds -/

/-- Linking is a run of requests, and every entry is what one of them returned. -/
theorem link_visit {l : Loader} {units : List SourceUnit} {r r' : Registry}
    {entries : List CatalogEntry} {failures : List LinkFailure}
    (h : link l units r = ((entries, failures), r')) :
    r' = l.visit (units.map (·.identity)) r ∧ ∀ e ∈ entries, ∃ before u after,
      units = before ++ u :: after ∧
        (l.resolve u.identity (l.visit (before.map (·.identity)) r)).1 = .ok e.unit := by
  induction units generalizing r r' entries failures with
  | nil =>
      obtain ⟨hlists, rfl⟩ := Prod.mk.inj h
      obtain ⟨rfl, -⟩ := Prod.mk.inj hlists
      exact ⟨rfl, fun e he => (List.not_mem_nil he).elim⟩
  | cons u rest ih =>
      unfold link at h
      cases hresult : l.resolve u.identity r with
      | mk outcome between =>
          rw [hresult] at h
          cases hrest : link l rest between with
          | mk lists last =>
              obtain ⟨others, failed⟩ := lists
              obtain ⟨hlast, hothers⟩ := ih hrest
              have hbetween : between = (l.resolve u.identity r).2 := by rw [hresult]
              have hlater : ∀ e ∈ others, ∃ before v after, u :: rest = before ++ v :: after ∧
                  (l.resolve v.identity (l.visit (before.map (·.identity)) r)).1 = .ok e.unit := by
                intro e he
                obtain ⟨before, v, after, rfl, hanswer⟩ := hothers e he
                rw [hbetween] at hanswer
                exact ⟨u :: before, v, after, rfl, hanswer⟩
              cases outcome with
              | error error =>
                  simp only [hrest] at h
                  obtain ⟨hlists, rfl⟩ := Prod.mk.inj h
                  obtain ⟨rfl, -⟩ := Prod.mk.inj hlists
                  exact ⟨hlast.trans (by rw [hbetween]; rfl), hlater⟩
              | ok v =>
                  simp only [hrest] at h
                  obtain ⟨hlists, rfl⟩ := Prod.mk.inj h
                  obtain ⟨rfl, -⟩ := Prod.mk.inj hlists
                  refine ⟨hlast.trans (by rw [hbetween]; rfl), List.forall_mem_cons.mpr ⟨?_, hlater⟩⟩
                  exact ⟨[], u, rest, rfl, by rw [List.map_nil, Loader.visit, hresult]⟩

/-- The registry of a finished build. -/
theorem registry_of_finish {issues : List DiscoveryIssue}
    {outcomes : List (SourceUnit × Option CompileError)} {g : Generation}
    (h : b.finish fs issues outcomes = .ok g) :
    ∃ entries failures linked,
      link (b.linker fs) (compiledUnits outcomes) {} = ((entries, failures), linked) ∧
      g.catalog = (Catalog.make (b.linker fs) entries linked).1 ∧
      g.session.registry = (Catalog.make (b.linker fs) entries linked).2 := by
  unfold finish at h
  simp only at h
  split at h
  · cases h
  · obtain rfl := Except.ok.inj h
    exact ⟨_, _, _, rfl, rfl, rfl⟩

/-- **Everything that a generation holds** was registered or returned over one run of requests, or is
a unit of the host, or can be reached from such a unit. -/
theorem held_of_finish {issues : List DiscoveryIssue}
    {outcomes : List (SourceUnit × Option CompileError)} {g : Generation}
    (h : b.finish fs issues outcomes = .ok g) : ∃ ns, ∀ v, g.Holds v →
      ∃ u, ((u ∈ ((b.linker fs).visit ns {}).units ∨ (b.linker fs).Returned ns u) ∨
        u ∈ b.host.units) ∧ u.Reaches v := by
  obtain ⟨entries, failures, linked, hlink, hcatalog, hregistry⟩ := registry_of_finish h
  obtain ⟨rfl, hreturned⟩ := link_visit hlink
  let more := Catalog.uncompiled (b.linker fs) (sortByKey CatalogEntry.text entries)
  have hregistry : g.session.registry =
      (b.linker fs).visit ((compiledUnits outcomes).map (·.identity) ++ more) {} := by
    rw [hregistry, Loader.visit_append]
    rfl
  refine ⟨(compiledUnits outcomes).map (·.identity) ++ more,
    fun v ⟨u, hu, hreaches⟩ => ⟨u, ?_, hreaches⟩⟩
  rw [← hregistry]
  rcases hu with hu | ⟨e, he, rfl⟩
  · exact .inl (.inl hu)
  rcases List.mem_merge.mp he with he | he
  · -- a compiled entry was returned by the request for its source file
    rw [hcatalog] at he
    obtain ⟨before, u, after, hunits, hanswer⟩ := hreturned e (mem_of_mem_sortByKey he)
    refine .inl (.inr
      ⟨before.map (·.identity), u.identity, after.map (·.identity) ++ more, ?_, hanswer⟩)
    rw [hunits, List.map_append, List.map_cons, List.append_assoc, List.cons_append]
  · have hforeign : g.catalog.foreign =
        ((Catalog.foreignUnits b.host g.session.registry (b.linker fs).available.1).filter fun u =>
          (Catalog.find? g.catalog.compiled u.name.text).isNone).map fun u => ⟨u, none⟩ := by
      rw [hcatalog, ‹g.session.registry = (Catalog.make _ _ _).2›]
      rfl
    rw [hforeign] at he
    obtain ⟨u, hu, rfl⟩ := List.mem_map.mp he
    rcases List.mem_append.mp (mem_of_mem_sortByKey (List.mem_filter.mp hu).1) with hu | hu
    · exact .inr (List.mem_filter.mp hu).1
    · exact .inl (.inl hu)

/-- **A held unit of a name whose place is vacant comes from elsewhere.** -/
theorem elsewhere_of_holds (hhost : b.host.Defined) (hstaged : fs.Staged b.outputRoot L)
    (hextension : '/' ∉ b.settings.artifactExtension.toList)
    (hvacant : fs.root.get? (L ++ n.artifactNames b.settings.artifactExtension) = none)
    {issues : List DiscoveryIssue} {outcomes : List (SourceUnit × Option CompileError)} {g : Generation}
    (h : b.finish fs issues outcomes = .ok g) {v : LinkedUnit} (hv : g.Holds v) (hname : v.name = n) :
    b.FromElsewhere fs v := by
  subst hname
  obtain ⟨ns, hheld⟩ := held_of_finish h
  obtain ⟨u, hu, hreaches⟩ := hheld v hv
  have hclosed := (Loader.closed_visit ns (b.linker fs).closed_start).1
  have hhost' : (b.linker fs).host.Closed := hhost.closed
  rcases hu with hu | hu
  · have hu : (b.linker fs).Owns ((b.linker fs).visit ns {}) u :=
      hu.elim hclosed.owns_of_mem (Loader.owns_of_returned hhost')
    have hv := hreaches.closed (fun w hw x hx => hclosed.owns_references hhost' hw hx) hu
    rcases hv with ⟨-, hregistered⟩ | ⟨horigin, -⟩
    · obtain ⟨container, hcontainer, clock, bytes, d, hlookup, horigin, -⟩ :=
        (b.linker fs).supplied_visit ns (fun _ hu => (List.not_mem_nil hu).elim) v
          (Registry.mem_of_unit? hregistered)
      obtain ⟨hlibrary, haway⟩ := elsewhere_of_lookup hstaged hextension hvacant hcontainer hlookup
      exact .inr ⟨container.root, hlibrary, horigin, haway⟩
    · exact .inl horigin
  · exact .inl (hhost'.host v (hhost'.mem_of_reaches hreaches hu))

end Build

/-- A generation has nothing that a call for a unit made, if the call failed. -/
structure Generation.Disowns (g : Generation) {σ : Type} (c : Compiler σ) (b : Build) (found : Findings)
    (site : Site σ) (fs : FileSystem) (n : Identity) : Prop where
  /-- Nothing is at the place of its artifact when units are linked. -/
  vacant : ∀ artifact, n.artifactPath? b.outputRoot b.settings.artifactExtension = some artifact →
    ∀ l x, fs.locate false artifact ≠ .ok (.found l x)
  /-- A unit of its name comes from a library or from the host, wherever the generation holds it. -/
  elsewhere : ∀ v, g.Holds v → v.name = n → b.FromElsewhere fs v
  /-- What was compiled and refers to its name cannot be linked, or is linked to such a unit. -/
  referring : '\\' ∉ b.settings.artifactExtension.toList → ∀ u ∈ found.units,
    ∀ artifact ready left bytes d, b.Called c found.units site u artifact ready .compiled left →
      left.files.read artifact = .ok bytes → Linkage.declared u.identity bytes = .ok d →
      d.RefersTo n →
        (∃ f ∈ g.failedLinks, f.identity = u.identity ∧ f.sourceFile = u.path) ∨
          ∃ e ∈ g.catalog.compiled, e.name = u.identity ∧ e.sourceFile = some u.path ∧
            ∃ v ∈ e.unit.references, v.name = n ∧ b.FromElsewhere fs v

namespace Build

open FileSystem

variable {σ : Type} {c : Compiler σ} {b : Build} {found : Findings} {site site' : Site σ}
  {outcomes : List (SourceUnit × Option CompileError)} {g : Generation}

/-- A failed source with an identity was handed to the compiler and rejected. -/
theorem rejected_of_failed {fs : FileSystem} {issues : List DiscoveryIssue}
    (h : b.finish fs issues outcomes = .ok g) {f : CompileFailure} (hf : f ∈ g.failedSources)
    {n : Identity} (hn : f.identity = some n) : ∃ u e, (u, some e) ∈ outcomes ∧ u.identity = n := by
  obtain ⟨entries, failures, linked, -, -, -, hsources, -⟩ := finish_eq_ok h
  rw [hsources, List.mem_mergeSort] at hf
  rcases List.mem_append.mp hf with hf | hf
  · obtain ⟨issue, -, hissue⟩ := List.mem_filterMap.mp hf
    cases issue with
    | invalidIdentity path error =>
        obtain rfl := Option.some.inj hissue
        cases hn
    | unreadableDirectory path fault => cases hissue
  · obtain ⟨⟨u, outcome⟩, hu, houtcome⟩ := List.mem_filterMap.mp hf
    obtain ⟨e, rfl, rfl⟩ := Option.map_eq_some_iff.mp houtcome
    exact ⟨u, e, hu, Option.some.inj hn⟩

/-- A unit whose call left a file was compiled. -/
theorem compiled_of_called
    (horderly : Search.Orderly ⟨b.sourceRoot, b.settings.sourceExtension⟩ found)
    (hcompile : b.compileAll c found.units site = (.ok outcomes, site')) {u : SourceUnit}
    (hu : u ∈ found.units) {artifact : Path} {ready left : Site σ}
    (hcalled : Called c b found.units site u artifact ready .compiled left) {bytes : Bytes}
    (hread : left.files.read artifact = .ok bytes) : (u, none) ∈ outcomes := by
  obtain ⟨⟨v, outcome⟩, houtcome, rfl⟩ := List.mem_map.mp (units_of_compileAll hcompile ▸ hu)
  obtain ⟨artifact', ready', verdict, left', hcalled', hshows⟩ := exists_called hcompile houtcome
  obtain ⟨rfl, rfl, rfl⟩ := hcalled.unique horderly.identities_nodup hcalled'
  have hinspect : inspect artifact left.files .compiled = .compiled := if_pos (isFile_of_read hread)
  cases outcome with
  | none => exact houtcome
  | some e => cases hinspect.symm.trans hshows

/-- A compiled unit refers to what the bytes refer to that its call left. -/
theorem exists_reference_of_called (hc : c.Confined) (hne : b.settings.artifactExtension.toList ≠ [])
    (hslash : '/' ∉ b.settings.artifactExtension.toList)
    (hbackslash : '\\' ∉ b.settings.artifactExtension.toList)
    (horderly : Search.Orderly ⟨b.sourceRoot, b.settings.sourceExtension⟩ found)
    {L : Location} (hready : site.files.Ready b.outputRoot L b.settings.artifactExtension
      (found.units.map (·.identity)))
    (hcompile : b.compileAll c found.units site = (.ok outcomes, site'))
    (hfinish : b.finish site'.files found.issues outcomes = .ok g) {u : SourceUnit}
    (hu : u ∈ found.units) {artifact : Path} {ready left : Site σ}
    (hcalled : Called c b found.units site u artifact ready .compiled left) {bytes : Bytes}
    (hread : left.files.read artifact = .ok bytes) {d : Linkage.Declared}
    (hd : Linkage.declared u.identity bytes = .ok d) {n : Identity} (hn : d.RefersTo n)
    {e : CatalogEntry} (he : e ∈ g.catalog.compiled) (hname : e.name = u.identity) :
    ∃ v ∈ e.unit.references, v.name = n := by
  obtain ⟨entries, failures, linked, hlink, hcatalog, -, -, -⟩ := finish_eq_ok hfinish
  rw [hcatalog] at he
  obtain ⟨v, hv, hbacks⟩ := backs_of_link hc hne hslash hbackslash horderly hready hcompile hlink
    (mem_of_mem_sortByKey he)
  obtain rfl : u = v := List.inj_on_of_nodup_map horderly.identities_nodup hu hv
    (hname.symm.trans hbacks.name_eq)
  obtain ⟨artifact', ready', left', bytes', hcalled', hread', hshape⟩ := hbacks.made
  obtain ⟨rfl, -, rfl⟩ := hcalled.unique horderly.identities_nodup hcalled'
  obtain rfl := Except.ok.inj (hread.symm.trans hread')
  exact Loader.exists_reference_of_linkAfresh hd hshape hn

/-- **A rejected source file contributes nothing**, whatever its call left, in a build that starts with an
empty output root and a compiler that touches nothing but the places of artifacts; and what is discarded
after a call is no other artifact. -/
theorem disowns_run (c : Compiler σ) (b : Build) (hhost : b.host.Defined) {site site' : Site σ}
    (htidy : site.files.root.Tidy) (hc : c.Confined) (htidies : c.KeepsTidy)
    (hne : b.settings.artifactExtension.toList ≠ [])
    (hslash : '/' ∉ b.settings.artifactExtension.toList)
    (hempty : (b.cleared site).files.list b.outputRoot = .ok []) {g : Generation}
    (h : b.run c site = (.ok g, site')) :
    ∃ found,
      (b.cleared site).files.discover b.sourceRoot b.settings.sourceExtension = .ok found ∧
      (∀ f ∈ g.failedSources, ∀ n, f.identity = some n →
        g.Disowns c b found (b.cleared site) site'.files n) ∧
      ∀ u artifact ready verdict left,
        b.Called c found.units (b.cleared site) u artifact ready verdict left →
          ∀ n place, n ≠ u.identity →
            n.artifactPath? b.outputRoot b.settings.artifactExtension = some place →
              Spared place left.files (left.files.discard artifact).files := by
  obtain ⟨found, outcomes, hfound, hcompile, hfinish⟩ := phases_of_ok h
  have htidy' : (b.cleared site).files.root.Tidy := tidy_clear htidy b.outputRoot
  have horderly := orderly_discover htidy' hfound
  have hdistinct := horderly.identities_nodup
  obtain ⟨L, hready⟩ := ready_of_empty hempty b.settings.artifactExtension
    (found.units.map (·.identity))
  obtain ⟨-, hstaged, -⟩ := ready_compileAll hc hne hslash hdistinct hready hcompile
  refine ⟨found, hfound, fun f hf n hn => ?_,
    fun u artifact ready verdict left hcalled n place hn hplace => ?_⟩
  · obtain ⟨u, e, hu, rfl⟩ := rejected_of_failed hfinish hf hn
    have hvacant : site'.files.root.get?
        (L ++ u.identity.artifactNames b.settings.artifactExtension) = none := by
      rw [← List.append_nil (found.units.map (·.identity))] at hdistinct hready
      exact vacant_compileAll hc htidies hne hslash hdistinct htidy' hready hcompile
        (.inr ⟨u, e, hu, rfl⟩)
    have helsewhere := fun v => elsewhere_of_holds hhost hstaged hslash hvacant hfinish (v := v)
    refine ⟨fun artifact hartifact l x => ?_, helsewhere,
      fun hbackslash v hv artifact ready left bytes d hcalled hread hd href => ?_⟩
    · obtain rfl := Option.some.inj
        ((u.identity.artifactPath?_eq b.outputRoot hne hslash).symm.trans hartifact)
      exact hstaged.unfound hslash hvacant l x
    · have hcompiled := compiled_of_called horderly hcompile hv hcalled hread
      rcases reports_finish horderly (units_of_compileAll hcompile) hfinish hcompiled with
        ⟨e, he, hname, hsource⟩ | hfailed
      · obtain ⟨w, hw, hwname⟩ := exists_reference_of_called hc hne hslash hbackslash horderly hready
          hcompile hfinish hv hcalled hread hd href he hname
        have hheld : g.Holds w :=
          ⟨e.unit, .inr ⟨e, List.mem_merge.mpr (.inl he), rfl⟩, .step hw (.refl w)⟩
        exact .inr ⟨e, he, hname, hsource, w, hw, hwname, helsewhere w hheld hwname⟩
      · exact .inl hfailed
  · obtain rfl := Option.some.inj ((n.artifactPath?_eq b.outputRoot hne hslash).symm.trans hplace)
    exact spared_of_called hc hne hslash hdistinct hready hcalled hn

/-! ## A call that fails after it has written

The call leaves a directory with a file in it where its artifact belongs, for a name that the host
defines too. -/

/-- The compiler that puts a node where nothing is, and then fails. -/
def littering (x : Node) : Compiler σ := fun i site =>
  match site.files.locate false i.artifact with
  | .ok (.vacant d name) =>
    (.failed (.diagnostic "no"), { site with files := site.files.put (d ++ [name]) (some x) })
  | _ => (.failed (.diagnostic "no"), site)

/-- The compiler that litters touches nothing but the place of the artifact. -/
theorem confined_littering (x : Node) : (littering x : Compiler σ).Confined := by
  intro i site
  unfold Compiler.ConfinedAt littering
  cases site.files.locate false i.artifact with
  | error f => rfl
  | ok spot =>
      cases spot with
      | found l y => exact Apart.refl l site.files
      | vacant d name => exact apart_put site.files (d ++ [name]) _

/-- Litter with plain and distinct names keeps a file system tidy. -/
theorem keepsTidy_littering {x : Node} (hx : x.Tidy) : (littering x : Compiler σ).KeepsTidy := by
  intro i site htidy
  unfold littering
  split
  · next d name hlocate =>
    exact tidy_put_vacant htidy hlocate fun y hy => Option.some.inj hy ▸ hx
  · exact htidy

namespace OneFile

/-- What is left at the place of the artifact. -/
def litter : Node := .directory [(Utf8.encode "Foo", .file bareModule)]

/-- The files that the build leaves. -/
def swept : FileSystem := files [output [(Utf8.encode "a", .directory [])]]

/-- The build up to linking: what the call left is gone. -/
theorem run_littering (h : HostUnits) :
    (build h).run (littering litter) (⟨files [], ()⟩ : Site Unit) =
      ((build h).finish swept [] [(source, some (.diagnostic "no"))], ⟨swept, ()⟩) := by
  have hcompile : (build h).compileAll (littering litter) [source]
      (⟨files [output []], ()⟩ : Site Unit) =
        (.ok [(source, some (.diagnostic "no"))], ⟨swept, ()⟩) := by cbv
  have hcalls : (build h).run (littering litter) (⟨files [], ()⟩ : Site Unit) =
      ((build h).compileAll (littering litter) [source] >>= (build h).conclude [])
        ⟨files [output []], ()⟩ := run_calls h rfl _
  rw [hcalls, Attempt.bind_run, hcompile]
  rfl

/-- Nothing is left to be linked, so the build is finished. -/
theorem exists_finish_swept (h : HostUnits) : ∃ g,
    (build h).finish swept [] [(source, some (.diagnostic "no"))] = .ok g := by
  have hroot : swept.isDirectory (build h).outputRoot = true := by cbv
  have hlist : swept.resourcesBelow (build h).outputRoot = .ok [] := by cbv
  have hnothing : Catalog.uncompiled ((build h).linker swept) [] = [] := by
    refine List.filter_eq_nil_iff.mpr fun n hn => ?_
    obtain ⟨c, hc, names, hnames, hmem⟩ := Loader.mem_available.mp hn
    rw [containers_linker h hroot] at hc
    obtain rfl := List.mem_singleton.mp hc
    obtain rfl := Except.ok.inj (hlist.symm.trans hnames)
    cases hmem
  have hlink : link ((build h).linker swept) (compiledUnits [(source, some (.diagnostic "no"))]) {} =
      (([], []), {}) := rfl
  refine exists_finish_of_unbroken [] [(source, some (.diagnostic "no"))] hlink rfl ?_
  show ((build h).linker swept).breaksDown (Catalog.uncompiled ((build h).linker swept) []) {} = false
  rw [hnothing]
  rfl

/-- Nothing is left of what the call wrote. -/
theorem disowns_run_littering : ∃ h : HostUnits, h.Defined ∧ (h.lookup "a.Foo").isSome ∧
    (files []).root.Tidy ∧ (littering litter : Compiler Unit).Confined ∧
      (littering litter : Compiler Unit).KeepsTidy ∧ ∃ g found,
        (build h).run (littering litter) (⟨files [], ()⟩ : Site Unit) = (.ok g, ⟨swept, ()⟩) ∧
          (∃ f ∈ g.failedSources, f.identity = some name) ∧
            g.Disowns (littering litter) (build h) found
              ((build h).cleared (⟨files [], ()⟩ : Site Unit)) swept name := by
  obtain ⟨h, hdefined, hfound⟩ := HostUnits.exists_defined
  obtain ⟨g, hfinish⟩ := exists_finish_swept h
  have hrun := run_littering h
  rw [hfinish] at hrun
  have hplain : PlainName (Utf8.encode "Foo") := ⟨by decide, by decide, by decide, by decide⟩
  have hlitter : litter.Tidy := .singleton hplain (.file bareModule)
  have hempty : ((build h).cleared (⟨files [], ()⟩ : Site Unit)).files.list (build h).outputRoot =
      .ok [] := by cbv
  obtain ⟨found, -, hdisowns, -⟩ := disowns_run (littering litter) (build h) hdefined tidy_files
    (confined_littering litter) (keepsTidy_littering hlitter) (show "wasm".toList ≠ [] by decide)
    (show '/' ∉ "wasm".toList by decide) hempty hrun
  have hfailed : ∃ f ∈ g.failedSources, f.identity = some name := by
    obtain ⟨entries, failures, linked, -, -, -, hsources, -⟩ := finish_eq_ok hfinish
    rw [hsources]
    exact ⟨_, List.mem_mergeSort.mpr (List.mem_singleton_self _), rfl⟩
  obtain ⟨f, hf, hname⟩ := hfailed
  exact ⟨h, hdefined, hfound, tidy_files, confined_littering litter, keepsTidy_littering hlitter, g,
    found, hrun, ⟨f, hf, hname⟩, hdisowns f hf name hname⟩

end OneFile

end Build

end LiveUnits
