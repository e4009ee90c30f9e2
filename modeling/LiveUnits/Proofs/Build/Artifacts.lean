import LiveUnits.Proofs.FileSystem.Descent
import LiveUnits.Proofs.Identity.Artifact
import LiveUnits.Proofs.Linkage.Attempt

/-!
# What becomes of artifacts

A compiler is confined if it touches nothing but the place of the artifact it is asked for.  Then a
build that starts with an empty output root keeps two things in order (`FileSystem.Ready`): below the
root, names without a dot belong to directories, and the places of the artifacts to come are vacant.
So every artifact that was seen right after its call is still there when the build ends
(`Build.ready_compileAll`).
-/

namespace LiveUnits

/-- A call touches nothing but the place of the artifact. -/
def Compiler.ConfinedAt {σ : Type} (c : Compiler σ) (i : Invocation) (site : Site σ) : Prop :=
  match site.files.locate false i.artifact with
  | .ok spot => FileSystem.Apart spot.location site.files (c i site).2.files
  | .error _ => (c i site).2.files = site.files

/-- A compiler that touches nothing but the place of the artifact, whatever it is called for.  What is
proved of builds with such a compiler is true of every build whose calls are confined: only the calls that
a build makes matter to it (`Build.run_restricted`). -/
def Compiler.Confined {σ : Type} (c : Compiler σ) : Prop :=
  ∀ (i : Invocation) (site : Site σ), c.ConfinedAt i site

namespace FileSystem

/-- A root leads to a location, and below it names without a dot belong to directories only. -/
structure Staged (fs : FileSystem) (root : Path) (L : Location) : Prop where
  /-- The root leads to the location of a directory. -/
  arrives : fs.Arrives root L
  /-- What is below it without a dot on the way is a directory. -/
  dotless : ∀ names, (∀ n ∈ names, fullStop ∉ n) → ∀ x, fs.root.get? (L ++ names) = some x →
    x.face = .directory []

/-- The places of artifacts to come are vacant as well. -/
structure Ready (fs : FileSystem) (root : Path) (L : Location) (extension : String)
    (pending : List Identity) : Prop where
  staged : fs.Staged root L
  vacant : ∀ n ∈ pending, fs.root.get? (L ++ n.artifactNames extension) = none

variable {fs fs' : FileSystem} {root : Path} {L : Location} {extension : String}

/-- An empty root is ready for all artifacts. -/
theorem ready_of_empty (h : fs.list root = .ok []) (extension : String) (pending : List Identity) :
    ∃ L, fs.Ready root L extension pending := by
  obtain ⟨L, hlocate⟩ := list_eq_ok.mp h
  obtain ⟨-, hwalks⟩ := locateWith_eq_ok.mp hlocate
  have hempty : ∀ names, names ≠ [] → fs.root.get? (L ++ names) = none := by
    intro names hne
    obtain ⟨n, rest, rfl⟩ := List.exists_cons_of_ne_nil hne
    rw [Node.get?_append, hwalks.get?_of_found]
    rfl
  refine ⟨L, ⟨⟨[], hlocate⟩, fun names _ x hx => ?_⟩, fun n _ => ?_⟩
  · by_cases hnames : names = []
    · rw [hnames, List.append_nil, hwalks.get?_of_found] at hx
      obtain rfl := Option.some.inj hx
      rfl
    · rw [hempty names hnames] at hx
      cases hx
  · exact hempty _ (n.artifactNames_ne_nil extension)

/-! ## Where paths below the root lead -/

/-- On the way to an artifact there are directories only. -/
theorem Staged.open_artifact (h : fs.Staged root L) (n : Identity) (extension : String) :
    fs.Open L (n.artifactNames extension) := by
  intro front hfront hne x hx
  refine h.dotless front (fun m hm => ?_) x hx
  have hbegins := (List.prefix_concat_iff.mp hfront).resolve_left hne
  exact (Identity.plain_of_mem_front (hbegins.subset hm)).2

/-- **The path of an artifact leads straight down from the root.** -/
theorem Staged.location_artifact (h : fs.Staged root L) {n : Identity}
    (hextension : '/' ∉ extension.toList) {spot : Spot}
    (hlocate : fs.locateWith false false (root.descend (n.artifactNames extension)) = .ok spot) :
    spot.location = L ++ n.artifactNames extension :=
  location_descend h.arrives (n.artifactNames_ne_nil extension)
    (Identity.plain_artifactNames hextension) (h.open_artifact n extension) hlocate

/-! ## Staying ready -/

/-- A root stays staged while what is there is kept and names without a dot still belong to directories. -/
theorem Staged.of_kept (h : fs.Staged root L) (hkept : Kept fs fs')
    (hdotless : ∀ names, (∀ n ∈ names, fullStop ∉ n) → ∀ x, fs'.root.get? (L ++ names) = some x →
      x.face = .directory []) : fs'.Staged root L :=
  ⟨h.arrives.of_kept hkept, hdotless⟩

/-- One of the names on the way to an artifact has a dot in it, the last one. -/
theorem last_mem_artifactNames (n : Identity) (extension : String) :
    ∃ m ∈ n.artifactNames extension, fullStop ∈ m :=
  ⟨_, List.mem_concat_self, List.mem_append_right _ List.mem_cons_self⟩

/-- A directory without a dot in its name keeps everything ready. -/
theorem Ready.put_directory {pending : List Identity} (h : fs.Ready root L extension pending)
    {d : Location} {name : Name} (hd : fs.HasDirectory d) (hvacant : fs.root.get? (d ++ [name]) = none)
    {front : List Name} (hdot : ∀ n ∈ front, fullStop ∉ n) (hplace : d ++ [name] = L ++ front) :
    Kept fs (fs.put (d ++ [name]) (some (.directory []))) ∧
      (fs.put (d ++ [name]) (some (.directory []))).Ready root L extension pending := by
  obtain ⟨entries, hd⟩ := hd
  have hkept : Kept fs (fs.put (d ++ [name]) (some (.directory []))) :=
    (apart_put fs (d ++ [name]) _).kept hvacant
  refine ⟨hkept, h.staged.of_kept hkept fun names hnames x hx => ?_, fun n hn => ?_⟩
  · rcases Node.get?_put_directory hd name hx with ⟨-, rfl⟩ | ⟨y, hy, hface⟩
    · rfl
    · rw [hface]
      exact h.staged.dotless names hnames y hy
  · rw [Option.eq_none_iff_forall_not_mem]
    intro x hx
    rcases Node.get?_put_directory hd name hx with ⟨hsame, -⟩ | ⟨y, hy, -⟩
    · -- the new directory takes the place of no artifact
      rw [hplace] at hsame
      obtain rfl := List.append_cancel_left hsame
      obtain ⟨m, hm, hstop⟩ := last_mem_artifactNames n extension
      exact hdot m hm hstop
    · rw [h.vacant n hn] at hy
      cases hy

/-- Whatever happens at the place of one artifact, the others stay ready. -/
theorem Ready.of_apart {n : Identity} {pending : List Identity}
    (h : fs.Ready root L extension (n :: pending)) (hnew : n ∉ pending)
    (hapart : Apart (L ++ n.artifactNames extension) fs fs') :
    Kept fs fs' ∧ fs'.Ready root L extension pending := by
  have hkept := hapart.kept (h.vacant n List.mem_cons_self)
  refine ⟨hkept, h.staged.of_kept hkept fun names hnames x hx => ?_, fun m hm => ?_⟩
  · have hnames' : ¬ L ++ n.artifactNames extension <+: L ++ names := by
      intro hbegins
      obtain ⟨m, hm, hstop⟩ := last_mem_artifactNames n extension
      exact hnames m (((List.prefix_append_right_inj L).mp hbegins).subset hm) hstop
    have hface := hapart.face _ hnames'
    rw [hx] at hface
    obtain ⟨y, hy, hsame⟩ := Option.map_eq_some_iff.mp hface.symm
    rw [← hsame]
    exact h.staged.dotless names hnames y hy
  · have hm' : ¬ L ++ n.artifactNames extension <+: L ++ m.artifactNames extension := by
      intro hbegins
      obtain rfl := Identity.eq_of_artifactNames_prefix ((List.prefix_append_right_inj L).mp hbegins)
      exact hnew hm
    have hface := hapart.face _ hm'
    rw [h.vacant m (List.mem_cons_of_mem n hm)] at hface
    exact Option.map_eq_none_iff.mp hface

/-- Making the directories above an artifact keeps everything ready. -/
theorem Ready.makeDirectories {pending : List Identity} (h : fs.Ready root L extension pending)
    (n : Identity) {parent : Path} (hextension : '/' ∉ extension.toList)
    (hparent : (root.descend (n.artifactNames extension)).parent? = some parent) :
    Kept fs (fs.makeDirectories parent).files ∧
      (fs.makeDirectories parent).files.Ready root L extension pending := by
  have hfront : ∀ m ∈ n.segments.dropLast.map Utf8.encode, PlainName m ∧ fullStop ∉ m :=
    fun m hm => Identity.plain_of_mem_front hm
  refine makeDirectories_descend_induct (L := L)
    (P := fun fs' => Kept fs fs' ∧ fs'.Ready root L extension pending)
    (fun m hm => (hfront m hm).1) (Identity.plain_artifactName n.valid_simpleName hextension) hparent
    (fun fs' hfs' => ?_) (fun fs' d name front hfs' hd hvacant hbegins _ hplace => ?_)
    ⟨Kept.refl fs, h⟩
  · have hopen := hfs'.2.staged.open_artifact n extension
    exact ⟨hfs'.2.staged.arrives, hopen.upTo (List.prefix_append _ _)⟩
  · have hdot : ∀ m ∈ front, fullStop ∉ m := fun m hm => (hfront m (hbegins.subset hm)).2
    obtain ⟨hkept, hready⟩ := hfs'.2.put_directory hd hvacant hdot hplace
    exact ⟨hfs'.1.trans hkept, hready⟩

end FileSystem

namespace Build

open FileSystem

variable {σ : Type}

/-! ## Compiling -/

/-- A preparation that succeeds leaves what the change makes of the files. -/
theorem ok_of_prepare {p : Path} {f : FileSystem → Change} {site site' : Site σ}
    (h : prepare p f site = (.ok (), site')) : site'.files = (f site.files).files := by
  unfold prepare at h
  simp only at h
  split at h
  · obtain ⟨-, rfl⟩ := Prod.mk.inj h
    rfl
  · cases h

/-- What comes of two parts of a build, whether they get through or not: the first one leads to `P`, and
`P` is enough for `Q` or leads there. -/
theorem after_bind {α β : Type} {P Q : Site σ → Prop} {x : Work σ α} {f : α → Work σ β} {site : Site σ}
    (hx : P (x site).2) (hweaker : ∀ site, P site → Q site)
    (hf : ∀ a between, P between → Q (f a between).2) : Q ((x >>= f) site).2 := by
  rw [Attempt.bind_run]
  cases hresult : x site with
  | mk outcome between =>
      rw [hresult] at hx
      cases outcome with
      | ok a => exact hf a between hx
      | error halt => exact hweaker between hx

/-- A preparation leaves what the change makes of the files, whether it succeeds or not. -/
theorem files_prepare (p : Path) (f : FileSystem → Change) (site : Site σ) :
    (prepare p f site).2.files = (f site.files).files := by
  unfold prepare
  simp only
  split <;> rfl

section Invoking

variable {c : Compiler σ} {i : Invocation} {A : Location} {site : Site σ}

/-- A compiler touches nothing but the place that the path of the artifact leads to. -/
theorem apart_call (hc : c.Confined) (htrailing : isTrailing i.artifact = false)
    (hlocation : ∀ spot, site.files.locateWith false false i.artifact = .ok spot → spot.location = A) :
    Apart A site.files (c i site).2.files := by
  have hconfined := hc i site
  unfold Compiler.ConfinedAt locate at hconfined
  rw [htrailing] at hconfined
  split at hconfined
  · next spot hlocate => exact hlocation spot hlocate ▸ hconfined
  · rw [hconfined]
    exact Apart.refl A site.files

/-- **A call and what is done after it** touch nothing but the place of the artifact, whatever comes of
it. -/
theorem apart_invoke (hc : c.Confined) (htrailing : isTrailing i.artifact = false)
    (hlocation : ∀ fs spot, Apart A site.files fs → fs.locateWith false false i.artifact = .ok spot →
      spot.location = A) : Apart A site.files (invoke c i site).2.files := by
  have hcall := apart_call hc htrailing fun spot => hlocation _ spot (Apart.refl A site.files)
  unfold invoke
  generalize c i site = call at hcall ⊢
  obtain ⟨verdict, called⟩ := call
  simp only at hcall ⊢
  cases inspect i.artifact called.files verdict with
  | compiled => exact hcall
  | crashed => exact hcall
  | failed e =>
      have hdiscard : Apart A called.files (called.files.discard i.artifact).files :=
        apart_discard htrailing fun fs spot hfs => hlocation fs spot (hcall.trans hfs)
      refine after_bind (P := fun after => Apart A site.files after.files)
        (Q := fun after => Apart A site.files after.files) ?_ (fun _ h => h) fun _ _ h => h
      rw [files_prepare]
      exact hcall.trans hdiscard

/-- An artifact that is accepted is there. -/
theorem isFile_of_invoke {site' : Site σ} (h : invoke c i site = (.ok none, site')) :
    site'.files.isFile i.artifact = true := by
  unfold invoke at h
  generalize c i site = call at h
  obtain ⟨verdict, called⟩ := call
  simp only at h
  split at h
  · next hverdict =>
    obtain ⟨-, rfl⟩ := Prod.mk.inj h
    unfold inspect at hverdict
    split at hverdict
    · split at hverdict
      · next hfile => exact hfile
      · cases hverdict
    · next hother => exact absurd hverdict hother
  · cases h
  · obtain ⟨⟨⟩, discarded, -, hend⟩ := Attempt.ok_of_bind h
    cases (Prod.mk.inj hend).1

end Invoking

section Calls

variable {c : Compiler σ} {b : Build} {L : Location} {u : SourceUnit} {pending : List Identity}
  {site site' : Site σ} {outcome : Option CompileError}

/-- Where the artifact of a unit is. -/
def artifactOf (b : Build) (u : SourceUnit) : Path :=
  b.outputRoot.descend (u.identity.artifactNames b.settings.artifactExtension)

/-- The path of an artifact does not end in a separator. -/
theorem not_trailing_artifactOf (hextension : '/' ∉ b.settings.artifactExtension.toList) :
    isTrailing (b.artifactOf u) = false := by
  unfold artifactOf Identity.artifactNames isTrailing
  rw [Path.descend_concat]
  exact beq_false_of_ne (Path.not_trailing_joinBytes _
    (Identity.plain_artifactName u.identity.valid_simpleName hextension))

/-- **A call of a confined compiler** leaves the output root ready for the units that are still to come.
-/
theorem ready_invoke (hc : c.Confined) (hextension : '/' ∉ b.settings.artifactExtension.toList)
    (hnew : u.identity ∉ pending)
    (hready : site.files.Ready b.outputRoot L b.settings.artifactExtension (u.identity :: pending))
    (h : invoke c ⟨u, b.outputRoot, b.artifactOf u⟩ site = (.ok outcome, site')) :
    Kept site.files site'.files ∧
      site'.files.Ready b.outputRoot L b.settings.artifactExtension pending ∧
      (outcome = none → site'.files.isFile (b.artifactOf u) = true) := by
  have hlocation : ∀ (fs : FileSystem) (spot : Spot),
      Apart (L ++ u.identity.artifactNames b.settings.artifactExtension) site.files fs →
        fs.locateWith false false (b.artifactOf u) = .ok spot →
          spot.location = L ++ u.identity.artifactNames b.settings.artifactExtension := by
    intro fs spot hapart hlocate
    exact (hready.of_apart hnew hapart).2.staged.location_artifact hextension hlocate
  have hapart := apart_invoke (i := ⟨u, b.outputRoot, b.artifactOf u⟩) hc
    (not_trailing_artifactOf hextension) hlocation
  rw [h] at hapart
  obtain ⟨hkept, hready'⟩ := hready.of_apart hnew hapart
  refine ⟨hkept, hready', ?_⟩
  rintro rfl
  exact isFile_of_invoke h

/-- **Compiling a unit keeps what exists** and leaves room for the artifacts to come; if it succeeds,
the artifact is there. -/
theorem ready_compile (hc : c.Confined) (hne : b.settings.artifactExtension.toList ≠ [])
    (hextension : '/' ∉ b.settings.artifactExtension.toList) (hnew : u.identity ∉ pending)
    (hready : site.files.Ready b.outputRoot L b.settings.artifactExtension (u.identity :: pending))
    (h : b.compile c u site = (.ok outcome, site')) :
    Kept site.files site'.files ∧
      site'.files.Ready b.outputRoot L b.settings.artifactExtension pending ∧
      (outcome = none → site'.files.isFile (b.artifactOf u) = true) := by
  unfold compile at h
  rw [u.identity.artifactPath?_eq b.outputRoot hne hextension] at h
  simp only at h
  cases hparent : (b.outputRoot.descend
      (u.identity.artifactNames b.settings.artifactExtension)).parent? with
  | none =>
      rw [hparent] at h
      exact ready_invoke hc hextension hnew hready h
  | some parent =>
      rw [hparent] at h
      obtain ⟨⟨⟩, made, hprepare, hinvoke⟩ := Attempt.ok_of_bind h
      obtain ⟨hkept, hready'⟩ := hready.makeDirectories u.identity hextension hparent
      rw [← ok_of_prepare hprepare] at hkept hready'
      obtain ⟨hkept', hrest⟩ := ready_invoke hc hextension hnew hready' hinvoke
      exact ⟨hkept.trans hkept', hrest⟩

/-- **Artifacts stay.**  When all units have been handed to the compiler, every accepted artifact is
there. -/
theorem ready_compileAll (hc : c.Confined) (hne : b.settings.artifactExtension.toList ≠ [])
    (hextension : '/' ∉ b.settings.artifactExtension.toList) {units : List SourceUnit}
    (hdistinct : (units.map (·.identity)).Nodup)
    (hready : site.files.Ready b.outputRoot L b.settings.artifactExtension (units.map (·.identity)))
    {outcomes : List (SourceUnit × Option CompileError)}
    (h : b.compileAll c units site = (.ok outcomes, site')) :
    Kept site.files site'.files ∧ site'.files.Staged b.outputRoot L ∧
      ∀ u ∈ compiledUnits outcomes, site'.files.isFile (b.artifactOf u) = true := by
  induction units generalizing site outcomes with
  | nil =>
      obtain ⟨houtcomes, rfl⟩ := Prod.mk.inj h
      obtain rfl := Except.ok.inj houtcomes
      exact ⟨Kept.refl _, hready.staged, fun u hu => (List.not_mem_nil hu).elim⟩
  | cons u rest ih =>
      obtain ⟨hnew, hrest⟩ := List.nodup_cons.mp hdistinct
      obtain ⟨outcome, between, hfirst, hbind⟩ := Attempt.ok_of_bind h
      obtain ⟨others, last, hothers, hend⟩ := Attempt.ok_of_bind hbind
      obtain ⟨houtcomes, rfl⟩ := Prod.mk.inj hend
      obtain rfl := Except.ok.inj houtcomes
      obtain ⟨hkept, hready', hfile⟩ := ready_compile hc hne hextension hnew hready hfirst
      obtain ⟨hkept', hstaged, hfiles⟩ := ih hrest hready' hothers
      refine ⟨hkept.trans hkept', hstaged, fun v hv => ?_⟩
      cases outcome with
      | some e => exact hfiles v hv
      | none =>
          rcases List.mem_cons.mp hv with rfl | hv
          · exact hkept'.isFile (hfile rfl)
          · exact hfiles v hv

end Calls

end Build

end LiveUnits
