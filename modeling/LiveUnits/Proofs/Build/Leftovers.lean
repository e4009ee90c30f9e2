import LiveUnits.Proofs.Build.Calls
import LiveUnits.Proofs.FileSystem.Discarding

/-!
# What failed calls leave

A call that fails may leave anything at the place of its artifact: a file, a directory with more in it,
or a link to either.  The build discards it right after the call, and nothing comes to that place
later, since every later call is for another artifact.  So when all units have been handed to the
compiler, the places of the rejected ones are vacant (`Build.vacant_compileAll`).

Discarding spares the places of all other artifacts: what was found there is found afterwards, and
everything below it looks the same (`Build.spared_of_called`).
-/

namespace LiveUnits

/-- A compiler that leaves directories in which no name occurs twice. -/
def Compiler.KeepsTidy {σ : Type} (c : Compiler σ) : Prop :=
  ∀ (i : Invocation) (site : Site σ), site.files.root.Tidy → (c i site).2.files.root.Tidy

namespace FileSystem

/-- What is found at a path is found there again, and everything below it looks the same. -/
def Spared (p : Path) (fs fs' : FileSystem) : Prop :=
  ∀ l x, fs.locate false p = .ok (.found l x) →
    ∃ y, fs'.locate false p = .ok (.found l y) ∧
      ∀ below, (y.get? below).map Node.face = (x.get? below).map Node.face

/-- Nothing is found at the place of an artifact if it is vacant. -/
theorem Staged.unfound {fs : FileSystem} {root : Path} {L : Location} {extension : String}
    (h : fs.Staged root L) (hextension : '/' ∉ extension.toList) {n : Identity}
    (hvacant : fs.root.get? (L ++ n.artifactNames extension) = none) (l : Location) (x : Node) :
    fs.locate false (root.descend (n.artifactNames extension)) ≠ .ok (.found l x) := by
  intro hlocate
  unfold locate at hlocate
  rw [isTrailing_descend root (n.artifactNames_ne_nil _) (Identity.plain_artifactNames hextension)]
    at hlocate
  obtain ⟨-, hwalks⟩ := locateWith_eq_ok.mp hlocate
  obtain rfl : l = L ++ n.artifactNames extension := h.location_artifact hextension hlocate
  cases hvacant.symm.trans hwalks.get?_of_found

/-- A difference at the place of one artifact does not show at the places of others. -/
theorem Staged.spared {fs fs' : FileSystem} {root : Path} {L : Location} {extension : String}
    (h : fs.Staged root L) (hextension : '/' ∉ extension.toList) {n m : Identity}
    (hapart : Apart (L ++ m.artifactNames extension) fs fs') (h' : fs'.Staged root L) (hn : n ≠ m) :
    Spared (root.descend (n.artifactNames extension)) fs fs' := by
  have hplain := Identity.plain_artifactNames (n := n) hextension
  have hnames : n.artifactNames extension ≠ [] := n.artifactNames_ne_nil _
  -- nothing at or below the place of one artifact is at or below that of another one
  have hface : ∀ below, (fs'.root.get? (L ++ n.artifactNames extension ++ below)).map Node.face =
      (fs.root.get? (L ++ n.artifactNames extension ++ below)).map Node.face := by
    intro below
    refine hapart.face _ fun hbegins => ?_
    rw [List.append_assoc, List.prefix_append_right_inj] at hbegins
    rcases List.prefix_or_prefix_of_prefix hbegins (List.prefix_append _ below) with hsame | hsame
    · exact hn (Identity.eq_of_artifactNames_prefix hsame).symm
    · exact hn (Identity.eq_of_artifactNames_prefix hsame)
  intro l x hlocate
  unfold locate at hlocate ⊢
  rw [isTrailing_descend root hnames hplain] at hlocate ⊢
  obtain rfl : l = L ++ n.artifactNames extension := h.location_artifact hextension hlocate
  obtain ⟨-, hwalks⟩ := locateWith_eq_ok.mp hlocate
  have hx := hwalks.get?_of_found
  obtain ⟨y, hy, -⟩ : ∃ y, fs'.root.get? (L ++ n.artifactNames extension) = some y ∧ y.face = x.face := by
    have hsame := hface []
    rw [List.append_nil, hx] at hsame
    exact Option.map_eq_some_iff.mp hsame
  have hadmitted := h.arrives.admitted_of_ok hnames hplain hx hlocate
  refine ⟨y, (h'.arrives.locate_descend hnames hplain hy).mpr hadmitted, fun below => ?_⟩
  have hsame := hface below
  rwa [Node.get?_append, hy, Node.get?_append _ _ below, hx] at hsame

end FileSystem

namespace Build

open FileSystem

variable {σ : Type} {c : Compiler σ} {b : Build} {units : List SourceUnit} {u : SourceUnit}
  {L : Location} {pending : List Identity} {site site' : Site σ}

/-! ## Tidiness -/

/-- A call with its clean-up keeps the names in directories plain and distinct. -/
theorem tidy_invoke (hc : c.KeepsTidy) (i : Invocation) (h : site.files.root.Tidy) :
    (invoke c i site).2.files.root.Tidy := by
  have hcall := hc i site h
  unfold invoke
  generalize c i site = call at hcall ⊢
  obtain ⟨verdict, left⟩ := call
  simp only
  cases inspect i.artifact left.files verdict with
  | compiled => exact hcall
  | crashed => exact hcall
  | failed e =>
      refine after_bind (P := fun after => after.files.root.Tidy)
        (Q := fun after => after.files.root.Tidy) ?_ (fun _ h => h) fun _ _ h => h
      rw [files_prepare]
      exact tidy_discard hcall i.artifact

theorem tidy_makeRoom (artifact : Path) (h : site.files.root.Tidy) :
    (makeRoom artifact site).2.files.root.Tidy := by
  unfold makeRoom
  cases artifact.parent? with
  | none => exact h
  | some parent =>
      simp only
      rw [files_prepare]
      exact tidy_makeDirectories h parent

/-- Compiling a unit keeps the names in directories plain and distinct. -/
theorem tidy_compile (hc : c.KeepsTidy) (u : SourceUnit) (h : site.files.root.Tidy) :
    (b.compile c u site).2.files.root.Tidy := by
  rw [compile_eq]
  split
  · exact h
  · next artifact _ =>
    exact after_bind (P := fun after => after.files.root.Tidy)
      (Q := fun after => after.files.root.Tidy) (tidy_makeRoom artifact h) (fun _ h => h)
      fun _ between hbetween => tidy_invoke hc _ hbetween

/-! ## One call -/

/-- After a failed call the place of its artifact is discarded. -/
theorem discarded_of_invoke {i : Invocation} {e : CompileError}
    (h : invoke c i site = (.ok (some e), site')) :
    ((c i site).2.files.discard i.artifact).fault = none ∧
      site'.files = ((c i site).2.files.discard i.artifact).files := by
  unfold invoke at h
  generalize c i site = call at h ⊢
  obtain ⟨verdict, left⟩ := call
  simp only at h ⊢
  split at h
  · cases (Prod.mk.inj h).1
  · cases h
  · obtain ⟨⟨⟩, discarded, hprepare, hend⟩ := Attempt.ok_of_bind h
    obtain ⟨-, rfl⟩ := Prod.mk.inj hend
    refine ⟨?_, ok_of_prepare hprepare⟩
    cases hfault : (left.files.discard i.artifact).fault with
    | none => rfl
    | some f =>
        simp only [prepare, hfault] at hprepare
        cases hprepare

/-- The place of the artifact is vacant after a failed call, whatever the call left there. -/
theorem vacant_invoke (hc : c.Confined) (htidies : c.KeepsTidy)
    (hextension : '/' ∉ b.settings.artifactExtension.toList) (hnew : u.identity ∉ pending)
    (htidy : site.files.root.Tidy)
    (hready : site.files.Ready b.outputRoot L b.settings.artifactExtension (u.identity :: pending))
    {e : CompileError} (h : invoke c ⟨u, b.outputRoot, b.artifactOf u⟩ site = (.ok (some e), site')) :
    site'.files.root.get? (L ++ u.identity.artifactNames b.settings.artifactExtension) = none := by
  obtain ⟨hfault, hfiles⟩ := discarded_of_invoke h
  have hcall := apart_call (i := ⟨u, b.outputRoot, b.artifactOf u⟩) hc
    (not_trailing_artifactOf hextension) fun spot hlocate =>
      hready.staged.location_artifact hextension hlocate
  rw [hfiles]
  refine gone_of_discard (htidies _ _ htidy) (u.identity.artifactNames_ne_nil _)
    (Identity.plain_artifactNames hextension) (fun fs hfs => ?_) hfault
  obtain ⟨-, hstaged, -⟩ := hready.of_apart hnew (hcall.trans hfs)
  exact ⟨hstaged.arrives, hstaged.open_artifact _ _⟩

/-- **Nothing is left of a failed compilation** at the place of its artifact. -/
theorem vacant_compile (hc : c.Confined) (htidies : c.KeepsTidy)
    (hne : b.settings.artifactExtension.toList ≠ [])
    (hextension : '/' ∉ b.settings.artifactExtension.toList) (hnew : u.identity ∉ pending)
    (htidy : site.files.root.Tidy)
    (hready : site.files.Ready b.outputRoot L b.settings.artifactExtension (u.identity :: pending))
    {e : CompileError} (h : b.compile c u site = (.ok (some e), site')) :
    site'.files.root.get? (L ++ u.identity.artifactNames b.settings.artifactExtension) = none := by
  rw [compile_eq, u.identity.artifactPath?_eq b.outputRoot hne hextension] at h
  obtain ⟨⟨⟩, ready, hroom, hinvoke⟩ := Attempt.ok_of_bind h
  have htidy' := tidy_makeRoom (b.artifactOf u) htidy
  rw [show makeRoom (b.artifactOf u) site = _ from hroom] at htidy'
  obtain ⟨-, hmade⟩ := ready_makeRoom (u := u) hextension hready hroom
  exact vacant_invoke hc htidies hextension hnew htidy' hmade hinvoke

/-! ## All calls -/

/-- **What was rejected has left nothing**, once all units have been handed to the compiler.  The places
in `gone` are those of units that were rejected before. -/
theorem vacant_compileAll (hc : c.Confined) (htidies : c.KeepsTidy)
    (hne : b.settings.artifactExtension.toList ≠ [])
    (hextension : '/' ∉ b.settings.artifactExtension.toList) {gone : List Identity}
    (hdistinct : (units.map (·.identity) ++ gone).Nodup) (htidy : site.files.root.Tidy)
    (hready : site.files.Ready b.outputRoot L b.settings.artifactExtension
      (units.map (·.identity) ++ gone)) {outcomes : List (SourceUnit × Option CompileError)}
    (h : b.compileAll c units site = (.ok outcomes, site')) {n : Identity}
    (hn : n ∈ gone ∨ ∃ u e, (u, some e) ∈ outcomes ∧ u.identity = n) :
    site'.files.root.get? (L ++ n.artifactNames b.settings.artifactExtension) = none := by
  induction units generalizing site gone outcomes with
  | nil =>
      obtain ⟨houtcomes, rfl⟩ := Prod.mk.inj h
      obtain rfl := Except.ok.inj houtcomes
      rcases hn with hn | ⟨u, e, hu, -⟩
      · exact hready.vacant n hn
      · cases hu
  | cons u rest ih =>
      obtain ⟨hnew, hrest⟩ := List.nodup_cons.mp hdistinct
      obtain ⟨outcome, between, hfirst, hbind⟩ := Attempt.ok_of_bind h
      obtain ⟨others, last, hothers, hend⟩ := Attempt.ok_of_bind hbind
      obtain ⟨houtcomes, rfl⟩ := Prod.mk.inj hend
      obtain rfl := Except.ok.inj houtcomes
      obtain ⟨-, hready', -⟩ := ready_compile hc hne hextension hnew hready hfirst
      have htidy' := tidy_compile (b := b) htidies u htidy
      rw [hfirst] at htidy'
      cases outcome with
      | none =>
          refine ih hrest htidy' hready' hothers (hn.imp_right ?_)
          rintro ⟨v, e, hv, rfl⟩
          exact ⟨v, e, (List.mem_cons.mp hv).resolve_left nofun, rfl⟩
      | some e =>
          -- the place of the unit has become one of those that stay vacant
          have hgone := vacant_compile hc htidies hne hextension hnew htidy hready hfirst
          have hmoved : (rest.map (·.identity) ++ u.identity :: gone).Perm
              (u.identity :: (rest.map (·.identity) ++ gone)) := List.perm_middle
          refine ih (hmoved.nodup_iff.mpr hdistinct) htidy' ⟨hready'.staged, fun m hm => ?_⟩ hothers ?_
          · rcases List.mem_cons.mp (hmoved.mem_iff.mp hm) with rfl | hm
            · exact hgone
            · exact hready'.vacant m hm
          · rcases hn with hn | ⟨v, e', hv, rfl⟩
            · exact .inl (List.mem_cons_of_mem _ hn)
            · rcases List.mem_cons.mp hv with hsame | hv
              · obtain ⟨rfl, -⟩ := Prod.mk.inj hsame
                exact .inl List.mem_cons_self
              · exact .inr ⟨v, e', hv, rfl⟩

/-- **Discarding after a call spares the place of every other artifact.** -/
theorem spared_of_called (hc : c.Confined) (hne : b.settings.artifactExtension.toList ≠ [])
    (hextension : '/' ∉ b.settings.artifactExtension.toList)
    (hdistinct : (units.map (·.identity)).Nodup)
    (hready : site.files.Ready b.outputRoot L b.settings.artifactExtension (units.map (·.identity)))
    {artifact : Path} {ready left : Site σ} {verdict : Verdict}
    (hcalled : Called c b units site u artifact ready verdict left) {n : Identity}
    (hn : n ≠ u.identity) :
    Spared (b.outputRoot.descend (n.artifactNames b.settings.artifactExtension)) left.files
      (left.files.discard artifact).files := by
  obtain ⟨⟨before, hreached, hroom⟩, hartifact, hcall⟩ := hcalled
  obtain rfl : b.artifactOf u = artifact := Option.some.inj
    ((u.identity.artifactPath?_eq b.outputRoot hne hextension).symm.trans hartifact)
  obtain ⟨pending, hnew, hbefore⟩ := ready_reached hc hne hextension hdistinct hready hreached
  obtain ⟨-, hmade⟩ := ready_makeRoom hextension hbefore hroom
  have hleft := apart_call (i := ⟨u, b.outputRoot, b.artifactOf u⟩) hc
    (not_trailing_artifactOf hextension) fun spot hlocate =>
      hmade.staged.location_artifact hextension hlocate
  rw [hcall] at hleft
  have hstaged : ∀ fs, Apart (L ++ u.identity.artifactNames b.settings.artifactExtension) left.files fs →
      fs.Staged b.outputRoot L := fun fs hfs => (hmade.of_apart hnew (hleft.trans hfs)).2.staged
  have hdiscard : Apart (L ++ u.identity.artifactNames b.settings.artifactExtension) left.files
      (left.files.discard (b.artifactOf u)).files :=
    apart_discard (not_trailing_artifactOf hextension) fun fs spot hfs hlocate =>
      (hstaged fs hfs).location_artifact hextension hlocate
  exact (hstaged _ (Apart.refl _ _)).spared hextension hdiscard (hstaged _ hdiscard) hn

end Build

end LiveUnits
