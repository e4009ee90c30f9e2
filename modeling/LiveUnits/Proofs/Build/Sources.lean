import Mathlib
import LiveUnits.Proofs.Build.Accounting
import LiveUnits.Proofs.Build.Containment
import LiveUnits.Proofs.FileSystem.Preparation

/-!
# Builds do not destroy sources

A build removes what the output root names and then works inside the directory that it makes there.
Either step could reach the sources: the root may hold them, it may lead to them through a link, or an
artifact may go where a link left by an earlier one leads.  If the output root is an empty directory once
it has been prepared, no file is lost but those that were below the directory that it named before; and
if that directory holds the source root, or the one that is made in its place does, the build is refused
(`Build.sources_run`).

A root that is spelt without `..` is always new and empty then.  With `..` it need not be: of the root
`new/../src` nothing is found to remove as long as there is no `new`, and then it is made and leads to the
sources.
-/

namespace LiveUnits

namespace Build

open FileSystem

variable {σ : Type} {c : Compiler σ} {b : Build} {site : Site σ} {S : Location}

/-! ## Refusing -/

/-- The build ends at once because the source root lies inside the output root, and nothing has
changed. -/
def Refuses (c : Compiler σ) (b : Build) (site : Site σ) : Prop :=
  b.run c site = (.error (.error (.overlappingRoots b.sourceRoot b.outputRoot)), site)

/-- A build whose source root lies inside the output root is refused before anything is touched. -/
theorem refuses_of_liesInside (h : site.files.liesInside b.sourceRoot b.outputRoot = true) :
    b.Refuses c site := by
  unfold Refuses
  rw [run_phases, if_pos h]

/-- A build with the sources inside the directory that the output root names is refused. -/
theorem refuses_of_arrives (hsource : site.files.Arrives b.sourceRoot S) {L : Location}
    (hL : site.files.Arrives b.outputRoot L) (h : L <+: S) : b.Refuses c site := by
  obtain ⟨below, hsource⟩ := hsource
  obtain ⟨entries, hL⟩ := hL
  exact refuses_of_liesInside
    (liesInside_of_below (canonical_eq_ok.mpr ⟨_, hL⟩) (canonical_eq_ok.mpr ⟨_, hsource⟩) h)

/-! ## What is kept -/

/-- **After the removal a build keeps everything**, if it starts with an empty output root then. -/
theorem kept_run (hc : c.Confined) (htidy : site.files.root.Tidy)
    (hroots : site.files.liesInside b.sourceRoot b.outputRoot = false)
    (hempty : site.files.EmptyOnceCleared b.outputRoot) :
    Kept (site.files.removeTree b.outputRoot).files (b.run c site).2.files := by
  have hcleared : Kept (site.files.removeTree b.outputRoot).files (b.cleared site).files :=
    kept_clear site.files b.outputRoot
  rw [run_phases, hroots, if_neg Bool.false_ne_true]
  cases hfault : (site.files.clear b.outputRoot).fault with
  | some f => exact hcleared
  | none =>
      simp only
      cases hfound : (b.cleared site).files.discover b.sourceRoot b.settings.sourceExtension with
      | error f => exact hcleared
      | ok found =>
          obtain ⟨L, hL⟩ := list_eq_ok.mp (hempty hfault)
          obtain ⟨-, hwalks⟩ := locateWith_eq_ok.mp hL
          -- the units are sorted, so a place that is a directory to later units is never taken first
          have hlater : found.units.Pairwise fun u v => ¬ b.placeNames u <+: b.placeNames v :=
            (pairwise_segments_discover (tidy_clear htidy b.outputRoot) hfound).imp fun hsegments h =>
              hsegments (Identity.segments_prefix_of_placeNames h)
          have hinside : Inside L (b.cleared site).files
              ((b.compileAll c found.units >>= b.conclude found.issues) (b.cleared site)).2.files :=
            after_bind (P := fun after => Inside L (b.cleared site).files after.files)
              (Q := fun after => Inside L (b.cleared site).files after.files)
              (inside_compileAll hc hlater (guarded_of_empty hL _)) (fun _ h => h) fun _ _ h => h
          exact hcleared.trans (hinside.kept hwalks.get?_of_found)

/-- **A build never destroys sources.**  If the output root names a directory that holds the source root,
the build is refused and nothing changes.  If the output root is spelt without `..`, or if it is new and
empty once it has been prepared in spite of that, the build is also refused if the directory it would
write to holds the source root; and whatever comes of it, no file is lost or changed but those below the
directory that the output root named before. -/
theorem sources_run (c : Compiler σ) (b : Build) (hc : c.Confined) {site : Site σ}
    (htidy : site.files.root.Tidy) {S : Location} (hsource : site.files.Arrives b.sourceRoot S) :
    (∀ L, site.files.Arrives b.outputRoot L → L <+: S → b.Refuses c site) ∧
      (.up ∉ b.outputRoot.components ∨ site.files.NewOnceCleared b.outputRoot →
        ∀ L, (site.files.clear b.outputRoot).fault = none →
          (b.cleared site).files.Arrives b.outputRoot L → L <+: S → b.Refuses c site) ∧
      (.up ∉ b.outputRoot.components ∨ site.files.EmptyOnceCleared b.outputRoot →
        ∀ l bytes, site.files.root.get? l = some (.file bytes) →
          (∀ L, site.files.Arrives b.outputRoot L → ¬ L <+: l) →
            (b.run c site).2.files.root.get? l = some (.file bytes)) := by
  obtain ⟨below, hbelow⟩ := id hsource
  obtain ⟨-, hwalks⟩ := locateWith_eq_ok.mp hbelow
  have hcanonical : site.files.canonical b.sourceRoot = .ok S := canonical_eq_ok.mpr ⟨_, hbelow⟩
  refine ⟨fun L hL => refuses_of_arrives hsource hL, fun hroot L hfault hL hbegins => ?_,
    fun hroot l bytes hfile houtside => ?_⟩
  · cases hroots : site.files.liesInside b.sourceRoot b.outputRoot with
    | true => exact refuses_of_liesInside hroots
    | false =>
        have hnew : site.files.NewOnceCleared b.outputRoot :=
          hroot.elim (fun hup => (renewed_of_not_liesInside htidy hcanonical hroots hup).2) id
        -- the source root existed, so the removal must have taken a directory that held it
        obtain ⟨L', hL', hbegins'⟩ :=
          exists_arrives_of_new ⟨below, hwalks.get?_of_found⟩ (hnew hfault L hL) hbegins
        exact refuses_of_arrives hsource hL' hbegins'
  · cases hroots : site.files.liesInside b.sourceRoot b.outputRoot with
    | true =>
        have hrefuses : b.Refuses c site := refuses_of_liesInside hroots
        rw [hrefuses]
        exact hfile
    | false =>
        have hempty : site.files.EmptyOnceCleared b.outputRoot :=
          hroot.elim (fun hup => (renewed_of_not_liesInside htidy hcanonical hroots hup).1) id
        have hleft := face_of_removeTree hfile rfl fun L entries hL => houtside L ⟨entries, hL⟩
        obtain ⟨x, hx, hface⟩ := Option.map_eq_some_iff.mp hleft
        have hlast := (kept_run (c := c) hc htidy hroots hempty).face l x hx
        rw [hface] at hlast
        exact Node.eq_some_file_of_face hlast

/-! ## A build of one file with one extension

Artifacts have the extension of source files, so an artifact could take the place of its source. -/

namespace OneFile

/-- The build, into an output root. -/
def into (root : Path) : Build :=
  { build {} with
    outputRoot := root, settings := { sourceExtension := "src", artifactExtension := "src" } }

/-- Where the source file is. -/
def sourcePlace : Location := [Utf8.encode "s", Utf8.encode "a", Utf8.encode "Foo.src"]

/-- The source file is still there after a build, also if the spelling of the output root goes up, and a
build into the source root itself is refused. -/
theorem sources_run_one_file :
    (files []).root.Tidy ∧ (writing [] : Compiler Unit).Confined ∧
      (files []).Arrives (into ⟨Utf8.encode "o"⟩).sourceRoot [Utf8.encode "s"] ∧
      ((into ⟨Utf8.encode "o"⟩).run (writing []) (⟨files [], ()⟩ : Site Unit)).2.files.root.get?
        sourcePlace = some (.file []) ∧
      ((into ⟨Utf8.encode "s/../o"⟩).run (writing []) (⟨files [], ()⟩ : Site Unit)).2.files.root.get?
        sourcePlace = some (.file []) ∧
      (into ⟨Utf8.encode "s"⟩).Refuses (writing []) (⟨files [], ()⟩ : Site Unit) := by
  have hsource : (files []).Arrives ⟨Utf8.encode "s"⟩ [Utf8.encode "s"] := ⟨_, by cbv⟩
  have hnowhere : ∀ {root : Path}, (files []).isDirectory root = false →
      ∀ L, (files []).Arrives root L → ¬ L <+: sourcePlace := by
    rintro root habsent L ⟨entries, hL⟩
    rw [isDirectory_eq_true.mpr ⟨L, entries, hL⟩] at habsent
    cases habsent
  have hinto := @sources_run Unit (writing []) (into ⟨Utf8.encode "o"⟩) (confined_writing [])
    ⟨files [], ()⟩ tidy_files _ hsource
  have hup := @sources_run Unit (writing []) (into ⟨Utf8.encode "s/../o"⟩) (confined_writing [])
    ⟨files [], ()⟩ tidy_files _ hsource
  have hown := @sources_run Unit (writing []) (into ⟨Utf8.encode "s"⟩) (confined_writing [])
    ⟨files [], ()⟩ tidy_files _ hsource
  refine ⟨tidy_files, confined_writing [], hsource, ?_, ?_, ?_⟩
  · exact hinto.2.2 (.inl (by decide)) sourcePlace [] (by cbv) (hnowhere (by cbv))
  · have hempty : (files []).EmptyOnceCleared ⟨Utf8.encode "s/../o"⟩ := fun _ => by cbv
    exact hup.2.2 (.inr hempty) sourcePlace [] (by cbv) (hnowhere (by cbv))
  · exact hown.2.1 (.inl (by decide)) [Utf8.encode "s"] (by cbv) ⟨_, by cbv⟩ (List.prefix_refl _)

/-- Of a root that goes through a name which does not exist nothing is found to remove, and once it has
been made it leads to the sources. -/
example : ((into ⟨Utf8.encode "n/../s"⟩).run (writing []) (⟨files [], ()⟩ : Site Unit)).2.files.root.get?
    sourcePlace = none := by
  cbv

end OneFile

end Build

end LiveUnits
