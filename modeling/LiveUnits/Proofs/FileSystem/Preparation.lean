import LiveUnits.Proofs.FileSystem.Descent
import LiveUnits.Proofs.FileSystem.Removal

/-!
# Preparing an output root

A root is prepared by removing what is there and then making it with the directories above it.  All that
this brings into existence are directories on the way to the root (`FileSystem.paved_makeDirectories`).
If the root is spelt without `..`, they are nested in one another, so the root ends up as a new and empty
directory (`FileSystem.renewed_of_no_up`).

With `..` it may not.  A removal that finds nothing on the way to the root is taken for a root that is
absent, and making the way may then lead into a directory that has been there all along.
-/

namespace LiveUnits

namespace FileSystem

variable {fs fs' : FileSystem} {p : Path} {l : Location}

/-! ## Directories on the way -/

/-- Directories were made on the way of a path, and nothing else. -/
structure Paved (p : Path) (fs fs' : FileSystem) : Prop where
  /-- Everything that existed is still there. -/
  kept : Kept fs fs'
  /-- What is new is a directory that a part of the way leads to. -/
  new : ∀ l x, fs.root.get? l = none → fs'.root.get? l = some x →
    ∃ entries front, x = .directory entries ∧ front <+: steps p ∧
      Walks fs' true false linkLimit (fs'.start p) front (.found l (.directory entries))

/-- **Making directories makes directories on the way only.** -/
theorem paved_makeDirectories (fs : FileSystem) (p : Path) :
    Paved p fs (fs.makeDirectories p).files := by
  refine makeDirectories_induct (P := Paved p fs) (fun fs' q hq hne hpaved => ?_)
    ⟨Kept.refl fs, fun l x hnone hx => nomatch hnone.symm.trans hx⟩
  rcases makeDirectory_cases fs' q with hsame | ⟨d, name, hlocate, hfiles⟩
  · rw [hsame]
    exact hpaved
  have habove := Path.above_of_mem_ancestors hq hne
  obtain ⟨-, hwalks⟩ := locateWith_eq_ok.mp hlocate
  obtain ⟨⟨below, hd⟩, hvacant⟩ := hwalks.get?_of_vacant
  have hkept : Kept fs' (fs'.put (d ++ [name]) (some (.directory []))) :=
    (apart_put fs' (d ++ [name]) _).kept hvacant
  rw [hfiles]
  refine ⟨hpaved.kept.trans hkept, fun l x hnone hx => ?_⟩
  rcases Node.get?_put_directory hd name hx with ⟨rfl, rfl⟩ | ⟨y, hy, hface⟩
  · refine ⟨[], steps q, rfl, habove.steps, ?_⟩
    have hstart : fs'.start q = fs'.start p := by
      unfold start
      rw [habove.start]
    rw [hstart] at hwalks
    exact hwalks.of_vacant hkept (Node.get?_put_self hd name _) fun _ => .inl rfl
  · obtain ⟨entries, front, rfl, hfront, hwalks'⟩ := hpaved.new l y hnone hy
    obtain ⟨z, hz, hagain⟩ := hwalks'.kept hkept
    obtain ⟨entries', rfl⟩ := Node.eq_directory_of_face hz
    obtain rfl := Option.some.inj (hx.symm.trans hagain.get?_of_found)
    exact ⟨entries', front, rfl, hfront, hagain⟩

/-- Without `..` on it, the way leads from everything that is new to the place below it. -/
theorem Paved.prefix_of_new (h : Paved p fs fs') (hup : [fullStop, fullStop] ∉ steps p) {L : Location}
    {entries : List (Name × Node)} (hL : fs'.locate true p = .ok (.found L (.directory entries)))
    {x : Node} (hnone : fs.root.get? l = none) (hx : fs'.root.get? l = some x) : l <+: L := by
  obtain ⟨below, front, rfl, ⟨rest, hsteps⟩, hfront⟩ := h.new l x hnone hx
  obtain ⟨-, hwalks⟩ := locateWith_eq_ok.mp hL
  rw [← hsteps] at hwalks hup
  by_cases hrest : rest = []
  · rw [hrest, List.append_nil] at hwalks
    have hdirectory : Walks fs' true false linkLimit (fs'.start p) front
        (.found L (.directory entries)) := hwalks.of_more rfl fun _ => .inl rfl
    have hsame := hdirectory.walk_eq.symm.trans hfront.walk_eq
    obtain ⟨rfl, -⟩ := Spot.found.inj (Except.ok.inj hsame)
    exact List.prefix_refl L
  · obtain ⟨left, hleft⟩ := hfront.walk_append
    have hwalk := hwalks.walk_eq
    rw [hleft true (isTrailing p) rest hrest] at hwalk
    -- all that is below a new directory is new, so there are no links
    refine (walks_of_walk hwalk).prefix_location (fun h => hup (List.mem_append_right front h)) ?_
    intro m target hlink
    have hnone' := Node.get?_eq_none_of_prefix hnone (List.prefix_append l m)
    obtain ⟨_, _, hdirectory, -⟩ := h.new (l ++ m) _ hnone' hlink
    cases hdirectory

/-- If nothing is new, nothing has changed. -/
theorem Paved.kept_of_no_new (h : Paved p fs fs')
    (hold : ∀ l x, fs'.root.get? l = some x → fs.root.get? l ≠ none) : Kept fs' fs := by
  refine ⟨h.kept.cwd.symm, fun l x hx => ?_⟩
  obtain ⟨y, hy⟩ := Option.ne_none_iff_exists'.mp (hold l x hx)
  have hface := h.kept.face l y hy
  rw [hx] at hface
  rw [hy]
  exact hface.symm

/-- A directory that was made is new and empty, if the way to it has no `..`. -/
theorem Paved.new_and_empty (h : Paved p fs fs') (hup : [fullStop, fullStop] ∉ steps p)
    (habsent : fs.isDirectory p = false) {L : Location} {entries : List (Name × Node)}
    (hL : fs'.locate true p = .ok (.found L (.directory entries))) :
    fs.root.get? L = none ∧ entries = [] := by
  obtain ⟨l, x, hx, hnone⟩ : ∃ l x, fs'.root.get? l = some x ∧ fs.root.get? l = none := by
    by_contra hold
    push Not at hold
    have hdirectory := (h.kept_of_no_new hold).isDirectory (isDirectory_eq_true.mpr ⟨L, entries, hL⟩)
    rw [habsent] at hdirectory
    cases hdirectory
  have hnew := Node.get?_eq_none_of_prefix hnone (h.prefix_of_new hup hL hnone hx)
  refine ⟨hnew, ?_⟩
  cases entries with
  | nil => rfl
  | cons entry rest =>
      exfalso
      obtain ⟨-, hwalks⟩ := locateWith_eq_ok.mp hL
      have hentry : fs'.root.get? (L ++ [entry.1]) = some entry.2 := by
        rw [Node.get?_concat hwalks.get?_of_found, List.lookup_cons_self]
      have hnone' := Node.get?_eq_none_of_prefix hnew (List.prefix_append L [entry.1])
      have hbegins := (h.prefix_of_new hup hL hnone' hentry).length_le
      rw [List.length_append, List.length_singleton] at hbegins
      omega

/-! ## Clearing -/

/-- A root is empty once it has been prepared. -/
def EmptyOnceCleared (fs : FileSystem) (p : Path) : Prop :=
  (fs.clear p).fault = none → (fs.clear p).files.list p = .ok []

/-- A root is a new directory once it has been prepared: nothing was there after the removal. -/
def NewOnceCleared (fs : FileSystem) (p : Path) : Prop :=
  (fs.clear p).fault = none →
    ∀ L, (fs.clear p).files.Arrives p L → (fs.removeTree p).files.root.get? L = none

/-- A new directory that holds a place which existed before stands where a removed directory was. -/
theorem exists_arrives_of_new {S : Location} (hS : fs.HasDirectory S)
    (hnew : (fs.removeTree p).files.root.get? l = none) (h : l <+: S) :
    ∃ L, fs.Arrives p L ∧ L <+: S := by
  by_contra hnone
  obtain ⟨below, hbelow⟩ := hS
  have hface := face_of_removeTree hbelow rfl fun L entries hL hbegins =>
    hnone ⟨L, ⟨entries, hL⟩, hbegins⟩
  rw [Node.get?_eq_none_of_prefix hnew h] at hface
  cases hface

/-- Clearing fails where removing fails, or goes on to make the directory. -/
theorem clear_cases (fs : FileSystem) (p : Path) :
    (fs.clear p = fs.removeTree p ∧ (fs.clear p).fault ≠ none) ∨
      ((fs.removeTree p).fault = none ∨ (fs.removeTree p).fault = some .notFound) ∧
        fs.clear p = (fs.removeTree p).files.makeDirectories p := by
  unfold clear
  generalize fs.removeTree p = change
  obtain ⟨fault, removed⟩ := change
  cases fault with
  | none => exact .inr ⟨.inl rfl, rfl⟩
  | some f =>
      by_cases hf : f = .notFound
      · subst hf
        exact .inr ⟨.inr rfl, rfl⟩
      · simp only [if_neg hf]
        exact .inl ⟨trivial, nofun⟩

/-- Clearing keeps what the removal has left. -/
theorem kept_clear (fs : FileSystem) (p : Path) : Kept (fs.removeTree p).files (fs.clear p).files := by
  rcases clear_cases fs p with ⟨hremoved, -⟩ | ⟨-, hmade⟩
  · rw [hremoved]
    exact Kept.refl _
  · rw [hmade]
    exact kept_makeDirectories _ p

/-- **A root without `..` is new and empty once it has been prepared.** -/
theorem renewed_of_no_up (htidy : fs.root.Tidy) (hup : [fullStop, fullStop] ∉ steps p)
    (hne : p.bytes ≠ []) (hparent : p.parent?.isSome) : fs.EmptyOnceCleared p ∧ fs.NewOnceCleared p := by
  rcases clear_cases fs p with ⟨-, hfails⟩ | ⟨hremoved, hmade⟩
  · exact ⟨fun hfault => absurd hfault hfails, fun hfault => absurd hfault hfails⟩
  have habsent := not_isDirectory_of_removeTree htidy hremoved
  have hpaved := paved_makeDirectories (fs.removeTree p).files p
  unfold EmptyOnceCleared NewOnceCleared
  rw [hmade]
  refine ⟨fun hfault => ?_, fun _ L ⟨entries, hL⟩ => (hpaved.new_and_empty hup habsent hL).1⟩
  obtain ⟨L, entries, hL⟩ := isDirectory_eq_true.mp (isDirectory_of_makeDirectories hfault hne hparent)
  obtain ⟨-, rfl⟩ := hpaved.new_and_empty hup habsent hL
  exact list_eq_ok.mpr ⟨L, hL⟩

/-! ## Roots that lead where nothing is made -/

/-- A part that leads up is a component. -/
theorem up_mem_components (h : [fullStop, fullStop] ∈ steps p) : .up ∈ p.components := by
  obtain ⟨hpart, -⟩ := List.mem_filter.mp h
  rw [Path.components_eq]
  exact List.mem_append_right _ (List.mem_filterMap.mpr ⟨_, hpart, rfl⟩)

/-- A root is recognised to lie inside another one if both can be resolved and it is below. -/
theorem liesInside_of_below {inner outer : Path} {S : Location} (houter : fs.canonical outer = .ok l)
    (hinner : fs.canonical inner = .ok S) (h : l <+: S) : fs.liesInside inner outer = true := by
  unfold liesInside placeOf
  rw [houter, hinner, List.isPrefixOf_iff_prefix]
  exact (List.prefix_cons_inj _).mpr (h.map _)

/-- A relative path starts with a part. -/
theorem exists_parts_of_relative (hne : p.bytes ≠ []) (h : ¬ p.isAbsolute = true) :
    ∃ first rest, p.parts = first :: rest ∧ first ≠ [] := by
  obtain ⟨bytes⟩ := p
  obtain ⟨a, rest, rfl⟩ := List.exists_cons_of_ne_nil hne
  have ha : a ≠ slash := by
    rintro rfl
    exact h rfl
  refine ⟨a :: (LiveUnits.parts slash rest).1, (LiveUnits.parts slash rest).2, ?_, List.cons_ne_nil _ _⟩
  simp [Path.parts, splitOn, LiveUnits.parts, ha]

/-- A path whose last component is the root, if it has one, has no parts that lead anywhere. -/
theorem body_eq_nil_of_last (h : p.components.getLast? = none ∨ p.components.getLast? = some .root) :
    Path.body p.bytes = [] := by
  rw [p.components_eq] at h
  cases hlast : (Path.body p.bytes).getLast? with
  | none => exact List.getLast?_eq_none_iff.mp hlast
  | some c =>
      rw [List.getLast?_append, hlast, Option.some_or] at h
      obtain rfl : c = .root := by simpa using h
      exact absurd (List.mem_of_getLast? hlast) (Path.root_not_mem_body p.bytes)

/-- A path without a parent is empty, or it starts at the root of the file system and stays there. -/
theorem stays_of_parent?_eq_none (h : p.parent? = none) (hne : p.bytes ≠ []) :
    p.components = [.root] ∧ p.isAbsolute = true ∧ ∀ part ∈ steps p, part = [fullStop] := by
  have hlast : p.components.getLast? = none ∨ p.components.getLast? = some .root := by
    unfold Path.parent? at h
    split at h
    · next hnone => exact .inl hnone
    · next hroot => exact .inr hroot
    · cases h
  have hbody := body_eq_nil_of_last hlast
  have hcomponents := p.components_eq
  rw [hbody, List.append_nil] at hcomponents
  have hparts : ∀ part ∈ p.parts, part = [] ∨ part = [fullStop] := by
    intro part hpart
    have hnone := List.filterMap_eq_nil_iff.mp hbody part hpart
    unfold Path.Component.ofPart? at hnone
    split_ifs at hnone with hstays
    exact hstays
  have habsolute : p.isAbsolute = true := by
    by_contra hrelative
    obtain ⟨first, rest, hsplit, hfirst⟩ := exists_parts_of_relative hne hrelative
    have hdot : first = [fullStop] :=
      (hparts first (hsplit ▸ List.mem_cons_self)).resolve_left hfirst
    rw [hcomponents, Path.head, if_neg hrelative, hsplit, hdot, List.head?_cons, if_pos rfl] at hlast
    simp at hlast
  refine ⟨?_, habsolute, fun part hpart => ?_⟩
  · rw [hcomponents, Path.head, if_pos habsolute]
  · obtain ⟨hmem, hpart⟩ := List.mem_filter.mp hpart
    exact (hparts part hmem).resolve_left (by simpa using hpart)

/-- Everything lies inside a path that makes no directory when it is prepared. -/
theorem liesInside_of_ends {q : Path} {S : Location} (hq : fs.canonical q = .ok S)
    (h : p.bytes = [] ∨ p.parent? = none) : fs.liesInside q p = true := by
  have hplace : fs.placeOf p <+: [Path.Component.root] := by
    by_cases hnil : p.bytes = []
    · obtain ⟨bytes⟩ := p
      obtain rfl : bytes = [] := hnil
      exact List.nil_prefix
    · obtain ⟨hcomponents, habsolute, hstays⟩ :=
        stays_of_parent?_eq_none (h.resolve_left hnil) hnil
      unfold placeOf
      cases hp : fs.canonical p with
      | error f => exact hcomponents ▸ List.prefix_refl _
      | ok L =>
          obtain ⟨x, hx⟩ := canonical_eq_ok.mp hp
          obtain ⟨-, hwalks⟩ := locateWith_eq_ok.mp hx
          have hL : L = fs.start p := hwalks.location_of_stays hstays
          unfold start at hL
          rw [if_pos habsolute] at hL
          rw [hL]
          exact List.prefix_refl _
  unfold liesInside
  rw [List.isPrefixOf_iff_prefix]
  refine hplace.trans ?_
  unfold placeOf
  rw [hq]
  exact List.prefix_append [Path.Component.root] _

/-- **A root without `..` that does not hold the other root** is new and empty once it has been
prepared. -/
theorem renewed_of_not_liesInside (htidy : fs.root.Tidy) {q : Path} {S : Location}
    (hq : fs.canonical q = .ok S) (hroots : fs.liesInside q p = false) (hup : .up ∉ p.components) :
    fs.EmptyOnceCleared p ∧ fs.NewOnceCleared p := by
  have hends : ¬ (p.bytes = [] ∨ p.parent? = none) := by
    intro hends
    rw [liesInside_of_ends hq hends] at hroots
    cases hroots
  rw [not_or] at hends
  exact renewed_of_no_up htidy (fun h => hup (up_mem_components h)) hends.1
    (Option.isSome_iff_ne_none.mpr hends.2)

end FileSystem

end LiveUnits
