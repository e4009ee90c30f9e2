import LiveUnits.Proofs.Build.Calls

/-!
# What compiling touches

A confined compiler that starts with an empty output root touches nothing outside of it, whatever comes
of its calls (`Build.inside_compileAll`).  The path of an artifact might lead elsewhere if a link stood on
the way, and the compiler may leave one.  But a link stands only where an artifact belongs, and no
artifact that is still to come belongs below that place; so whatever is on the way to it is a directory
(`FileSystem.Guarded`).
-/

namespace LiveUnits

namespace FileSystem

variable {base fs fs' : FileSystem} {root : Path} {L : Location} {names : List Name}
  {places : List (List Name)}

/-! ## Changes inside a directory -/

/-- Two file systems look the same except below a location. -/
structure Inside (L : Location) (fs fs' : FileSystem) : Prop where
  /-- Both have the same working directory. -/
  cwd : fs'.cwd = fs.cwd
  /-- What is not below the location looks the same. -/
  face : ∀ l, (L <+: l → l = L) → (fs'.root.get? l).map Node.face = (fs.root.get? l).map Node.face

theorem Inside.refl (L : Location) (fs : FileSystem) : Inside L fs fs := ⟨rfl, fun _ _ => rfl⟩

theorem Inside.trans {fs₁ fs₂ fs₃ : FileSystem} (h : Inside L fs₁ fs₂) (h' : Inside L fs₂ fs₃) :
    Inside L fs₁ fs₃ :=
  ⟨h'.cwd.trans h.cwd, fun l hl => (h'.face l hl).trans (h.face l hl)⟩

/-- A change at a place below another one is inside that one. -/
theorem Apart.inside (h : Apart (L ++ names) fs fs') (hne : names ≠ []) : Inside L fs fs' := by
  refine ⟨h.cwd, fun l hl => h.face l fun hbegins => hne ?_⟩
  obtain rfl := hl ((List.prefix_append L names).trans hbegins)
  have hlength := hbegins.length_le
  rw [List.length_append] at hlength
  exact List.eq_nil_of_length_eq_zero (by omega)

/-- What is done inside an empty directory keeps what exists. -/
theorem Inside.kept (h : Inside L fs fs') (hempty : fs.root.get? L = some (.directory [])) :
    Kept fs fs' := by
  refine ⟨h.cwd, fun l x hx => ?_⟩
  rw [h.face l fun hbegins => ?_, hx]
  · rfl
  · -- nothing was below the directory
    obtain ⟨below, rfl⟩ := hbegins
    rw [Node.get?_append, hempty] at hx
    cases below with
    | nil => exact List.append_nil L
    | cons n rest => cases hx

/-! ## Places that are guarded -/

/-- A root led to an empty directory at first.  Since then all changes were made inside it, and the ways
to the places that are still to be used are open. -/
structure Guarded (base fs : FileSystem) (root : Path) (L : Location) (places : List (List Name)) :
    Prop where
  /-- The root led to an empty directory. -/
  empty : base.locate true root = .ok (.found L (.directory []))
  inside : Inside L base fs
  opens : ∀ names ∈ places, fs.Open L names

/-- An empty output root is guarded, whatever the places of the artifacts are. -/
theorem guarded_of_empty (h : base.locate true root = .ok (.found L (.directory [])))
    (places : List (List Name)) : Guarded base base root L places := by
  refine ⟨h, Inside.refl L base, fun names _ front _ _ x hx => ?_⟩
  obtain ⟨-, hwalks⟩ := locateWith_eq_ok.mp h
  rw [Node.get?_append, hwalks.get?_of_found] at hx
  cases front with
  | nil =>
      obtain rfl := Option.some.inj hx
      rfl
  | cons n rest => cases hx

/-- The way to a guarded output root stays open. -/
theorem Guarded.arrives (h : Guarded base fs root L places) : fs.Arrives root L := by
  obtain ⟨-, hwalks⟩ := locateWith_eq_ok.mp h.empty
  have harrives : base.Arrives root L := ⟨[], h.empty⟩
  exact harrives.of_kept (h.inside.kept hwalks.get?_of_found)

theorem Guarded.tail (h : Guarded base fs root L (names :: places)) : Guarded base fs root L places :=
  ⟨h.empty, h.inside, fun other hother => h.opens other (List.mem_cons_of_mem names hother)⟩

/-- A new directory leaves all ways open. -/
theorem Guarded.put_directory (h : Guarded base fs root L places) {d : Location} {name : Name}
    (hd : fs.HasDirectory d) {front : List Name} (hfront : front ≠ []) (hplace : d ++ [name] = L ++ front) :
    Guarded base (fs.put (d ++ [name]) (some (.directory []))) root L places := by
  obtain ⟨entries, hd⟩ := hd
  refine ⟨h.empty, h.inside.trans ?_, fun names hnames init hinit hne x hx => ?_⟩
  · rw [hplace]
    exact (apart_put fs (L ++ front) _).inside hfront
  · rcases Node.get?_put_directory hd name hx with ⟨-, rfl⟩ | ⟨y, hy, hface⟩
    · rfl
    · rw [hface]
      exact h.opens names hnames init hinit hne y hy

/-- Making the directories above a place leaves all ways open. -/
theorem Guarded.makeDirectories {front : List Name} {last : Name}
    (h : Guarded base fs root L ((front ++ [last]) :: places)) (hfront : ∀ n ∈ front, PlainName n)
    (hlast : PlainName last) {parent : Path}
    (hparent : (root.descend (front ++ [last])).parent? = some parent) :
    Guarded base (fs.makeDirectories parent).files root L ((front ++ [last]) :: places) := by
  refine makeDirectories_descend_induct (L := L)
    (P := fun fs => Guarded base fs root L ((front ++ [last]) :: places)) hfront hlast hparent
    (fun fs hfs => ⟨hfs.arrives, ?_⟩) (fun fs d name init hfs hd _ _ hinit hplace => ?_) h
  · exact (hfs.opens _ List.mem_cons_self).upTo (List.prefix_append front [last])
  · exact hfs.put_directory hd hinit hplace

/-- Whatever comes to stand at a place, it is on the way to no place that is still to be used. -/
theorem Guarded.of_apart (h : Guarded base fs root L (names :: places)) (hne : names ≠ [])
    (hlater : ∀ other ∈ places, ¬ names <+: other) (hapart : Apart (L ++ names) fs fs') :
    Guarded base fs' root L (names :: places) := by
  refine ⟨h.empty, h.inside.trans (hapart.inside hne), fun other hother front hfront hends x hx => ?_⟩
  -- the place is neither on its own way nor on the way to a later one
  have hbegins : ¬ L ++ names <+: L ++ front := by
    rw [List.prefix_append_right_inj]
    intro hbegins
    rcases List.mem_cons.mp hother with rfl | hother
    · exact hends (hfront.eq_of_length_le hbegins.length_le)
    · exact hlater other hother (hbegins.trans hfront)
  have hface := hapart.face _ hbegins
  rw [hx] at hface
  obtain ⟨y, hy, hsame⟩ := Option.map_eq_some_iff.mp hface.symm
  rw [← hsame]
  exact h.opens other hother front hfront hends y hy

end FileSystem

namespace Build

open FileSystem

variable {σ : Type} {c : Compiler σ} {b : Build} {u : SourceUnit} {base : FileSystem} {L : Location}
  {places : List (List Name)} {site : Site σ}

/-! ## Compiling -/

/-- The names that lead to the place for the artifact of a unit. -/
def placeNames (b : Build) (u : SourceUnit) : List Name :=
  u.identity.placeNames b.settings.artifactExtension

/-- Making room for an artifact happens inside the output root. -/
theorem guarded_makeRoom (hslash : '/' ∉ b.settings.artifactExtension.toList)
    (h : Guarded base site.files b.outputRoot L (b.placeNames u :: places)) :
    Guarded base (makeRoom (b.outputRoot.descend (b.placeNames u)) site).2.files b.outputRoot L
      (b.placeNames u :: places) := by
  obtain ⟨front, last, hnames, hfront, hlast⟩ := u.identity.exists_placeNames hslash
  unfold placeNames at h ⊢
  rw [hnames] at h ⊢
  unfold makeRoom
  cases hparent : (b.outputRoot.descend (front ++ [last])).parent? with
  | none => exact h
  | some parent =>
      simp only
      rw [files_prepare]
      exact h.makeDirectories hfront hlast hparent

/-- A call leaves the ways to the other places open, whatever comes of it. -/
theorem guarded_invoke (hc : c.Confined) (hslash : '/' ∉ b.settings.artifactExtension.toList)
    (hlater : ∀ other ∈ places, ¬ b.placeNames u <+: other)
    (h : Guarded base site.files b.outputRoot L (b.placeNames u :: places)) :
    Guarded base (invoke c ⟨u, b.outputRoot, b.outputRoot.descend (b.placeNames u)⟩ site).2.files
      b.outputRoot L (b.placeNames u :: places) := by
  obtain ⟨front, last, hnames, hfront, hlast⟩ := u.identity.exists_placeNames hslash
  have hsplit : b.placeNames u = front ++ [last] := hnames
  have hne : b.placeNames u ≠ [] := hsplit ▸ List.append_ne_nil_of_right_ne_nil _ (List.cons_ne_nil _ _)
  have hplain : ∀ n ∈ b.placeNames u, PlainName n := by
    rw [hsplit]
    intro n hn
    rcases List.mem_append.mp hn with hn | hn
    · exact hfront n hn
    · exact List.mem_singleton.mp hn ▸ hlast
  have htrailing : isTrailing (b.outputRoot.descend (b.placeNames u)) = false := by
    rw [hsplit, Path.descend_concat]
    exact beq_false_of_ne (Path.not_trailing_joinBytes _ hlast)
  -- the path of the artifact leads to its place whatever the call has left there
  refine h.of_apart hne hlater (apart_invoke hc htrailing fun fs spot hapart hlocate => ?_)
  have hfs := h.of_apart hne hlater hapart
  exact location_descend hfs.arrives hne hplain (hfs.opens _ List.mem_cons_self) hlocate

/-- **Compiling a unit leaves the ways to the other places open.** -/
theorem guarded_compile (hc : c.Confined) (hlater : ∀ other ∈ places, ¬ b.placeNames u <+: other)
    (h : Guarded base site.files b.outputRoot L (b.placeNames u :: places)) :
    Guarded base (b.compile c u site).2.files b.outputRoot L places := by
  rw [compile_eq]
  by_cases hslash : '/' ∈ b.settings.artifactExtension.toList
  · have hnowhere : u.identity.artifactPath? b.outputRoot b.settings.artifactExtension = none :=
      if_pos hslash
    rw [hnowhere]
    exact h.tail
  · rw [u.identity.artifactPath?_eq_descend b.outputRoot hslash]
    refine after_bind
      (P := fun site => Guarded base site.files b.outputRoot L (b.placeNames u :: places))
      (Q := fun site => Guarded base site.files b.outputRoot L places)
      (guarded_makeRoom hslash h) (fun _ h => h.tail) fun _ between hbetween => ?_
    exact (guarded_invoke hc hslash hlater hbetween).tail

/-- **Compiling touches nothing outside the output root**, if no artifact belongs below the place for an
earlier one. -/
theorem inside_compileAll (hc : c.Confined) {units : List SourceUnit}
    (hlater : units.Pairwise fun u v => ¬ b.placeNames u <+: b.placeNames v)
    (h : Guarded base site.files b.outputRoot L (units.map b.placeNames)) :
    Inside L base (b.compileAll c units site).2.files := by
  induction units generalizing site with
  | nil => exact h.inside
  | cons u rest ih =>
      obtain ⟨hu, hrest⟩ := List.pairwise_cons.mp hlater
      have hothers : ∀ other ∈ rest.map b.placeNames, ¬ b.placeNames u <+: other := by
        intro other hother
        obtain ⟨v, hv, rfl⟩ := List.mem_map.mp hother
        exact hu v hv
      refine after_bind
        (P := fun site => Guarded base site.files b.outputRoot L (rest.map b.placeNames))
        (Q := fun site => Inside L base site.files)
        (guarded_compile hc hothers h) (fun _ h => h.inside) fun _ between hbetween => ?_
      exact after_bind (P := fun site => Inside L base site.files)
        (Q := fun site => Inside L base site.files) (ih hrest hbetween) (fun _ h => h) fun _ _ h => h

end Build

end LiveUnits
