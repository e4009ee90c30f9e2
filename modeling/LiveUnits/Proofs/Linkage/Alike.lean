import LiveUnits.Proofs.Linkage.Requests

/-!
# Linking alike

If two ways of resolving run alike on the names that the bytes of a unit refer to, so do the two ways of
linking the bytes (`alike_materialise`).  Running alike means that the outcomes are the same up to
handles.

Often this is known only of runs in which something has not happened yet, and what has happened stays
so.  Then it is enough that it has not happened when linking ends (`alikeWhile_materialise`).
-/

namespace LiveUnits

/-- Two units have the same shape. -/
def LinkedUnit.SameShape (u v : LinkedUnit) : Prop := u.shape = v.shape

/-- Two units are the same once their handles have been changed. -/
def LinkedUnit.Agrees (label label' : Handle → Handle) (u v : LinkedUnit) : Prop :=
  u.relabel label = v.relabel label'

/-- Having the same shape is agreeing but for the shapes of handles. -/
theorem LinkedUnit.sameShape_eq : SameShape = Agrees Handle.shape Handle.shape := by
  funext u v
  rw [SameShape, Agrees, shape_eq_relabel, shape_eq_relabel]

namespace Linkage

open Attempt

variable {σ τ : Type} {I : σ → τ → Prop} {P : σ → Prop} {f : Resolving σ} {g : Resolving τ}
  {label label' : Handle → Handle}

/-- Following a reference is alike if resolving it is. -/
theorem alikeWhile_follow {n : Identity} {wrap : ResolveError → LinkageError}
    (h : AlikeWhile P I (LinkedUnit.Agrees label label') (f n) (g n)) :
    AlikeWhile P I (LinkedUnit.Agrees label label') (follow f n wrap) (follow g n wrap) := by
  intro s t hst hend
  rw [state_follow] at hend
  obtain ⟨hI, hV⟩ := h s t hst hend
  rw [state_follow, state_follow]
  refine ⟨hI, ?_⟩
  unfold follow
  cases hfs : f n s with
  | mk fo s' =>
      cases hgt : g n t with
      | mk go t' =>
          rw [hfs, hgt] at hV
          cases hV with
          | ok h => exact .ok h
          | error e => exact .error _

/-- What needs no state changes none. -/
theorem alikeWhile_lift_bind {α γ δ : Type} {W : γ → δ → Prop} {x : Except LinkageError α}
    {k : α → Attempt σ LinkageError γ} {k' : α → Attempt τ LinkageError δ}
    (h : ∀ a, x = .ok a → AlikeWhile P I W (k a) (k' a)) :
    AlikeWhile P I W (lift x >>= k) (lift x >>= k') := by
  intro s t hst hend
  rw [bind_run, lift] at hend ⊢
  rw [bind_run, lift]
  cases x with
  | error e => exact ⟨hst, .error e⟩
  | ok a => exact h a rfl s t hst hend

/-- Resolving the supertype is alike if resolving its name is. -/
theorem alikeWhile_supertype {name : Identity} {declared : Option Identity}
    (h : ∀ n ∈ declared.toList, AlikeWhile P I (LinkedUnit.Agrees label label') (f n) (g n)) :
    AlikeWhile P I (fun a b => a.map (LinkedUnit.relabel label) = b.map (LinkedUnit.relabel label'))
      (supertype f name declared) (supertype g name declared) := by
  cases declared with
  | none => exact AlikeWhile.pure rfl
  | some n =>
      refine AlikeWhile.bind (alikeWhile_follow (h n (by simp))) (fun _ _ h => h) fun a b hab => ?_
      exact AlikeWhile.pure (congrArg some hab)

/-- Resolving the dependencies is alike if resolving their names is. -/
theorem alikeWhile_dependencies (hback : ∀ n s, P (f n s).2 → P s) {name : Identity}
    {names : List Identity}
    (h : ∀ n ∈ names, AlikeWhile P I (LinkedUnit.Agrees label label') (f n) (g n)) :
    AlikeWhile P I (fun a b => a.map (LinkedUnit.relabel label) = b.map (LinkedUnit.relabel label'))
      (dependencies f name names) (dependencies g name names) := by
  induction names with
  | nil => exact AlikeWhile.pure rfl
  | cons n rest ih =>
      refine AlikeWhile.bind (alikeWhile_follow (h n List.mem_cons_self)) (fun a s hend => ?_)
        fun a b hab => ?_
      · have hafter : P (stateAfter f rest s) := by
          rw [← state_dependencies f name rest s]
          rw [bind_run] at hend
          cases hrest : dependencies f name rest s with
          | mk others s' =>
              rw [hrest] at hend
              cases others <;> exact hend
        exact of_stateAfter hback hafter
      · refine AlikeWhile.bind (ih fun m hm => h m (List.mem_cons_of_mem _ hm)) (fun _ _ h => h)
          fun as bs habs => AlikeWhile.pure ?_
        rw [List.map_cons, List.map_cons, hab, habs]

/-- The check of an import reads no handle of a dependency. -/
theorem checkImport_relabel (label : Handle → Handle) (name : Identity) (units : List LinkedUnit)
    (i : Wasm.Import) :
    checkImport name (units.map (LinkedUnit.relabel label)) i = checkImport name units i := by
  unfold checkImport
  rw [List.find?_map]
  have hsame : ((fun u : LinkedUnit => u.name.text == i.moduleName) ∘ LinkedUnit.relabel label) =
      fun u => u.name.text == i.moduleName := by
    funext u
    simp
  rw [hsame]
  cases units.find? fun u => u.name.text == i.moduleName with
  | none => rfl
  | some u => simp

/-- **Linking runs alike** up to a state of which `P` holds, if resolving the names that the bytes refer
to does. -/
theorem alikeWhile_materialise (hback : ∀ n s, P (f n s).2 → P s) {handle : σ → Handle}
    {handle' : τ → Handle} {name : Identity} {bytes : Bytes} {origin : Origin}
    (hhandle : ∀ s t, I s t → label (handle s) = label' (handle' t))
    (h : ∀ n ∈ referenced name bytes, AlikeWhile P I (LinkedUnit.Agrees label label') (f n) (g n)) :
    AlikeWhile P I (LinkedUnit.Agrees label label') (materialise f handle name bytes origin)
      (materialise g handle' name bytes origin) := by
  refine alikeWhile_lift_bind fun d hd => ?_
  refine AlikeWhile.bind (alikeWhile_supertype fun n hn => h n ?_) (fun above s hend => ?_)
    fun above above' habove => ?_
  · rw [referenced, hd]
    exact List.mem_append_left _ hn
  · rw [state_afterSupertype f handle name d origin above s] at hend
    exact of_stateAfter hback hend
  refine alikeWhile_lift_bind fun names hnames => ?_
  refine AlikeWhile.bind (alikeWhile_dependencies hback fun n hn => h n ?_) (fun units s hend => ?_)
    fun units units' hunits => ?_
  · simp only [referenced, hd, hnames]
    exact List.mem_append_right _ hn
  · -- nothing is resolved any more
    rw [bind_run, lift] at hend
    cases hcheck : d.interface.imports.forM (checkImport name units) <;>
      · rw [hcheck] at hend
        exact hend
  have hcheck : checkImport name units = checkImport name units' := by
    funext i
    rw [← checkImport_relabel label, hunits, checkImport_relabel]
  rw [hcheck]
  refine alikeWhile_lift_bind fun _ _ => ?_
  intro s t hst _
  refine ⟨hst, .ok ?_⟩
  simp only [LinkedUnit.Agrees, LinkedUnit.relabel_mk, hhandle s t hst, habove, hunits]

/-- **Linking runs alike** if resolving the names that the bytes refer to does. -/
theorem alike_materialise {handle : σ → Handle} {handle' : τ → Handle} {name : Identity}
    {bytes : Bytes} {origin : Origin}
    (hhandle : ∀ s t, I s t → label (handle s) = label' (handle' t))
    (h : ∀ n ∈ referenced name bytes, Alike I (LinkedUnit.Agrees label label') (f n) (g n)) :
    Alike I (LinkedUnit.Agrees label label') (materialise f handle name bytes origin)
      (materialise g handle' name bytes origin) :=
  alike_iff.mpr (alikeWhile_materialise (fun _ _ _ => trivial) hhandle fun n hn =>
    alike_iff.mp (h n hn))

/-- What is the same up to shapes of handles is the same up to shapes. -/
theorem alike_materialise_shape {handle : σ → Handle} {handle' : τ → Handle} {name : Identity}
    {bytes : Bytes} {origin : Origin}
    (hhandle : ∀ s t, I s t → (handle s).shape = (handle' t).shape)
    (h : ∀ n ∈ referenced name bytes, Alike I LinkedUnit.SameShape (f n) (g n)) :
    Alike I LinkedUnit.SameShape (materialise f handle name bytes origin)
      (materialise g handle' name bytes origin) := by
  rw [LinkedUnit.sameShape_eq] at h ⊢
  exact alike_materialise hhandle h

end Linkage

end LiveUnits
