import Mathlib.Data.List.Forall2
import LiveUnits.Proofs.Linkage.Attempt
import LiveUnits.Proofs.Linkage.Tree

/-!
# What materialising promises

Materialising a unit touches the state only through the names it resolves.  So if resolving keeps a
contract, materialising keeps it too, and the references of the unit that comes out were all answered
by resolving (`meets_materialise`).
-/

namespace LiveUnits

namespace Linkage

open Attempt

variable {σ τ : Type}

/-- The names that the bytes of a unit refer to, as far as they are resolved: the supertype, and the
modules imported from if all of them are identities. -/
def referenced (name : Identity) (bytes : Bytes) : List Identity :=
  match declared name bytes with
  | .error _ => []
  | .ok d =>
    d.metadata.supertype.toList ++
      match moduleIdentities name (moduleNames d.interface) with
      | .ok names => names
      | .error _ => []

/-! ## Contracts -/

/-- A unit that is made from what its bytes declare: its references are answers to the names
declared. -/
structure Linked (answers : Identity → LinkedUnit → Prop) (name : Identity) (bytes : Bytes)
    (origin : Origin) (u : LinkedUnit) : Prop where
  /-- It has the name under which it was asked for. -/
  name_eq : u.name = name
  /-- It has the origin of its bytes. -/
  origin_eq : u.origin = origin
  /-- Every reference answers a name. -/
  answered : ∀ v ∈ u.references, ∃ n, answers n v
  /-- Every name has an answer among the references. -/
  complete : ∀ n ∈ referenced name bytes, ∃ v ∈ u.references, answers n v

variable {C : Contract σ} {answers : Identity → LinkedUnit → σ → Prop} {f : Resolving σ}

/-- Following a reference meets what resolving it does. -/
theorem meets_follow {n : Identity} {wrap : ResolveError → LinkageError}
    (hf : Meets C (fun _ => True) (f n) (answers n)) :
    Meets C (fun _ => True) (follow f n wrap) (answers n) := by
  intro s hs hp
  obtain ⟨hinv, hgrows, hq⟩ := hf s hs hp
  unfold follow
  cases h : f n s with
  | mk outcome s' =>
      rw [h] at hinv hgrows hq
      cases outcome with
      | error e => exact ⟨hinv, hgrows, fun u hu => by cases hu⟩
      | ok u => exact ⟨hinv, hgrows, fun v hv => hq v (congrArg Except.ok (Except.ok.inj hv))⟩

/-- Reading the bytes changes nothing. -/
theorem meets_lift {P : σ → Prop} {α : Type} {r : Except LinkageError α} :
    Meets C P (lift r : Attempt σ LinkageError α) (fun a s => r = .ok a ∧ P s) :=
  fun s hs hp => ⟨hs, C.refl s, fun _ ha => ⟨ha, hp⟩⟩

variable (hf : ∀ n, Meets C (fun _ => True) (f n) (answers n))
  (hlast : ∀ n u, Lasting C (answers n u))

include hf in
/-- The supertype is an answer to the request for its name. -/
theorem meets_supertype (name : Identity) (declared : Option Identity) :
    Meets C (fun _ => True) (supertype f name declared) fun above s =>
      Option.Rel (fun n v => answers n v s) declared above := by
  cases declared with
  | none => exact Meets.pure fun _ _ _ => .none
  | some n =>
      refine Meets.bind (meets_follow (hf n)) fun u => ?_
      exact Meets.pure fun _ _ hu => .some hu

include hf hlast in
/-- Every dependency is an answer to the request for its name. -/
theorem meets_dependencies (name : Identity) (names : List Identity) :
    Meets C (fun _ => True) (dependencies f name names) fun units s =>
      List.Forall₂ (fun n v => answers n v s) names units := by
  induction names with
  | nil => exact Meets.pure fun _ _ _ => .nil
  | cons n rest ih =>
      refine Meets.bind (meets_follow (hf n)) fun u => ?_
      refine Meets.bind ((ih.frame (hlast n u)).weaken (fun s _ hu => ⟨trivial, hu⟩)
        fun _ _ _ h => h) fun others => ?_
      exact Meets.pure fun _ _ h => .cons h.2 h.1

/-- What has been resolved stays answered while more names are resolved. -/
theorem lasting_rel (hlast : ∀ n u, Lasting C (answers n u)) (declared : Option Identity)
    (above : Option LinkedUnit) :
    Lasting C fun s => Option.Rel (fun n v => answers n v s) declared above := by
  intro s t hs ht hgrows h
  cases h with
  | some h => exact .some (hlast _ _ s t hs ht hgrows h)
  | none => exact .none

/-- Every name has its unit in the list, and every unit its name. -/
theorem exists_mem_of_forall₂ {R : Identity → LinkedUnit → Prop} {names : List Identity}
    {units : List LinkedUnit} (h : List.Forall₂ R names units) :
    (∀ n ∈ names, ∃ v ∈ units, R n v) ∧ ∀ v ∈ units, ∃ n, R n v := by
  induction h with
  | nil => simp
  | @cons n v names units hnv _ ih =>
      refine ⟨fun m hm => ?_, fun w hw => ?_⟩
      · rcases List.mem_cons.mp hm with rfl | hm
        · exact ⟨v, List.mem_cons_self, hnv⟩
        · obtain ⟨w, hw, hR⟩ := ih.1 m hm
          exact ⟨w, List.mem_cons_of_mem _ hw, hR⟩
      · rcases List.mem_cons.mp hw with rfl | hw
        · exact ⟨n, hnv⟩
        · exact ih.2 w hw

/-- The unit that is put together in the end is linked. -/
theorem linked_of_answers {R : Identity → LinkedUnit → Prop} {handle : Handle} {name : Identity}
    {bytes : Bytes} {origin : Origin} {d : Declared} {names : List Identity}
    {above : Option LinkedUnit} {units : List LinkedUnit} (hd : declared name bytes = .ok d)
    (hnames : moduleIdentities name (moduleNames d.interface) = .ok names)
    (habove : Option.Rel R d.metadata.supertype above) (hunits : List.Forall₂ R names units) :
    Linked R name bytes origin
      ⟨handle, name, d.interface, d.metadata.markers, origin, above, units⟩ := by
  obtain ⟨hcomplete, hanswered⟩ := exists_mem_of_forall₂ hunits
  refine ⟨rfl, rfl, fun v hv => ?_, fun n hn => ?_⟩
  · rcases LinkedUnit.mem_references.mp hv with hv | hv
    · obtain rfl : above = some v := hv
      generalize d.metadata.supertype = n at habove
      cases habove with
      | some h => exact ⟨_, h⟩
    · exact hanswered v hv
  · simp only [referenced, hd, hnames, List.mem_append, Option.mem_toList] at hn
    rcases hn with hn | hn
    · rw [hn] at habove
      cases habove with
      | some h => exact ⟨_, LinkedUnit.mem_references.mpr (.inl rfl), h⟩
    · obtain ⟨v, hv, hR⟩ := hcomplete n hn
      exact ⟨v, LinkedUnit.mem_references.mpr (.inr hv), hR⟩

include hf hlast in
/-- **Materialising keeps every contract that resolving keeps**, and the unit it makes is linked to
answers.  Its handle is taken from the state in the end. -/
theorem meets_materialise (handle : σ → Handle) (name : Identity) (bytes : Bytes)
    (origin : Origin) :
    Meets C (fun _ => True) (materialise f handle name bytes origin) fun u s =>
      u.handle = handle s ∧ Linked (fun n v => answers n v s) name bytes origin u := by
  refine Meets.bind meets_lift fun d => ?_
  refine Meets.bind (Q := fun above s => declared name bytes = .ok d ∧
      Option.Rel (fun n v => answers n v s) d.metadata.supertype above) ?_ fun above => ?_
  · intro s hs hp
    obtain ⟨hinv, hgrows, hq⟩ := meets_supertype hf name d.metadata.supertype s hs trivial
    exact ⟨hinv, hgrows, fun above ha => ⟨hp.1, hq above ha⟩⟩
  refine Meets.bind meets_lift fun names => ?_
  have hdeps := (meets_dependencies hf hlast name names).frame
    (lasting_rel hlast d.metadata.supertype above)
  refine Meets.bind (Q := fun units s => declared name bytes = .ok d ∧
      moduleIdentities name (moduleNames d.interface) = .ok names ∧
      List.Forall₂ (fun n v => answers n v s) names units ∧
      Option.Rel (fun n v => answers n v s) d.metadata.supertype above) ?_ fun units => ?_
  · intro s hs hp
    obtain ⟨hinv, hgrows, hq⟩ := hdeps s hs ⟨trivial, hp.2.2⟩
    exact ⟨hinv, hgrows, fun units hu => ⟨hp.2.1, hp.1, (hq units hu).1, (hq units hu).2⟩⟩
  refine Meets.bind meets_lift fun _ => ?_
  intro s hs hp
  refine ⟨hs, C.refl s, fun u hu => ?_⟩
  obtain ⟨-, hd, hnames, hunits, habove⟩ := hp
  obtain rfl := Except.ok.inj hu
  exact ⟨rfl, linked_of_answers hd hnames habove hunits⟩

/-- Bytes that import nothing are linked once their supertype is resolved. -/
theorem materialise_of_imports_eq_nil (resolve : Resolving σ) (handle : σ → Handle)
    {name : Identity} {bytes : Bytes} {origin : Origin} {d : Declared}
    (hd : declared name bytes = .ok d) (himports : d.interface.imports = []) (s : σ) :
    materialise resolve handle name bytes origin s =
      match supertype resolve name d.metadata.supertype s with
      | (.error e, s') => (.error e, s')
      | (.ok above, s') =>
        (.ok ⟨handle s', name, d.interface, d.metadata.markers, origin, above, []⟩, s') := by
  have hmodules : moduleNames d.interface = [] := by
    unfold moduleNames
    rw [himports]
    rfl
  unfold materialise
  simp only [Attempt.bind_run, lift, hd, hmodules, moduleIdentities, dependencies, himports]
  rcases supertype resolve name d.metadata.supertype s with ⟨_ | above, s'⟩ <;> rfl

/-- Bytes that refer to nothing are linked without resolving anything. -/
theorem materialise_alone (resolve : Resolving σ) (handle : σ → Handle) {name : Identity}
    {bytes : Bytes} {origin : Origin} {d : Declared} (hd : declared name bytes = .ok d)
    (hsupertype : d.metadata.supertype = none) (himports : d.interface.imports = []) (s : σ) :
    materialise resolve handle name bytes origin s =
      (.ok ⟨handle s, name, d.interface, d.metadata.markers, origin, none, []⟩, s) := by
  rw [materialise_of_imports_eq_nil resolve handle hd himports, hsupertype]
  rfl

/-- Bytes that refer to a supertype alone are linked by resolving it. -/
theorem materialise_above (resolve : Resolving σ) (handle : σ → Handle) {name n : Identity}
    {bytes : Bytes} {origin : Origin} {d : Declared} (hd : declared name bytes = .ok d)
    (hsupertype : d.metadata.supertype = some n) (himports : d.interface.imports = []) {s s' : σ}
    {u : LinkedUnit} (hresolve : resolve n s = (.ok u, s')) :
    materialise resolve handle name bytes origin s =
      (.ok ⟨handle s', name, d.interface, d.metadata.markers, origin, some u, []⟩, s') := by
  rw [materialise_of_imports_eq_nil resolve handle hd himports, hsupertype]
  simp only [supertype, Attempt.bind_run, follow, hresolve]
  rfl

end Linkage

end LiveUnits
