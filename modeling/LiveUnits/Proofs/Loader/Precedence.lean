import LiveUnits.Proofs.Loader.Afresh
import LiveUnits.Proofs.Loader.Complete

/-!
# The first container answers

If the containers never change their answers, then the first container that has a name, or fails at it,
answers every request for the name, direct or nested, whatever has been requested before
(`Loader.answeredBy_history`).  The unit is made of its bytes.  If they cannot be linked, the request
fails; nobody behind it is asked.

What carries this is that a registry remembers only what scanning finds: a registered unit is made of the
bytes that the first container has under its name, and an unresolvable name is in no container
(`Loader.Served`).
-/

namespace LiveUnits

open Attempt Linkage

/-! ## Scanning -/

/-- Containers behind others are asked if those have nothing. -/
theorem scan_append (resource : String) (cs more : List Container) (clock : Nat) :
    scan resource (cs ++ more) clock =
      match scan resource cs clock with
      | (.ok none, after) => scan resource more after
      | (answer, after) => (answer, after) := by
  induction cs generalizing clock with
  | nil => rfl
  | cons c rest ih =>
      rw [List.cons_append, scan, scan]
      cases c.lookup clock resource with
      | error e => rfl
      | ok answer =>
          cases answer with
          | some bytes => rfl
          | none => exact ih (clock + 1)

namespace Loader

variable {l : Loader}

/-! ## What a registry remembers -/

/-- A registry remembers what scanning finds. -/
structure Served (l : Loader) (r : Registry) : Prop where
  /-- A registered unit is made of the bytes that are found under its name. -/
  units : ∀ u ∈ r.units, ∃ found d, (l.scanFor u.name 0).1 = .ok (some found) ∧
    u.origin = .container found.root ∧ declared u.name found.bytes = .ok d ∧ FullyLinked d u
  /-- No container has an unresolvable name. -/
  unresolvable : ∀ n ∈ r.unresolvable, (l.scanFor n 0).1 = .ok none

/-- What resolving keeps, on whatever path. -/
def serving (l : Loader) : Contract Registry where
  Inv := l.Served
  Grows _ _ := True
  refl _ := trivial
  trans _ _ := trivial

/-- **Every resolution remembers what scanning finds.** -/
theorem served_resolveAt (hsteady : l.Steady) (path : List Identity) (n : Identity) :
    Meets l.serving (fun _ => True) (l.resolveAt path n) fun _ _ => True := by
  induction path using l.byPath generalizing n with
  | step path ih =>
  intro r hr _
  have hcounted : ∀ lookups, l.Served (r.countScan lookups) := fun _ => ⟨hr.units, hr.unresolvable⟩
  have hstep := l.resolveAt_step path n r
  generalize l.resolveAt path n r = result at hstep ⊢
  refine ⟨?_, trivial, fun _ _ => trivial⟩
  cases hstep with
  | registered _ => exact ⟨hr.units, hr.unresolvable⟩
  | delegated _ _ => exact ⟨hr.units, hr.unresolvable⟩
  | loop _ _ => exact hr
  | unreadable _ _ _ => exact hcounted _
  | absent _ _ hscan =>
      refine ⟨hr.units, fun m hm => ?_⟩
      rcases List.mem_cons.mp hm with rfl | hm
      · exact hsteady.scanFor_eq hscan
      · exact hr.unresolvable m hm
  | broken _ hn hscan hfails => exact inv_linkFound (ih n _ _ _ hn hscan) (hcounted _) hfails
  | @linked found _ u r' _ hn hscan hlinked =>
      have hr' : l.Served r' := inv_linkFound (ih n _ _ _ hn hscan) (hcounted _) hlinked
      refine ⟨fun v hv => ?_, hr'.unresolvable⟩
      rcases List.mem_cons.mp hv with rfl | hv
      · obtain ⟨hname, horigin, d, hd, hfull⟩ :=
          fullyLinked_materialise (l.named_resolveAt (path ++ [n])) hlinked
        have hfound := hsteady.scanFor_eq hscan
        rw [← hname] at hfound hd
        exact ⟨found, d, hfound, horigin, hd, hfull⟩
      · exact hr'.units v hv

theorem served_start (l : Loader) : l.Served {} where
  units _ hu := (List.not_mem_nil hu).elim
  unresolvable _ hn := (List.not_mem_nil hn).elim

/-- Requests keep a registry true to what scanning finds. -/
theorem served_visit (hsteady : l.Steady) (ns : List Identity) {r : Registry} (hr : l.Served r) :
    l.Served (l.visit ns r) := by
  induction ns generalizing r with
  | nil => exact hr
  | cons n rest ih => exact ih (served_resolveAt hsteady [] n r hr trivial).1

/-! ## Answers of the first container -/

/-- A container is the first one that has a name or fails at it, and what it answers. -/
structure First (l : Loader) (n : Identity) (c : Container) (answer : Except ContainerError Bytes) :
    Prop where
  /-- The containers in front of it have nothing. -/
  split : ∃ before after, l.containers = before ++ c :: after ∧
    ∀ b ∈ before, b.lookup 0 (n.resourceName l.artifactExtension) = .ok none
  lookup : c.lookup 0 (n.resourceName l.artifactExtension) = answer.map some

/-- How a request for a name comes out if a container answers so. -/
inductive AnsweredBy (c : Container) (n : Identity) :
    Except ContainerError Bytes → Except ResolveError LinkedUnit → Prop
  /-- The unit is made of the bytes. -/
  | unit {bytes : Bytes} {u : LinkedUnit} {d : Declared} (hname : u.name = n)
      (horigin : u.origin = .container c.root) (hd : declared n bytes = .ok d)
      (hfull : FullyLinked d u) : AnsweredBy c n (.ok bytes) (.ok u)
  /-- The bytes cannot be linked. -/
  | broken (answer : Except ContainerError Bytes) (e : LinkageError) :
      AnsweredBy c n answer (.error (.linkage e))
  /-- The container fails. -/
  | unreadable (e : ContainerError) : AnsweredBy c n (.error e) (.error (.container e))

variable {n : Identity} {c : Container} {answer : Except ContainerError Bytes}

/-- Scanning ends at the first container that has a name or fails at it. -/
theorem First.scanFor_eq (h : l.First n c answer) (hsteady : l.Steady) (clock : Nat) :
    (l.scanFor n clock).1 = answer.map fun bytes => some ⟨c.root, bytes⟩ := by
  obtain ⟨⟨before, after, hsplit, hbefore⟩, hlookup⟩ := h
  have hskip : (scan (n.resourceName l.artifactExtension) before clock).1 = .ok none := by
    refine scan_absent (fun b hb t => ?_) clock
    rw [hsteady b (hsplit ▸ List.mem_append_left _ hb)]
    exact hbefore b hb
  have hmem : c ∈ l.containers := hsplit ▸ List.mem_append_right _ List.mem_cons_self
  unfold scanFor
  rw [hsplit, scan_append]
  generalize scan (n.resourceName l.artifactExtension) before clock = result at hskip ⊢
  obtain ⟨none, later⟩ := result
  obtain rfl : none = .ok Option.none := hskip
  simp only [scan, hsteady c hmem later, hlookup]
  cases answer <;> rfl

/-- The first container that has a name answers a request for it. -/
theorem Served.answeredBy {r : Registry} (hr : l.Served r) (hsteady : l.Steady)
    (hfirst : l.First n c answer) (path : List Identity) :
    AnsweredBy c n answer (l.resolveAt path n r).1 := by
  have hscans := hfirst.scanFor_eq hsteady
  have hstep := l.resolveAt_step path n r
  generalize l.resolveAt path n r = result at hstep ⊢
  cases hstep with
  | registered hu =>
      obtain rfl := Registry.name_of_unit? hu
      obtain ⟨found, d, hscan, horigin, hd, hfull⟩ := hr.units _ (Registry.mem_of_unit? hu)
      rw [hscans] at hscan
      cases answer with
      | error e => cases hscan
      | ok bytes =>
          cases hscan
          exact .unit rfl horigin hd hfull
  | delegated _ hn =>
      have habsent := hr.unresolvable n hn
      rw [hscans] at habsent
      cases answer <;> cases habsent
  | loop _ _ => exact .broken _ _
  | unreadable _ _ hscan =>
      have herror := (hscans _).symm.trans (congrArg Prod.fst hscan)
      cases answer with
      | error e =>
          cases herror
          exact .unreadable _
      | ok bytes => cases herror
  | absent _ _ hscan =>
      have habsent := (hscans _).symm.trans (congrArg Prod.fst hscan)
      cases answer <;> cases habsent
  | broken _ _ _ _ => exact .broken _ _
  | linked _ hn hscan hlink =>
      obtain ⟨hname, horigin, d, hd, hfull⟩ :=
        fullyLinked_materialise (l.named_resolveAt (path ++ [n])) hlink
      have hfound := (hscans _).symm.trans (congrArg Prod.fst hscan)
      cases answer with
      | error e => cases hfound
      | ok bytes =>
          cases hfound
          exact .unit hname horigin hd hfull

/-! ## Along a history -/

/-- An event in which a request is made in a registry of which `I` holds. -/
def Event.From (l : Loader) (I : Registry → Prop) : Event → Prop
  | .asked _ _ r => I r
  | .answered path n outcome r => ∃ before, I before ∧ l.resolveAt path n before = (outcome, r)

/-- What resolving keeps true of registries is true whenever a request is made. -/
theorem from_events {I : Registry → Prop} (hcount : ∀ r lookups, I r → I (r.countScan lookups))
    (hkeep : ∀ path n r, I r → I (l.resolveAt path n r).2) (path : List Identity) (n : Identity)
    {r : Registry} (hr : I r) : ∀ e ∈ l.events path n r, e.From l I := by
  induction path using l.byPath generalizing n r with
  | step path ih =>
  have hlast : Event.From l I (.answered path n (l.resolveAt path n r).1 (l.resolveAt path n r).2) :=
    ⟨r, hr, rfl⟩
  intro e he
  rw [events, List.mem_cons, List.mem_append, List.mem_singleton] at he
  rcases he with rfl | he | rfl
  · exact hr
  · split at he
    · cases he
    split at he
    · cases he
    next hn =>
    split at he
    · next found lookups hscan =>
      obtain ⟨p, hp, he⟩ := List.mem_flatMap.mp he
      rw [nested, Linkage.asked_eq] at hp
      have hmade := of_mem_requests (fun m s => hkeep (path ++ [n]) m s) (hcount r lookups hr) hp
      exact ih n found _ _ hn hscan p.1 hmade e he
    · cases he
  · exact hlast

/-- Every event of a history comes from a registry that has what resolving keeps. -/
theorem from_history {I : Registry → Prop} (hcount : ∀ r lookups, I r → I (r.countScan lookups))
    (hkeep : ∀ path n r, I r → I (l.resolveAt path n r).2) (ns : List Identity) {r : Registry}
    (hr : I r) : ∀ e ∈ l.history ns r, e.From l I := by
  induction ns generalizing r with
  | nil => exact fun e he => (List.not_mem_nil he).elim
  | cons n rest ih =>
      intro e he
      rcases List.mem_append.mp he with he | he
      · exact from_events hcount hkeep [] n hr e he
      · exact ih (hkeep [] n r hr) e he

/-- **The first container that has a name answers every request for it**, direct or nested, at any time. -/
theorem answeredBy_history (hsteady : l.Steady) (hfirst : l.First n c answer) (ns path : List Identity)
    (outcome : Except ResolveError LinkedUnit) (r : Registry)
    (hmem : .answered path n outcome r ∈ l.history ns {}) : AnsweredBy c n answer outcome := by
  obtain ⟨earlier, hearlier, hresolve⟩ := from_history (I := l.Served)
    (fun r _ hr => ⟨hr.units, hr.unresolvable⟩)
    (fun path n r hr => (served_resolveAt hsteady path n r hr trivial).1) ns l.served_start _ hmem
  have hanswer := hearlier.answeredBy hsteady hfirst path
  rwa [hresolve] at hanswer

end Loader

end LiveUnits
