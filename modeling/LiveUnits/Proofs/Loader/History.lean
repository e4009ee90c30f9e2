import LiveUnits.Proofs.Linkage.Requests
import LiveUnits.Proofs.Loader.Closure

/-!
# Classifications are final

Resolving a name makes further requests while the unit is being linked, and some of these may fail
after others have classified names for good.  `Loader.history` writes the whole life of a loader down:
every request, direct or nested, when it is made and when it has been answered, each with what the
loader remembers at that moment.  The nested requests are those that linking really makes
(`Linkage.asked`).

Along the whole history nothing is ever forgotten or revised, and a request for a name that has been
classified is answered without the containers (`final_history`).  Nothing is assumed of the containers:
they may deny what they served a moment ago.  The obstacle is a name that is being linked, which a
nested request could classify before its unit is registered; the contract `Loader.linking` keeps all
names on the path open, so that does not happen.

A container that breaks down while it is asked ends the session (`Session.broken`): later requests are refused,
and the registry is not shown any more.  So of a session this is true up to such a request.
-/

namespace LiveUnits

open Attempt

/-! ## What a registry keeps -/

/-- A later registry gives every classification that an earlier one gives, and the same unit. -/
structure Registry.Keeps (r r' : Registry) : Prop where
  /-- A registered name keeps its unit. -/
  unit : ∀ name u, r.unit? name = some u → r'.unit? name = some u
  /-- An unresolvable name stays unresolvable. -/
  unresolvable : ∀ n ∈ r.unresolvable, n ∈ r'.unresolvable
  /-- What can be seen of a classification stays as it is. -/
  classification : ∀ (n : Identity) c, r.classification? n.text = some c →
    r'.classification? n.text = some c

namespace Loader

/-- In a closed registry the two kinds of classifications exclude each other. -/
theorem Closed.classification?_eq {l : Loader} {r : Registry} (h : l.Closed r) (n : Identity)
    (c : Classification) : r.classification? n.text = some c ↔
      match c with
      | .resolved => ∃ u, r.unit? n.text = some u
      | .unresolvable => n ∈ r.unresolvable := by
  have hany : (r.unresolvable.any fun m => m.text == n.text) = true ↔ n ∈ r.unresolvable := by
    rw [List.any_eq_true]
    constructor
    · rintro ⟨m, hm, hsame⟩
      rwa [← Identity.text_inj (eq_of_beq hsame)]
    · exact fun hn => ⟨n, hn, beq_self_eq_true _⟩
  unfold Registry.classification?
  by_cases hn : n ∈ r.unresolvable
  · rw [h.disjoint n hn, if_neg (by simp), if_pos (hany.mpr hn)]
    cases c <;> simp [hn]
  · rw [if_neg (mt hany.mp hn)]
    cases hu : r.unit? n.text <;> cases c <;> simp [hn]

/-- Closed registries that grow keep what is known. -/
theorem Closed.keeps {l : Loader} {r r' : Registry} (h : l.Closed r) (h' : l.Closed r')
    (hgrows : r.Grows r') : r.Keeps r' := by
  have hunit : ∀ name u, r.unit? name = some u → r'.unit? name = some u := by
    intro name u hu
    have hname : u.name.text = name := eq_of_beq (List.find?_some hu :)
    rw [← hname]
    exact h'.unit?_name (hgrows.units.subset (Registry.mem_of_unit? hu))
  refine ⟨hunit, fun n hn => hgrows.unresolvable.subset hn, fun n c hc => ?_⟩
  rw [h.classification?_eq] at hc
  rw [h'.classification?_eq]
  cases c with
  | resolved => exact hc.imp fun u => hunit _ u
  | unresolvable => exact hgrows.unresolvable.subset hc

/-! ## The history of a loader -/

/-- A moment in the life of a loader, with what it remembers then. -/
inductive Event where
  /-- A name is requested while the names on `path` are being linked. -/
  | asked (path : List Identity) (n : Identity) (registry : Registry)
  /-- The request has been answered. -/
  | answered (path : List Identity) (n : Identity) (outcome : Except ResolveError LinkedUnit)
    (registry : Registry)

/-- What the loader remembers. -/
def Event.registry : Event → Registry
  | asked _ _ r => r
  | answered _ _ _ r => r

/-- The requests that linking the bytes found for a name makes. -/
def nested (l : Loader) (path : List Identity) (n : Identity) (found : Found) (r : Registry) :
    List (Identity × Registry) :=
  Linkage.asked (fun m => l.resolveAt (path ++ [n]) m) l.nextHandle n found.bytes
    (.container found.root) r

/-- A request with all the requests that it leads to. -/
def events (l : Loader) (path : List Identity) (n : Identity) (r : Registry) : List Event :=
  let last := l.resolveAt path n r
  let between : List Event :=
    if (r.unit? n.text).isSome ∨ n ∈ r.unresolvable then []
    else if _ : n ∈ path then []
    else
      match _ : scan (n.resourceName l.artifactExtension) l.containers r.counters.lookups with
      | (.ok (some found), lookups) =>
        (l.nested path n found (r.countScan lookups)).flatMap fun p =>
          l.events (path ++ [n]) p.1 p.2
      | _ => []
  .asked path n r :: (between ++ [.answered path n last.1 last.2])
termination_by l.room path
decreasing_by exact l.room_lt ‹_› ‹_›

/-- Everything that happens while names are requested, one after the other. -/
def history (l : Loader) : List Identity → Registry → List Event
  | [], _ => []
  | n :: rest, r => l.events [] n r ++ l.history rest (l.resolve n r).2

/-- Events between two registries of a loader, in order: every registry is closed and has grown out of
the ones before it. -/
structure Orderly (l : Loader) (r r' : Registry) (es : List Event) : Prop where
  closed : ∀ e ∈ es, l.Closed e.registry
  since : ∀ e ∈ es, r.Grows e.registry
  upto : ∀ e ∈ es, e.registry.Grows r'
  ordered : es.Pairwise fun d e => d.registry.Grows e.registry

namespace Orderly

variable {l : Loader} {r r' r'' : Registry} {es es' : List Event}

theorem nil : l.Orderly r r' [] where
  closed := fun _ he => (List.not_mem_nil he).elim
  since := fun _ he => (List.not_mem_nil he).elim
  upto := fun _ he => (List.not_mem_nil he).elim
  ordered := .nil

theorem append (h : l.Orderly r r' es) (h' : l.Orderly r' r'' es') (hbefore : r.Grows r')
    (hafter : r'.Grows r'') : l.Orderly r r'' (es ++ es') where
  closed e he := (List.mem_append.mp he).elim (h.closed e) (h'.closed e)
  since e he := (List.mem_append.mp he).elim (h.since e) fun he => hbefore.trans (h'.since e he)
  upto e he := (List.mem_append.mp he).elim (fun he => (h.upto e he).trans hafter) (h'.upto e)
  ordered := List.pairwise_append.mpr ⟨h.ordered, h'.ordered,
    fun d hd e he => (h.upto d hd).trans (h'.since e he)⟩

/-- A request closes a bracket around the events in between. -/
theorem bracket {s s' : Registry} (h : l.Orderly s s' es) (hclosed : l.Closed r)
    (hclosed' : l.Closed r') (hopening : r.Grows s) (hbetween : s.Grows s') (hclosing : s'.Grows r')
    (path : List Identity) (n : Identity) (outcome : Except ResolveError LinkedUnit) :
    l.Orderly r r' (.asked path n r :: (es ++ [.answered path n outcome r'])) := by
  have hfirst : l.Orderly r s [.asked path n r] := by
    refine ⟨fun e he => ?_, fun e he => ?_, fun e he => ?_, List.pairwise_singleton _ _⟩ <;>
      obtain rfl := List.mem_singleton.mp he
    · exact hclosed
    · exact .refl r
    · exact hopening
  have hlast : l.Orderly s' r' [.answered path n outcome r'] := by
    refine ⟨fun e he => ?_, fun e he => ?_, fun e he => ?_, List.pairwise_singleton _ _⟩ <;>
      obtain rfl := List.mem_singleton.mp he
    · exact hclosed'
    · exact hclosing
    · exact .refl r'
  exact hfirst.append (h.append hlast hbetween hclosing) hopening (hbetween.trans hclosing)

end Orderly

/-- Requests that keep the contract of a path, each of them orderly, are orderly one after the other. -/
theorem orderly_requests (l : Loader) {path : List Identity}
    {tell : Identity → Registry → List Event}
    (htell : ∀ n r, (l.linking path).Inv r → l.Orderly r (l.resolveAt path n r).2 (tell n r))
    (names : List Identity) {r : Registry} (hr : (l.linking path).Inv r) :
    let after := Linkage.stateAfter (fun m => l.resolveAt path m) names r
    l.Orderly r after ((Linkage.requests (fun m => l.resolveAt path m) names r).flatMap
      fun p => tell p.1 p.2) ∧ r.Grows after := by
  induction names generalizing r with
  | nil => exact ⟨.nil, .refl r⟩
  | cons n rest ih =>
      obtain ⟨hinv, hgrows, -⟩ := l.meets_resolveAt path n r hr trivial
      have hn := htell n r hr
      unfold Linkage.requests Linkage.stateAfter
      cases hstep : l.resolveAt path n r with
      | mk outcome r' =>
          rw [hstep] at hinv hgrows hn
          rw [List.flatMap_cons]
          cases outcome with
          | error e => exact ⟨hn.append .nil hgrows (.refl r'), hgrows⟩
          | ok u =>
              obtain ⟨hrest, hafter⟩ := ih hinv
              exact ⟨hn.append hrest hgrows hafter, hgrows.trans hafter⟩

/-- Where bytes were found for an open name, a resolution ends after the requests for the names that
they refer to: it registers a unit or it adds nothing. -/
theorem grows_of_found (l : Loader) {path : List Identity} {n : Identity} {r : Registry}
    {found : Found} {lookups : Nat} (hopen : r.Open n) (hn : n ∉ path)
    (hscan : l.scanFor n r.counters.lookups = (.ok (some found), lookups)) :
    (Linkage.stateAfter (fun m => l.resolveAt (path ++ [n]) m) (Linkage.referenced n found.bytes)
      (r.countScan lookups)).Grows (l.resolveAt path n r).2 := by
  rw [← Linkage.state_materialise _ l.nextHandle n found.bytes (.container found.root)]
  change (l.linkFound path n found (r.countScan lookups)).2.Grows _
  have hstep := l.resolveAt_step path n r
  generalize l.resolveAt path n r = result at hstep ⊢
  cases hstep with
  | registered hu => rw [hopen.1] at hu; cases hu
  | delegated _ hn' => exact absurd hn' hopen.2
  | loop _ hn' => exact absurd hn' hn
  | unreadable _ _ hscan' => rw [hscan] at hscan'; cases hscan'
  | absent _ _ hscan' => rw [hscan] at hscan'; cases hscan'
  | broken _ _ hscan' hlink =>
      rw [hscan] at hscan'
      cases hscan'
      rw [hlink]
      exact .refl _
  | linked _ _ hscan' hlink =>
      rw [hscan] at hscan'
      cases hscan'
      rw [hlink]
      exact ⟨List.suffix_cons _ _, List.suffix_refl _⟩

/-- **A request and all that it leads to are orderly**, while no name on the path is classified. -/
theorem orderly_events (l : Loader) (path : List Identity) (n : Identity) (r : Registry)
    (hr : (l.linking path).Inv r) :
    l.Orderly r (l.resolveAt path n r).2 (l.events path n r) := by
  induction path using l.byPath generalizing n r with
  | step path ih =>
  obtain ⟨⟨hclosed', -⟩, hgrows, -⟩ := l.meets_resolveAt path n r hr trivial
  have halone := Orderly.nil.bracket hr.1 hclosed' (.refl r) (.refl r) hgrows path n
    (l.resolveAt path n r).1
  rw [events]
  split
  · exact halone
  · next hopen =>
    have hopen : r.Open n := by
      simpa only [Registry.Open, not_or, Option.not_isSome_iff_eq_none] using hopen
    split
    · exact halone
    · next hn =>
      split
      · next found lookups hscan =>
        have hlonger : (l.linking (path ++ [n])).Inv (r.countScan lookups) :=
          inv_linking hr hopen lookups
        obtain ⟨hbetween, hafter⟩ := l.orderly_requests (fun m s => ih n found _ _ hn hscan m s)
          (Linkage.referenced n found.bytes) hlonger
        rw [nested, Linkage.asked_eq]
        exact hbetween.bracket hr.1 hclosed' (.of_eq rfl rfl) hafter
          (l.grows_of_found hopen hn hscan) path n _
      · exact halone

/-- The history of requests is orderly. -/
theorem orderly_history (l : Loader) (ns : List Identity) {r : Registry} (hr : l.Closed r) :
    l.Orderly r (l.visit ns r) (l.history ns r) := by
  induction ns generalizing r with
  | nil => exact .nil
  | cons n rest ih =>
      obtain ⟨hclosed, hgrows, -⟩ := closed_resolve hr n
      have hfirst := l.orderly_events [] n r ⟨hr, fun _ hm => (List.not_mem_nil hm).elim⟩
      exact hfirst.append (ih hclosed) hgrows (closed_visit rest hclosed).2

/-! ## Answers from a classification -/

/-- How a request for a classified name is answered: by what the classification says and, whatever the
containers are, without asking them.  A hit is counted and nothing else happens. -/
structure AnsweredFrom (l : Loader) (path : List Identity) (n : Identity) (r : Registry) : Prop where
  /-- The registered unit is the answer for a resolved name. -/
  resolved : ∀ u, r.unit? n.text = some u → ∀ containers,
    { l with containers }.resolveAt path n r = (.ok u, r.countHit)
  /-- The answer of the host is the answer for an unresolvable name. -/
  unresolvable : n ∈ r.unresolvable → ∀ containers,
    { l with containers }.resolveAt path n r = (l.hostAnswer n, r.countHit)
  /-- No further request is made. -/
  alone : r.classification? n.text ≠ none → l.events path n r =
    [.asked path n r, .answered path n (l.resolveAt path n r).1 r.countHit]

/-- **Classified names are answered from the registry**, on any path. -/
theorem Closed.answeredFrom {l : Loader} {r : Registry} (h : l.Closed r) (path : List Identity)
    (n : Identity) : l.AnsweredFrom path n r := by
  have hresolved : ∀ u, r.unit? n.text = some u → ∀ containers,
      { l with containers }.resolveAt path n r = (.ok u, r.countHit) := by
    intro u hu containers
    rw [resolveAt, hu]
  have hunresolvable : n ∈ r.unresolvable → ∀ containers,
      { l with containers }.resolveAt path n r = (l.hostAnswer n, r.countHit) := by
    intro hn containers
    rw [resolveAt, h.disjoint n hn]
    exact if_pos hn
  refine ⟨hresolved, hunresolvable, fun hc => ?_⟩
  obtain ⟨c, hc⟩ := Option.ne_none_iff_exists'.mp hc
  rw [h.classification?_eq] at hc
  cases c with
  | resolved =>
      obtain ⟨u, hu⟩ := hc
      rw [events, if_pos (.inl (by rw [hu]; rfl)), hresolved u hu l.containers]
      rfl
  | unresolvable =>
      rw [events, if_pos (.inr hc), hunresolvable hc l.containers]
      rfl

/-! ## All requests -/

/-- What holds of the life of a loader over the requests for `ns`. -/
structure Final (l : Loader) (ns : List Identity) : Prop where
  /-- At no moment is a name both registered and unresolvable. -/
  disjoint : ∀ e ∈ l.history ns {}, ∀ n ∈ e.registry.unresolvable, e.registry.unit? n.text = none
  /-- Every moment keeps what was known at the ones before it. -/
  kept : (l.history ns {}).Pairwise fun d e => d.registry.Keeps e.registry
  /-- The loader still knows all of it in the end. -/
  remembered : ∀ e ∈ l.history ns {}, e.registry.Keeps (l.visit ns {})
  /-- Every request for a classified name, direct or nested, is answered from its classification. -/
  answered : ∀ path n r, .asked path n r ∈ l.history ns {} → l.AnsweredFrom path n r

/-- **Classifications are final**, whatever the containers answer from one lookup to the next. -/
theorem final_history (l : Loader) (ns : List Identity) : l.Final ns := by
  have horderly := l.orderly_history ns l.closed_start
  refine ⟨fun e he => (horderly.closed e he).disjoint, ?_, fun e he => ?_, fun path n r he => ?_⟩
  · exact horderly.ordered.imp_of_mem fun hd he hgrows =>
      (horderly.closed _ hd).keeps (horderly.closed _ he) hgrows
  · exact (horderly.closed e he).keeps (closed_visit ns l.closed_start).1 (horderly.upto e he)
  · exact (horderly.closed _ he).answeredFrom path n

end Loader

end LiveUnits
