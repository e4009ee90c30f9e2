import Mathlib
import LiveUnits.Proofs.Loader.Afresh
import LiveUnits.Proofs.Loader.Listing
import LiveUnits.Proofs.Loader.Ownership

/-!
# Catalogs agree with their loaders

What a catalog has under a name is decided by four questions in this order (`unit_get?_make`): the
name is that of a compiled unit, it is registered, it is listed, the host has it.  Resolving asks the
registry, the containers and the host.  If the containers list exactly what they have and never fail, then
whatever a catalog has under a name is the unit that a request for it returns, now and after any later
requests; and if they give the same bytes every time, a catalog has whatever a request returns
(`agrees_make`).

A catalog asks for a listed name once, when it is made.  A file that could not be linked then and is
replaced later is found by a request, but not in the catalog (`Mended.foo_is_overlooked`).
-/

namespace LiveUnits

/-- In a list without two elements of one key, it does not matter from which end one looks. -/
theorem find?_reverse_of_nodup {α : Type} {key : α → String} {l : List α} (h : (l.map key).Nodup)
    (k : String) : (l.reverse.find? fun a => key a == k) = l.find? fun a => key a == k := by
  cases hfound : l.find? fun a => key a == k with
  | none =>
      rw [List.find?_eq_none] at hfound ⊢
      exact fun a ha => hfound a (List.mem_reverse.mp ha)
  | some a =>
      have ha := List.mem_of_find?_eq_some hfound
      have hsome : (l.reverse.find? fun a => key a == k).isSome :=
        List.find?_isSome.mpr ⟨a, List.mem_reverse.mpr ha, beq_iff_eq.mpr (key_eq_of_find? hfound)⟩
      obtain ⟨b, hb⟩ := Option.isSome_iff_exists.mp hsome
      have hkey := (key_eq_of_find? hb).trans (key_eq_of_find? hfound).symm
      rw [hb, List.inj_on_of_nodup_map h (List.mem_reverse.mp (List.mem_of_find?_eq_some hb)) ha hkey]

/-- Elements that the filter judges by their key are found or not found together. -/
theorem find?_filter_of_key {α : Type} {key : α → String} {keep : α → Bool} {keepKey : Bool}
    {k : String} (hkeep : ∀ a, key a = k → keep a = keepKey) (l : List α) :
    ((l.filter keep).find? fun a => key a == k) =
      if keepKey then l.find? fun a => key a == k else none := by
  rw [List.find?_filter]
  cases keepKey with
  | true =>
      rw [if_pos rfl]
      congr 1
      funext a
      by_cases ha : key a = k
      · simp [hkeep a ha, ha]
      · simp [ha]
  | false =>
      rw [if_neg Bool.false_ne_true, List.find?_eq_none]
      intro a _ hboth
      simp only [decide_eq_true_eq, beq_iff_eq] at hboth
      rw [hkeep a hboth.2] at hboth
      exact Bool.false_ne_true hboth.1

namespace Loader

variable {l : Loader} {r : Registry}

/-! ## Resolving from what is known -/

/-- What answers a name is returned by a request for it. -/
theorem Closed.resolve_of_answers (h : l.Closed r) {n : Identity} {u : LinkedUnit}
    (hu : l.Answers n u r) : (l.resolve n r).1 = .ok u := by
  have hstep := l.resolveAt_step [] n r
  unfold resolve
  generalize l.resolveAt [] n r = result at hstep ⊢
  have hknown : ¬ r.Open n := by
    rintro ⟨hfree, hunknown⟩
    rcases hu with ⟨hu, hname⟩ | ⟨hn, -⟩
    · exact Registry.unit?_eq_none.mp hfree u hu hname
    · exact hunknown hn
  cases hstep with
  | @registered v hv =>
      rcases hu with ⟨hu, rfl⟩ | ⟨hn, -⟩
      · rw [h.unit?_name hu] at hv
        obtain rfl := Option.some.inj hv
        rfl
      · rw [h.disjoint n hn] at hv
        cases hv
  | delegated hfree hn =>
      rcases hu with ⟨hu, hname⟩ | ⟨-, hu⟩
      · exact absurd hname (Registry.unit?_eq_none.mp hfree u hu)
      · simp only [hostAnswer, hu]
  | loop hopen => exact absurd hopen hknown
  | unreadable hopen => exact absurd hopen hknown
  | absent hopen => exact absurd hopen hknown
  | broken hopen => exact absurd hopen hknown
  | linked hopen => exact absurd hopen hknown

/-- An error of resolving afresh is the error of the request. -/
theorem error_of_map_shape {x y : Except ResolveError LinkedUnit}
    (h : x.map LinkedUnit.shape = y.map LinkedUnit.shape) {e : ResolveError} (hy : y = .error e) :
    x = .error e := by
  subst hy
  cases x with
  | ok u => cases h
  | error e' =>
      cases h
      rfl

/-- A name that has bytes in a container and was requested is registered, or cannot be resolved. -/
theorem Reliable.error_of_visited (hsteady : l.Steady) (h : l.Reliable [] r) {ns : List Identity}
    {n : Identity} (hn : n ∈ ns) {found : Found} (hscan : (l.scanFor n 0).1 = .ok (some found))
    (hfree : (l.visit ns r).unit? n.text = none) : ∃ e, l.resolveAfresh [] n = .error e := by
  have hend := reliable_visit hsteady ns h
  obtain ⟨before, after, rfl⟩ := List.append_of_mem hn
  have hbefore := reliable_visit hsteady before h
  rw [visit_append] at hend hfree
  cases houtcome : (l.resolve n (l.visit before r)).1 with
  | error e =>
      exact ⟨e, error_of_map_shape (hbefore.resolve_eq hsteady n).symm houtcome⟩
  | ok u =>
      exfalso
      obtain ⟨hclosed, -, hanswers⟩ := closed_resolve hbefore.1.1 n
      obtain ⟨-, hgrows⟩ := closed_visit after hclosed
      have hanswer := l.lasting_answers [] n u _ _ ⟨hclosed, fun _ hm => by cases hm⟩ hend.1 hgrows
        (hanswers u houtcome)
      rcases hanswer with ⟨hu, hname⟩ | ⟨hunknown, -⟩
      · exact Registry.unit?_eq_none.mp hfree u hu hname
      · have hnowhere := hend.2.unresolvable n hunknown
        rw [hscan] at hnowhere
        cases hnowhere

end Loader

namespace Catalog

open Loader

variable {l : Loader}

/-! ## What is found under a name -/

/-- Among the units without a source file, registered ones come first, and names that are listed
belong to no host unit. -/
theorem find?_foreignUnits {h : HostUnits} (hhost : h.Closed) {r : Registry}
    (hnames : (r.units.map (·.name)).Nodup) (listed : List Identity) (n : Identity) :
    ((foreignUnits h r listed).find? fun u => u.name.text == n.text) =
      (r.unit? n.text).or (if n ∈ listed then none else h.lookup n.text) := by
  have hregistered : (r.units.map fun u => u.name.text).Nodup := by
    have htexts := hnames.map fun _ _ => Identity.text_inj
    rwa [List.map_map] at htexts
  have hkept : ((h.units.filter fun u => !listed.contains u.name).map fun u => u.name.text).Nodup :=
    hhost.ascending.nodup.sublist (List.filter_sublist.map _)
  have hhidden : ∀ u : LinkedUnit, u.name.text = n.text →
      (!listed.contains u.name) = !listed.contains n := by
    intro u hu
    rw [Identity.text_inj hu]
  unfold foreignUnits
  rw [find?_sortByKey, List.reverse_append, List.find?_append, find?_reverse_of_nodup hregistered,
    find?_reverse_of_nodup hkept, find?_filter_of_key hhidden]
  congr 1
  by_cases hn : n ∈ listed
  · simp [hn]
  · simp [hn, HostUnits.lookup]

/-- **What a catalog has under a name**: the compiled unit, or else the registered one, or else that
of the host unless the name is listed. -/
theorem unit_get?_make (hhost : l.host.Closed) {compiled : List CatalogEntry} {r : Registry}
    (hclosed : l.Closed (make l compiled r).2) (n : Identity) :
    ((make l compiled r).1.get? n.text).map (·.unit) =
      ((compiled.reverse.find? fun e => e.text == n.text).map (·.unit)).or
        (((make l compiled r).2.unit? n.text).or
          (if n ∈ l.available.1 then none else l.host.lookup n.text)) := by
  have hkept : find? (make l compiled r).1.compiled n.text =
      compiled.reverse.find? fun e => e.text == n.text := find?_sortByKey compiled n.text
  unfold get?
  rw [hkept]
  cases hfound : compiled.reverse.find? fun e => e.text == n.text with
  | some e => rfl
  | none =>
      rw [hfound] at hkept
      have hothers : ∀ u : LinkedUnit, u.name.text = n.text →
          (find? (make l compiled r).1.compiled u.name.text).isNone = true := by
        intro u hu
        rw [hu, hkept]
        rfl
      have hforeign := find?_foreignUnits hhost hclosed.names l.available.1 n
      have hfiltered := find?_filter_of_key hothers
        (foreignUnits l.host (make l compiled r).2 l.available.1)
      rw [if_pos rfl, hforeign] at hfiltered
      have hmap : (make l compiled r).1.foreign =
          ((foreignUnits l.host (make l compiled r).2 l.available.1).filter fun u =>
            (find? (make l compiled r).1.compiled u.name.text).isNone).map
              fun u => (⟨u, none⟩ : CatalogEntry) := rfl
      show (find? (make l compiled r).1.foreign n.text).map (·.unit) = _
      rw [hmap, find?, List.find?_map, Option.map_map]
      show Option.map id _ = _
      rw [Option.map_id]
      exact hfiltered

/-! ## Agreement -/

/-- A catalog and a loader agree about every name. -/
structure Agrees (c : Catalog) (l : Loader) (r : Registry) : Prop where
  /-- What the catalog has under a name is the very unit that a request returns, now and later. -/
  returned : ∀ (later : List Identity) (n : Identity) e, c.get? n.text = some e →
    (l.resolve n (l.visit later r)).1 = .ok e.unit
  /-- If the containers give the same bytes every time, the catalog has what a request returns, and
  nothing if it fails. -/
  same : l.Steady → ∀ (later : List Identity) (n : Identity),
    (c.get? n.text).map (·.unit) = (l.resolve n (l.visit later r)).1.toOption
  /-- A listed name is never that of a host unit, even if it cannot be linked. -/
  hides : ∀ n ∈ l.available.1, ∀ e, c.get? n.text = some e → ∃ root, e.unit.origin = .container root
  /-- Every registered unit is found, even if it was only ever a dependency. -/
  registered : ∀ u ∈ r.units, ∃ e, c.get? u.name.text = some e ∧ e.unit = u

/-- What answered a name before a catalog is made, or while it is, is returned by later requests. -/
theorem resolve_later {r r' : Registry} (hr : l.Closed r) (hr' : l.Closed r') (hgrows : r.Grows r')
    {n : Identity} {u : LinkedUnit} (hu : l.Answers n u r) : (l.resolve n r').1 = .ok u :=
  hr'.resolve_of_answers
    (l.lasting_answers [] n u r r' ⟨hr, nofun⟩ ⟨hr', nofun⟩ hgrows hu)

/-- What a catalog has under a name answers it, or belongs to the host under a name that is not listed. -/
theorem answers_of_get? (hhost : l.host.Closed) {r : Registry} (hr : l.Closed r)
    {compiled : List CatalogEntry} (hcompiled : ∀ e ∈ compiled, l.Answers e.unit.name e.unit r)
    {n : Identity} {e : CatalogEntry} (he : (make l compiled r).1.get? n.text = some e) :
    l.Answers n e.unit (make l compiled r).2 ∨
      n ∉ l.available.1 ∧ l.host.lookup n.text = some e.unit := by
  obtain ⟨hmade, hgrows⟩ : l.Closed (make l compiled r).2 ∧ r.Grows (make l compiled r).2 :=
    closed_visit _ hr
  have hunit := unit_get?_make hhost hmade n
  rw [he, Option.map_some] at hunit
  -- the sources of a catalog, in the order in which they override each other
  cases hfound : compiled.reverse.find? fun e => e.text == n.text with
  | some f =>
      rw [hfound, Option.map_some, Option.some_or] at hunit
      have hkey : f.text = n.text := key_eq_of_find? hfound
      have hanswer := hcompiled f (List.mem_reverse.mp (List.mem_of_find?_eq_some hfound))
      rw [show f.unit.name = n from Identity.text_inj hkey, ← Option.some.inj hunit] at hanswer
      exact .inl (l.lasting_answers [] n e.unit r _ ⟨hr, nofun⟩ ⟨hmade, nofun⟩ hgrows hanswer)
  | none =>
      rw [hfound, Option.map_none, Option.none_or] at hunit
      cases hregistered : (make l compiled r).2.unit? n.text with
      | some u =>
          rw [hregistered, Option.some_or] at hunit
          obtain rfl := Option.some.inj hunit
          exact .inl (.inl ⟨Registry.mem_of_unit? hregistered, Registry.name_of_unit? hregistered⟩)
      | none =>
          rw [hregistered, Option.none_or] at hunit
          split at hunit
          · cases hunit
          · next hn => exact .inr ⟨hn, hunit.symm⟩

/-- Resolving fails for a name under which a catalog has nothing, if the containers give the same bytes
every time. -/
theorem error_of_get? (hhost : l.host.Closed) (hcandid : l.Candid) (hsteady : l.Steady) {r : Registry}
    (hr : l.Reliable [] r) {compiled : List CatalogEntry} {n : Identity}
    (hnone : (make l compiled r).1.get? n.text = none) {r' : Registry} (hr' : l.Reliable [] r')
    (hdivided : l.Divided r') : ∃ e, (l.resolve n r').1 = .error e := by
  have hmade : l.Reliable [] (make l compiled r).2 := reliable_visit hsteady _ hr
  have hunit := unit_get?_make hhost hmade.1.1 n
  rw [hnone, Option.map_none, eq_comm, Option.or_eq_none_iff, Option.or_eq_none_iff,
    Option.map_eq_none_iff] at hunit
  obtain ⟨huncompiled, hfree, hleft⟩ := hunit
  rcases hcandid.scanFor n 0 with ⟨hlisted, found, hscan⟩ | ⟨hunlisted, -⟩
  · have hrequested : n ∈ uncompiled l (sortByKey CatalogEntry.text compiled) := by
      refine List.mem_filter.mpr ⟨hlisted, ?_⟩
      rw [find?, find?_sortByKey, huncompiled]
      rfl
    -- the catalog has asked for the listed name, and nothing was registered: it cannot be linked
    obtain ⟨e, he⟩ := hr.error_of_visited hsteady hrequested hscan hfree
    exact ⟨e, error_of_map_shape (hr'.resolve_eq hsteady n) he⟩
  · rw [if_neg hunlisted] at hleft
    rw [hcandid.resolve_of_unlisted hdivided hunlisted, hostAnswer, hleft]
    exact ⟨_, rfl⟩

/-- A catalog has a unit under every registered name. -/
theorem exists_get?_of_mem (hhost : l.host.Closed) {r : Registry} {compiled : List CatalogEntry}
    (hmade : l.Closed (make l compiled r).2) {u : LinkedUnit} (hu : u ∈ (make l compiled r).2.units) :
    ∃ e, (make l compiled r).1.get? u.name.text = some e := by
  cases hfound : (make l compiled r).1.get? u.name.text with
  | some e => exact ⟨e, rfl⟩
  | none =>
      have hunit := unit_get?_make hhost hmade u.name
      rw [hfound, hmade.unit?_name hu, Option.some_or, Option.map_none, eq_comm,
        Option.or_eq_none_iff] at hunit
      cases hunit.2

/-- **A catalog agrees with its loader** about every name, if the containers list exactly what they have
and never fail, and the compiled units were returned by earlier requests. -/
theorem agrees_make (l : Loader) (hhost : l.host.Defined) (hcandid : l.Candid)
    (ns : List Identity) (compiled : List CatalogEntry)
    (hcompiled : ∀ e ∈ compiled, l.Returned ns e.unit) :
    (make l compiled (l.visit ns {})).1.Agrees l (make l compiled (l.visit ns {})).2 := by
  have hvisited : l.Closed (l.visit ns {}) := (closed_visit ns l.closed_start).1
  have hmade : l.Closed (make l compiled (l.visit ns {})).2 := (closed_visit _ hvisited).1
  have hdivided : l.Divided (make l compiled (l.visit ns {})).2 :=
    divided_visit hcandid _ (divided_visit hcandid ns l.divided_start)
  have hanswers : ∀ {n : Identity} {e : CatalogEntry},
      (make l compiled (l.visit ns {})).1.get? n.text = some e →
        l.Answers n e.unit (make l compiled (l.visit ns {})).2 ∨
          n ∉ l.available.1 ∧ l.host.lookup n.text = some e.unit :=
    answers_of_get? hhost.closed hvisited fun e he => answers_of_returned (hcompiled e he)
  have hreturned : ∀ (later : List Identity) (n : Identity) e,
      (make l compiled (l.visit ns {})).1.get? n.text = some e →
        (l.resolve n (l.visit later (make l compiled (l.visit ns {})).2)).1 = .ok e.unit := by
    intro later n e he
    obtain ⟨hlater, hgrows⟩ := closed_visit later hmade
    rcases hanswers he with hanswer | ⟨hunlisted, hfound⟩
    · exact resolve_later hmade hlater hgrows hanswer
    · rw [hcandid.resolve_of_unlisted (divided_visit hcandid later hdivided) hunlisted, hostAnswer, hfound]
  refine ⟨hreturned, fun hsteady later n => ?same, fun n hn e he => ?hides, fun u hu => ?registered⟩
  case same =>
    cases hfound : (make l compiled (l.visit ns {})).1.get? n.text with
    | some e => rw [hreturned later n e hfound, Option.map_some, Except.toOption]
    | none =>
        have hreliable : l.Reliable [] (l.visit ns {}) := reliable_visit hsteady ns l.reliable_start
        have hlater : l.Reliable [] (l.visit later (make l compiled (l.visit ns {})).2) :=
          reliable_visit hsteady later (reliable_visit hsteady _ hreliable)
        obtain ⟨e, he⟩ := error_of_get? hhost.closed hcandid hsteady hreliable hfound hlater
          (divided_visit hcandid later hdivided)
        rw [he, Option.map_none, Except.toOption]
  case hides =>
    rcases hanswers he with (⟨hmem, -⟩ | ⟨hunknown, -⟩) | ⟨hunlisted, -⟩
    · exact hmade.container e.unit hmem
    · exact absurd hn (hdivided.unlisted n hunknown)
    · exact absurd hn hunlisted
  case registered =>
    obtain ⟨e, he⟩ := exists_get?_of_mem hhost.closed hmade hu
    have hsame := hreturned [] u.name e he
    have hunit := resolve_later hmade hmade (.refl _) (.inl ⟨hu, rfl⟩)
    exact ⟨e, he, Except.ok.inj (hsame.symm.trans hunit)⟩

/-- A compiled unit, and a listed unit that cannot be linked, in front of a host that has one. -/
theorem agrees_make_memory :
    ∃ h : HostUnits, h.Defined ∧ (h.lookup "a.Foo").isSome ∧
      let l := overMemory 1 [("b/Bar.wasm", [0, 0x61, 0x73, 0x6D, 1, 0, 0, 0]), ("a/Foo.wasm", [])] h
      let bar : Identity := ⟨["b", "Bar"], by decide, by decide⟩
      ∃ u, l.Returned [bar] u ∧ l.Candid ∧ l.Steady ∧
        (make l [⟨u, none⟩] (l.visit [bar] {})).1.Agrees l (make l [⟨u, none⟩] (l.visit [bar] {})).2 := by
  obtain ⟨h, hdefined, hfound⟩ := HostUnits.exists_defined
  refine ⟨h, hdefined, hfound, ?_⟩
  intro l bar
  have hlinks : (l.resolve bar {}).1.toOption.isSome = true := by
    rw [resolve, resolveAt]
    rfl
  cases houtcome : (l.resolve bar {}).1 with
  | error e =>
      rw [houtcome] at hlinks
      cases hlinks
  | ok u =>
      have hreturned : l.Returned [bar] u := ⟨[], bar, [], rfl, houtcome⟩
      have hcandid : l.Candid := candid_overMemory _ _ _
      refine ⟨u, hreturned, hcandid, steady_overMemory _ _ _,
        agrees_make l hdefined hcandid [bar] [⟨u, none⟩] ?_⟩
      intro e he
      obtain rfl := List.mem_singleton.mp he
      exact hreturned

namespace Mended

/-- A file that cannot be linked when it is first read, and can ever after. -/
def container : Container where
  root := .ofString "lib"
  lookup clock name :=
    .ok (if name = "a/Foo.wasm" then
      some (if clock = 0 then [] else [0, 0x61, 0x73, 0x6D, 1, 0, 0, 0]) else none)
  resources := .ok ["a/Foo.wasm"]
  finite := ⟨["a/Foo.wasm"], fun _ name _ h => by
    by_cases hname : name = "a/Foo.wasm"
    · exact List.mem_singleton.mpr hname
    · simp [hname] at h⟩

/-- The loader over it. -/
def loader : Loader := ⟨1, [container], .empty, "wasm"⟩

/-- The container always has the one file it lists, whatever bytes that gives. -/
theorem candid_loader : loader.Candid := by
  intro c hc
  obtain rfl := List.mem_singleton.mp hc
  refine ⟨_, rfl, fun clock name => ⟨_, rfl, ?_⟩⟩
  by_cases hname : name = "a/Foo.wasm"
  · simp [hname]
  · simp [hname]

/-- The catalog has nothing under a listed name, and a request for it returns a unit. -/
theorem foo_is_overlooked :
    loader.host.Defined ∧ loader.Candid ∧ (make loader [] {}).1.get? "a.Foo" = none ∧
      (loader.resolve ⟨["a", "Foo"], by decide, by decide⟩
        (make loader [] {}).2).1.toOption.isSome = true := by
  refine ⟨.empty, candid_loader, ?_, ?_⟩
  · cbv
  · cbv

end Mended

end Catalog

end LiveUnits
