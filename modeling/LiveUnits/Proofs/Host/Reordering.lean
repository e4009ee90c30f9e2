import LiveUnits.Proofs.Host.Linking

/-!
# The order of definitions

A host is built by definitions, one after the other (`HostUnits.build`).  What is accepted is in order: every
definition comes after those of the units that it extends or imports from.  Any other order of the same
definitions that keeps to this makes the same host, but for the handles, which are given out in the order of
the definitions (`HostUnits.renumber`).  An order that does not keep to it is refused where it first breaks it
(`HostUnits.reordering`).

Both follow from one step.  A definition links the same unit as before if the names it refers to have been
defined, and is refused if one of them has not (`build_of_inOrder`, `refused_of_missing`).
-/

namespace LiveUnits

namespace HostUnits

open Linkage

/-- Defines units, one after the other, from none at all. -/
def build (ds : List (String × Bytes)) : Except HostError HostUnits :=
  ds.foldlM (fun h d => h.define d.1 d.2) HostUnits.empty

/-- The unit that is defined extends the unit of a name. -/
def Extends (d : String × Bytes) (m : Identity) : Prop :=
  ∃ n declares, Identity.parse d.1 = .ok n ∧ declared n d.2 = .ok declares ∧ declares.metadata.supertype = some m

/-- The unit that is defined imports from the unit of a name. -/
def ImportsFrom (d : String × Bytes) (m : Identity) : Prop :=
  ∃ n declares, Identity.parse d.1 = .ok n ∧ declared n d.2 = .ok declares ∧
    ∃ i ∈ declares.interface.imports, i.moduleName = m.text

/-- Every definition comes after those of the units that it extends or imports from. -/
def InOrder (ds : List (String × Bytes)) : Prop :=
  ∀ before d after, ds = before ++ d :: after → ∀ m : Identity, Extends d m ∨ ImportsFrom d m →
    m.text ∈ before.map Prod.fst

variable {ds ds' before after : List (String × Bytes)} {d : String × Bytes} {h g : HostUnits} {n m : Identity}

/-- A definition extends or imports from exactly the names that its bytes refer to. -/
theorem extends_or_imports {declares : Declared} (hn : Identity.parse d.1 = .ok n)
    (hd : declared n d.2 = .ok declares) : Extends d m ∨ ImportsFrom d m ↔ declares.RefersTo m := by
  constructor
  · rintro (⟨n', declares', hn', hd', hm⟩ | ⟨n', declares', hn', hd', hm⟩)
    · obtain rfl := Except.ok.inj (hn'.symm.trans hn)
      obtain rfl := Except.ok.inj (hd'.symm.trans hd)
      exact .inl hm
    · obtain rfl := Except.ok.inj (hn'.symm.trans hn)
      obtain rfl := Except.ok.inj (hd'.symm.trans hd)
      exact .inr hm
  · rintro (hm | hm)
    · exact .inl ⟨n, declares, hn, hd, hm⟩
    · exact .inr ⟨n, declares, hn, hd, hm⟩

/-- One more definition is in order if all that it refers to is defined before. -/
theorem inOrder_concat :
    InOrder (before ++ [d]) ↔ InOrder before ∧ ∀ m : Identity, Extends d m ∨ ImportsFrom d m →
      m.text ∈ before.map Prod.fst := by
  constructor
  · intro h
    refine ⟨fun front d' more hsplit => h front d' (more ++ [d]) ?_, h before d [] rfl⟩
    rw [hsplit, List.append_assoc, List.cons_append]
  · rintro ⟨hbefore, hlast⟩ front d' more hsplit
    rcases List.eq_nil_or_concat more with rfl | ⟨more, last, rfl⟩
    · obtain ⟨rfl, hd⟩ := List.append_inj' hsplit rfl
      obtain rfl := List.singleton_inj.mp hd
      exact hlast
    · rw [List.concat_eq_append, ← List.cons_append, ← List.append_assoc] at hsplit
      exact hbefore front d' more (List.append_inj' hsplit rfl).1

/-- What is not in order goes wrong at a first place. -/
theorem exists_first (h : ¬ InOrder ds) : ∃ before d after, ds = before ++ d :: after ∧ InOrder before ∧
    ∃ m : Identity, (Extends d m ∨ ImportsFrom d m) ∧ m.text ∉ before.map Prod.fst := by
  induction ds using List.reverseRecOn with
  | nil =>
      refine absurd (fun before d after hsplit => ?_) h
      cases before <;> cases hsplit
  | append_singleton front last ih =>
      by_cases hfront : InOrder front
      · rw [inOrder_concat, not_and] at h
        have hlast := h hfront
        push Not at hlast
        obtain ⟨m, hm, hmissing⟩ := hlast
        exact ⟨front, last, [], rfl, hfront, m, hm, hmissing⟩
      · obtain ⟨before, d, after, rfl, hbefore, hm⟩ := ih hfront
        exact ⟨before, d, after ++ [last], by simp, hbefore, hm⟩

/-! ## What is built -/

/-- The last definition is made in the host of those before it. -/
theorem build_concat (before : List (String × Bytes)) (d : String × Bytes) :
    build (before ++ [d]) = build before >>= fun h => h.define d.1 d.2 := by
  unfold build
  rw [List.foldlM_append]
  simp

theorem build_append (before after : List (String × Bytes)) :
    build (before ++ after) = build before >>= fun h => after.foldlM (fun h d => h.define d.1 d.2) h := by
  unfold build
  rw [List.foldlM_append]

/-- What definitions that were accepted have made. -/
structure Built (ds : List (String × Bytes)) (h : HostUnits) : Prop where
  closed : h.Closed
  /-- The names that were defined are the names of the host. -/
  isSome_lookup : ∀ name, (h.lookup name).isSome = true ↔ name ∈ ds.map Prod.fst
  /-- No name was defined twice. -/
  nodup : (ds.map Prod.fst).Nodup
  /-- Every definition made a unit. -/
  length : h.units.length = ds.length

/-- A host has exactly the names that were defined. -/
theorem Built.lookup_eq_none (hbuilt : Built ds h) {name : String} :
    h.lookup name = none ↔ name ∉ ds.map Prod.fst := by
  rw [← Option.not_isSome_iff_eq_none, hbuilt.isSome_lookup]

theorem built_empty : Built [] HostUnits.empty where
  closed := closed_empty
  isSome_lookup name := by simp [lookup, HostUnits.empty]
  nodup := .nil
  length := rfl

/-- What a definition does to a host: under its name there is the unit that was linked, and every other name
is answered as before. -/
theorem Closed.define_eq (hh : h.Closed) {h' : HostUnits} {name : String} {bytes : Bytes}
    (hdefine : h.define name bytes = .ok h') : ∃ n u, Identity.parse name = .ok n ∧ h.lookup n.text = none ∧
      h.link n bytes = .ok u ∧ h'.units.length = h.units.length + 1 ∧
        ∀ key, h'.lookup key = if name = key then some u else h.lookup key := by
  obtain ⟨n, u, hn, hfree, hlink, rfl⟩ := define_eq_ok hdefine
  have hname : u.name.text = name := by
    rw [(linked_of_link hlink).2.name_eq, Identity.text_of_parse hn]
  refine ⟨n, u, hn, hfree, hlink, ?_, fun key => ?_⟩
  · have hnew : u.name.text ∉ h.units.map fun v => v.name.text := by
      rw [hname, ← Identity.text_of_parse hn]
      exact not_mem_of_lookup hfree
    exact (perm_insertByKey hnew).length_eq
  · rw [← hname]
    exact find?_insertByKey hh.ascending u key

/-- One more definition is one more unit. -/
theorem Built.define (hbuilt : Built before h) {h' : HostUnits} (hdefine : h.define d.1 d.2 = .ok h') :
    Built (before ++ [d]) h' := by
  obtain ⟨n, u, hn, hfree, -, hlength, hlookup⟩ := hbuilt.closed.define_eq hdefine
  refine ⟨hbuilt.closed.define hdefine, fun name => ?_, ?_, ?_⟩
  · rw [hlookup, List.map_append, List.mem_append, ← hbuilt.isSome_lookup]
    by_cases hsame : d.1 = name
    · simp [hsame]
    · simp [hsame, Ne.symm hsame]
  · have hnew : d.1 ∉ before.map Prod.fst := by
      rw [← hbuilt.isSome_lookup, ← Identity.text_of_parse hn, hfree]
      exact Bool.false_ne_true
    rw [List.map_append]
    exact List.nodup_append.mpr ⟨hbuilt.nodup, List.nodup_singleton _, fun name hname last hlast hsame =>
      hnew (List.mem_singleton.mp hlast ▸ hsame ▸ hname)⟩
  · rw [hlength, hbuilt.length, List.length_append]
    rfl

/-- **A host that was built has the units of its definitions**, and no others. -/
theorem built_of_build (hbuild : build ds = .ok h) : Built ds h := by
  induction ds using List.reverseRecOn generalizing h with
  | nil =>
      obtain rfl := Except.ok.inj hbuild
      exact built_empty
  | append_singleton before d ih =>
      rw [build_concat] at hbuild
      cases hbefore : build before with
      | error e =>
          rw [hbefore] at hbuild
          cases hbuild
      | ok before' =>
          rw [hbefore] at hbuild
          exact (ih hbefore).define hbuild

/-! ## What definitions keep -/

/-- What can be linked under a free name becomes a unit. -/
theorem define_of_link {name : String} {bytes : Bytes} {u : LinkedUnit} (hn : Identity.parse name = .ok n)
    (hfree : h.lookup n.text = none) (hlink : h.link n bytes = .ok u) :
    h.define name bytes = .ok ⟨insertByKey (fun v : LinkedUnit => v.name.text) u h.units⟩ := by
  unfold define
  simp only [hn, hfree, hlink, Option.isSome_none, Bool.false_eq_true, if_false]

/-- A definition is refused with the error of linking. -/
theorem error_of_link {name : String} {bytes : Bytes} {e : LinkageError} (hn : Identity.parse name = .ok n)
    (hfree : h.lookup n.text = none) (hlink : h.link n bytes = .error e) :
    h.define name bytes = .error (.linkage e) := by
  unfold define
  simp only [hn, hfree, hlink, Option.isSome_none, Bool.false_eq_true, if_false]

/-- A definition that fails to be linked was refused by the host as it was. -/
theorem refuses_of_define {name : String} {bytes : Bytes} {e : LinkageError}
    (hdefine : h.define name bytes = .error (.linkage e)) : ∃ n, h.Refuses n bytes e := by
  unfold define at hdefine
  split at hdefine
  · cases hdefine
  · next n _ =>
    split at hdefine
    · cases hdefine
    · cases hlink : h.link n bytes with
      | ok u =>
          rw [hlink] at hdefine
          cases hdefine
      | error e' =>
          rw [hlink] at hdefine
          cases hdefine
          exact ⟨n, refuses_of_link hlink⟩

/-- What the host has, it keeps. -/
theorem Closed.lookup_of_define (hh : h.Closed) {h' : HostUnits} {name : String} {bytes : Bytes}
    (hdefine : h.define name bytes = .ok h') {key : String} {v : LinkedUnit} (hv : h.lookup key = some v) :
    h'.lookup key = some v := by
  obtain ⟨n, u, hn, hfree, -, -, hlookup⟩ := hh.define_eq hdefine
  have hother : name ≠ key := by
    intro hsame
    rw [Identity.text_of_parse hn, hsame, hv] at hfree
    cases hfree
  rw [hlookup, if_neg hother, hv]

/-- What the first definitions built is still there after all of them. -/
theorem exists_before (hbuild : build (before ++ after) = .ok h) :
    ∃ g, build before = .ok g ∧ ∀ key v, g.lookup key = some v → h.lookup key = some v := by
  induction after using List.reverseRecOn generalizing h with
  | nil =>
      rw [List.append_nil] at hbuild
      exact ⟨h, hbuild, fun _ _ hv => hv⟩
  | append_singleton more last ih =>
      rw [← List.append_assoc, build_concat] at hbuild
      cases hmore : build (before ++ more) with
      | error e =>
          rw [hmore] at hbuild
          cases hbuild
      | ok h' =>
          rw [hmore] at hbuild
          obtain ⟨g, hg, hkeeps⟩ := ih hmore
          refine ⟨g, hg, fun key v hv => ?_⟩
          exact (built_of_build hmore).closed.lookup_of_define hbuild (hkeeps key v hv)

/-- What a definition that was accepted did: the bytes were linked against what was defined before it, and
the unit is still what the host has under the name. -/
theorem exists_definition (hbuild : build ds = .ok h) (hsplit : ds = before ++ d :: after) :
    ∃ g n u, build before = .ok g ∧ Identity.parse d.1 = .ok n ∧ g.link n d.2 = .ok u ∧
      h.lookup d.1 = some u ∧ ∀ key v, g.lookup key = some v → h.lookup key = some v := by
  subst hsplit
  obtain ⟨g, hg, hkeeps⟩ := exists_before hbuild
  rw [List.append_cons] at hbuild
  obtain ⟨h', hh', hkeeps'⟩ := exists_before hbuild
  rw [build_concat, hg] at hh'
  obtain ⟨n, u, hn, -, hlink, -, hlookup⟩ := (built_of_build hg).closed.define_eq hh'
  refine ⟨g, n, u, hg, hn, hlink, hkeeps' d.1 u ?_, hkeeps⟩
  rw [hlookup, if_pos rfl]

/-- What is accepted is in order. -/
theorem inOrder_of_build (hbuild : build ds = .ok h) : InOrder ds := by
  intro before d after hsplit m hm
  obtain ⟨g, n, u, hg, hn, hlink, -, -⟩ := exists_definition hbuild hsplit
  obtain ⟨-, declares, hd, -⟩ := fullyLinked_of_link hlink
  obtain ⟨v, -, hv⟩ := exists_of_refersTo hlink hd ((extends_or_imports hn hd).mp hm)
  rw [← (built_of_build hg).isSome_lookup, hv]
  rfl

/-! ## Other orders -/

/-- Where a definition stands in another order. -/
def reposition (ds ds' : List (String × Bytes)) (j : Nat) : Nat :=
  match ds[j]? with
  | some d => ds'.idxOf d
  | none => j

/-- The handle that a unit of the host has after the same definitions in another order. -/
def renumber (ds ds' : List (String × Bytes)) (x : Handle) : Handle :=
  match x.realm with
  | .host => ⟨.host, reposition ds ds' x.serial⟩
  | .loader _ => x

/-- Different definitions stand in different positions of the other order. -/
theorem reposition_injective (hnodup : ds.Nodup) (hperm : ds'.Perm ds) :
    Function.Injective (reposition ds ds') := by
  have hplace {j : Nat} {d : String × Bytes} (hj : ds[j]? = some d) :
      reposition ds ds' j = ds'.idxOf d ∧ ds'.idxOf d < ds.length ∧ d ∈ ds' := by
    have hmem : d ∈ ds' := hperm.mem_iff.mpr (List.mem_of_getElem? hj)
    refine ⟨?_, hperm.length_eq ▸ List.idxOf_lt_length_of_mem hmem, hmem⟩
    unfold reposition
    rw [hj]
  have hbehind {j : Nat} (hj : ds[j]? = none) : reposition ds ds' j = j ∧ ds.length ≤ j := by
    refine ⟨?_, List.getElem?_eq_none_iff.mp hj⟩
    unfold reposition
    rw [hj]
  intro j k hsame
  cases hj : ds[j]? with
  | none =>
      obtain ⟨hj, hlong⟩ := hbehind hj
      cases hk : ds[k]? with
      | none =>
          obtain ⟨hk, -⟩ := hbehind hk
          rwa [hj, hk] at hsame
      | some e =>
          obtain ⟨hk, hshort, -⟩ := hplace hk
          omega
  | some d =>
      obtain ⟨hplaced, hshort, hd⟩ := hplace hj
      cases hk : ds[k]? with
      | none =>
          obtain ⟨hk, hlong⟩ := hbehind hk
          omega
      | some e =>
          obtain ⟨hplaced', -, -⟩ := hplace hk
          rw [hplaced, hplaced'] at hsame
          obtain rfl := (List.idxOf_inj hd).mp hsame
          have hlength : j < ds.length := (List.getElem?_eq_some_iff.mp hj).1
          exact (List.getElem?_inj hlength hnodup).mp (hj.trans hk.symm)

/-- Different handles get different numbers in the other order. -/
theorem renumber_injective (hnodup : ds.Nodup) (hperm : ds'.Perm ds) :
    Function.Injective (renumber ds ds') := by
  intro x y hsame
  obtain ⟨realm, j⟩ := x
  obtain ⟨realm', k⟩ := y
  unfold renumber at hsame
  cases realm with
  | host =>
      cases realm' with
      | host =>
          have hserial : j = k := reposition_injective hnodup hperm (Handle.mk.inj hsame).2
          rw [hserial]
      | loader number => cases (Handle.mk.inj hsame).1
  | loader number =>
      cases realm' with
      | host => cases (Handle.mk.inj hsame).1
      | loader number' => exact hsame

/-- The next handle is renumbered to the next handle. -/
theorem renumber_next {front more : List (String × Bytes)} (hsplit : ds = front ++ d :: more)
    (hsplit' : ds' = before ++ d :: after) (hnodup : ds'.Nodup) :
    renumber ds ds' ⟨.host, front.length⟩ = ⟨.host, before.length⟩ := by
  have hhere : ds[front.length]? = some d := by
    rw [hsplit, List.getElem?_append_right (Nat.le_refl _), Nat.sub_self]
    rfl
  have hnew : d ∉ before := by
    rw [hsplit', List.nodup_append] at hnodup
    exact fun hmem => hnodup.2.2 d hmem d List.mem_cons_self rfl
  have hplace : ds'.idxOf d = before.length := by
    rw [hsplit', List.idxOf_append_of_notMem hnew, List.idxOf_cons_self, Nat.add_zero]
  show (⟨.host, reposition ds ds' front.length⟩ : Handle) = ⟨.host, before.length⟩
  unfold reposition
  rw [hhere]
  simp only [hplace]

/-- Where a definition stands in another order, its name has not been defined. -/
theorem Built.not_mem_before (hbuilt : Built ds h) (hperm : ds'.Perm ds) (hsplit : ds' = before ++ d :: after) :
    d.1 ∉ before.map Prod.fst := by
  have hnames := (hperm.map Prod.fst).nodup_iff.mpr hbuilt.nodup
  rw [hsplit, List.map_append, List.nodup_append] at hnames
  intro hdefined
  exact hnames.2.2 d.1 hdefined d.1 List.mem_cons_self rfl

/-- A definition in one order has a place in the other. -/
theorem exists_place (hperm : ds'.Perm ds) (hsplit : ds' = before ++ d :: after) :
    ∃ front more, ds = front ++ d :: more := by
  apply List.append_of_mem
  rw [← hperm.mem_iff, hsplit]
  exact List.mem_append_right _ List.mem_cons_self

/-- **Definitions that keep to the order make the same units**, in whatever order they were accepted before. -/
theorem build_of_inOrder (hbuild : build ds = .ok h) (hperm : ds'.Perm ds) (hsplit : ds' = before ++ after)
    (horder : InOrder before) : ∃ g, build before = .ok g ∧ ∀ key ∈ before.map Prod.fst,
      g.lookup key = (h.lookup key).map (LinkedUnit.relabel (renumber ds ds')) := by
  have hdefinitions := built_of_build hbuild
  have hnodup : ds'.Nodup := hperm.nodup_iff.mpr hdefinitions.nodup.of_map
  induction before using List.reverseRecOn generalizing after with
  | nil => exact ⟨HostUnits.empty, rfl, fun key hkey => absurd hkey List.not_mem_nil⟩
  | append_singleton before d ih =>
      rw [← List.append_cons] at hsplit
      obtain ⟨hbefore, hlast⟩ := inOrder_concat.mp horder
      obtain ⟨g, hg, hlookup⟩ := ih hsplit hbefore
      obtain ⟨front, more, hplace⟩ := exists_place hperm hsplit
      obtain ⟨h₀, n, u, hh₀, hn, hlink, hunit, hkeeps⟩ := exists_definition hbuild hplace
      have hbuilt := built_of_build hg
      have hfree : g.lookup n.text = none := by
        rw [hbuilt.lookup_eq_none, Identity.text_of_parse hn]
        exact hdefinitions.not_mem_before hperm hsplit
      -- every name that the bytes refer to has been defined, and is the same unit as before
      have hlink' : g.link n d.2 = .ok (u.relabel (renumber ds ds')) := by
        refine link_relabel hlink ?_ fun m v hm hv => ?_
        · rw [(built_of_build hh₀).length, hbuilt.length]
          exact renumber_next hplace hsplit hnodup
        · obtain ⟨declares, hd, hrefers⟩ := refersTo_of_mem_referenced hm
          rw [hlookup m.text (hlast m ((extends_or_imports hn hd).mpr hrefers)), hkeeps m.text v hv]
          rfl
      have hdefine := define_of_link hn hfree hlink'
      obtain ⟨n', u', hn', -, hlink'', -, hlookup'⟩ := hbuilt.closed.define_eq hdefine
      obtain rfl := Except.ok.inj (hn'.symm.trans hn)
      obtain rfl := Except.ok.inj (hlink''.symm.trans hlink')
      refine ⟨_, by rw [build_concat, hg]; exact hdefine, fun key hkey => ?_⟩
      rw [hlookup']
      by_cases hsame : d.1 = key
      · rw [if_pos hsame, ← hsame, hunit]
        rfl
      · rw [if_neg hsame]
        rw [List.map_append, List.mem_append] at hkey
        refine hlookup key (hkey.resolve_right fun hlast => hsame ?_)
        exact (List.mem_singleton.mp hlast).symm

/-- Hosts with the same units under the same names are the same. -/
theorem units_of_lookup {f : Handle → Handle} (hh : h.Closed) (hg : g.Closed)
    (hsame : ∀ key, g.lookup key = (h.lookup key).map (LinkedUnit.relabel f)) :
    g.units = h.units.map (LinkedUnit.relabel f) := by
  have hascending : Ascending (fun u : LinkedUnit => u.name.text) (h.units.map (LinkedUnit.relabel f)) := by
    refine List.pairwise_map.mpr (hh.ascending.imp fun {u v} hlt => ?_)
    simpa only [LinkedUnit.relabel_name] using hlt
  refine hg.ascending.eq_of_mem hascending fun u => ?_
  rw [List.mem_map]
  constructor
  · intro hu
    have hlookup := hg.lookup_name hu
    rw [hsame, Option.map_eq_some_iff] at hlookup
    obtain ⟨v, hv, hrelabel⟩ := hlookup
    exact ⟨v, mem_of_lookup hv, hrelabel⟩
  · intro hu
    obtain ⟨v, hv, rfl⟩ := hu
    have hlookup := hsame v.name.text
    rw [hh.lookup_name hv] at hlookup
    exact mem_of_lookup hlookup

/-- How a definition is refused that is placed before the definition of a unit which it refers to. -/
inductive Blames (d : String × Bytes) (after : List (String × Bytes)) : LinkageError → Prop where
  /-- The unit that it extends is defined later. -/
  | supertype {n m : Identity} (hn : Identity.parse d.1 = .ok n) (hm : Extends d m)
      (hlater : m.text ∈ after.map Prod.fst) : Blames d after (.unresolvedSupertype n m (.notFound m))
  /-- A unit that it imports from is defined later. -/
  | dependency {n m : Identity} (hn : Identity.parse d.1 = .ok n) (hm : ImportsFrom d m)
      (hlater : m.text ∈ after.map Prod.fst) : Blames d after (.unresolvedDependency n m (.notFound m))

/-- What an accepted definition refers to is defined later in another order, if it is not defined before. -/
theorem later_of_missing (hbuild : build ds = .ok h) (hperm : ds'.Perm ds)
    (hsplit : ds' = before ++ d :: after) (hm : Extends d m ∨ ImportsFrom d m)
    (hmissing : m.text ∉ before.map Prod.fst) : m.text ∈ after.map Prod.fst := by
  obtain ⟨front, more, rfl⟩ := exists_place hperm hsplit
  have hfront : m.text ∈ front.map Prod.fst := inOrder_of_build hbuild front d more rfl m hm
  have hother : m.text ≠ d.1 := by
    intro hsame
    rw [hsame] at hfront
    exact (built_of_build hbuild).not_mem_before (.refl _) rfl hfront
  have hsomewhere : m.text ∈ ds'.map Prod.fst := by
    rw [(hperm.map Prod.fst).mem_iff, List.map_append]
    exact List.mem_append_left _ hfront
  rw [hsplit, List.map_append, List.mem_append, List.map_cons, List.mem_cons] at hsomewhere
  exact (hsomewhere.resolve_left hmissing).resolve_left hother

/-- **A definition that comes too early is refused.** -/
theorem refused_of_missing (hbuild : build ds = .ok h) (hperm : ds'.Perm ds)
    (hsplit : ds' = before ++ d :: after) (horder : InOrder before)
    (hm : Extends d m ∨ ImportsFrom d m) (hmissing : m.text ∉ before.map Prod.fst) :
    ∃ g e, build before = .ok g ∧ Blames d after e ∧ g.define d.1 d.2 = .error (.linkage e) := by
  obtain ⟨g, hg, hlookup⟩ := build_of_inOrder hbuild hperm hsplit horder
  have hbuilt := built_of_build hg
  obtain ⟨front, more, hplace⟩ := exists_place hperm hsplit
  obtain ⟨h₀, n, u, -, hn, hlink, -, hkeeps⟩ := exists_definition hbuild hplace
  obtain ⟨-, declares, hd, -⟩ := fullyLinked_of_link hlink
  have hfree : g.lookup n.text = none := by
    rw [hbuilt.lookup_eq_none, Identity.text_of_parse hn]
    exact (built_of_build hbuild).not_mem_before hperm hsplit
  have hsame : ∀ key v w, h₀.lookup key = some v → g.lookup key = some w → w.interface = v.interface := by
    intro key v w hv hw
    have hdefined : key ∈ before.map Prod.fst := by
      rw [← hbuilt.isSome_lookup, hw]
      rfl
    rw [hlookup key hdefined, hkeeps key v hv] at hw
    rw [← Option.some.inj hw, LinkedUnit.relabel_interface]
  obtain ⟨k, hnone, hblame⟩ := error_of_missing hlink hd hsame ((extends_or_imports hn hd).mp hm)
    (hbuilt.lookup_eq_none.mpr hmissing)
  have hlater (hk : Extends d k ∨ ImportsFrom d k) : k.text ∈ after.map Prod.fst :=
    later_of_missing hbuild hperm hsplit hk (hbuilt.lookup_eq_none.mp hnone)
  rcases hblame with ⟨hk, hfails⟩ | ⟨hk, hfails⟩
  · have hextends : Extends d k := ⟨n, declares, hn, hd, hk⟩
    exact ⟨g, _, hg, .supertype hn hextends (hlater (.inl hextends)), error_of_link hn hfree hfails⟩
  · have himports : ImportsFrom d k := ⟨n, declares, hn, hd, hk⟩
    exact ⟨g, _, hg, .dependency hn himports (hlater (.inr himports)), error_of_link hn hfree hfails⟩

/-- Definitions that are refused for the bytes of a unit are refused by a host that some of them made. -/
theorem refuses_of_build {e : LinkageError} (hbuild : build ds = .error (.linkage e)) :
    ∃ g n bytes, Refuses g n bytes e := by
  induction ds using List.reverseRecOn with
  | nil => cases hbuild
  | append_singleton before d ih =>
      rw [build_concat] at hbuild
      cases hbefore : build before with
      | error e' =>
          rw [hbefore] at hbuild
          cases hbuild
          exact ih hbefore
      | ok g =>
          rw [hbefore] at hbuild
          obtain ⟨n, hrefuses⟩ := refuses_of_define hbuild
          exact ⟨g, n, d.2, hrefuses⟩

/-- What the order of definitions that make a host matters for. -/
structure Reorders (ds : List (String × Bytes)) (h : HostUnits) : Prop where
  /-- The definitions are in order. -/
  inOrder : InOrder ds
  /-- What a unit refers to is what the definitions before its own have made. -/
  earlier : ∀ before d after, ds = before ++ d :: after → ∃ g u, build before = .ok g ∧
    h.lookup d.1 = some u ∧ ∀ v ∈ u.references, v ∈ g.units ∧ v ∈ h.units
  /-- In any other order that is kept to, they make the same units under the same names, but for the handles:
  those are given out in the order of the definitions. -/
  accepted : ∀ ds', ds'.Perm ds → InOrder ds' → ∃ h', build ds' = .ok h' ∧
    h'.units.map (·.name) = h.units.map (·.name) ∧
      h'.units = h.units.map (LinkedUnit.relabel (renumber ds ds')) ∧ Function.Injective (renumber ds ds')
  /-- In an order that is not kept to, they are accepted up to the first definition that is placed before that
  of a unit which it extends or imports from.  This one is refused for such a unit, and nothing after it is
  looked at. -/
  refused : ∀ ds', ds'.Perm ds → ¬ InOrder ds' → ∃ before d after g e, ds' = before ++ d :: after ∧
    InOrder before ∧ build before = .ok g ∧ Blames d after e ∧ g.define d.1 d.2 = .error (.linkage e) ∧
      build ds' = .error (.linkage e)
  /-- No definitions, in whatever order, lead into a loop. -/
  loopless : ∀ ds' e, build ds' = .error (.linkage e) → ∀ chain, e ≠ .loopDetected chain

/-- **Definitions can change places as long as each comes after what it refers to.** -/
theorem reordering (hbuild : build ds = .ok h) : Reorders ds h where
  inOrder := inOrder_of_build hbuild
  earlier before d after hsplit := by
    obtain ⟨g, n, u, hg, -, hlink, hunit, hkeeps⟩ := exists_definition hbuild hsplit
    refine ⟨g, u, hg, hunit, fun v hv => ?_⟩
    have hlookup := lookup_of_reference hlink hv
    exact ⟨mem_of_lookup hlookup, mem_of_lookup (hkeeps _ v hlookup)⟩
  accepted ds' hperm horder := by
    obtain ⟨h', hbuild', hlookup⟩ := build_of_inOrder hbuild hperm (List.append_nil ds').symm horder
    have hbuilt := built_of_build hbuild
    have hbuilt' := built_of_build hbuild'
    have hunits : h'.units = h.units.map (LinkedUnit.relabel (renumber ds ds')) := by
      refine units_of_lookup hbuilt.closed hbuilt'.closed fun key => ?_
      by_cases hkey : key ∈ ds'.map Prod.fst
      · exact hlookup key hkey
      · have hkey' : key ∉ ds.map Prod.fst := fun hmem => hkey ((hperm.map Prod.fst).mem_iff.mpr hmem)
        rw [hbuilt'.lookup_eq_none.mpr hkey, hbuilt.lookup_eq_none.mpr hkey']
        rfl
    refine ⟨h', hbuild', ?_, hunits, renumber_injective hbuilt.nodup.of_map hperm⟩
    rw [hunits, List.map_map]
    exact List.map_congr_left fun u _ => u.relabel_name _
  refused ds' hperm horder := by
    obtain ⟨before, d, after, hsplit, hbefore, m, hm, hmissing⟩ := exists_first horder
    obtain ⟨g, e, hg, hblames, hdefine⟩ := refused_of_missing hbuild hperm hsplit hbefore hm hmissing
    refine ⟨before, d, after, g, e, hsplit, hbefore, hg, hblames, hdefine, ?_⟩
    rw [hsplit, build_append, hg]
    show (g.define d.1 d.2 >>= fun h => after.foldlM (fun h d => h.define d.1 d.2) h) = _
    rw [hdefine]
    rfl
  loopless ds' e hfails := by
    obtain ⟨g, n, bytes, hrefuses⟩ := refuses_of_build hfails
    exact hrefuses.not_loop

namespace Three

/-- A unit that has nothing. -/
def bare : Bytes := [0, 0x61, 0x73, 0x6D, 1, 0, 0, 0]

/-- A unit that extends `a.Foo` and has nothing else. -/
def extending : Bytes :=
  let payload := 15 :: Utf8.encode extendsSection ++ Utf8.encode "a.Foo"
  bare ++ 0 :: UInt8.ofNat payload.length :: payload

/-- A unit, one that extends it, and one that has nothing to do with them. -/
def definitions : List (String × Bytes) := [("a.Foo", bare), ("b.Bar", extending), ("c.Baz", bare)]

/-- The definitions make a host, so does an order in which the last one comes first, and so does none in which
the unit comes before the one that it extends. -/
theorem reordering_three : ∃ h, build definitions = .ok h ∧ Reorders definitions h ∧
    (build [("c.Baz", bare), ("a.Foo", bare), ("b.Bar", extending)]).toOption.isSome = true ∧
      (build [("b.Bar", extending), ("c.Baz", bare), ("a.Foo", bare)]).toOption.isSome = false := by
  have haccepted : (build definitions).toOption.isSome = true := by decide +kernel
  cases hbuild : build definitions with
  | error e =>
      rw [hbuild] at haccepted
      cases haccepted
  | ok h => exact ⟨h, rfl, reordering hbuild, by decide +kernel, by decide +kernel⟩

end Three

end HostUnits

end LiveUnits
