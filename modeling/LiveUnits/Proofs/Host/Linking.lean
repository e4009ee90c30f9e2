import LiveUnits.Proofs.Host.Definition
import LiveUnits.Proofs.Linkage.Alike
import LiveUnits.Proofs.Linkage.Failure

/-!
# Linking against the host

The host answers with a unit of the name asked for (`HostUnits.named_resolve`) or does not have the name, and
it never asks for another one.  So linking fails for what is wrong with the bytes, for a name that the host
does not have, or for an export that is missing (`HostUnits.refuses_of_link`), and never for a loop.

What is linked depends only on what the host has under the names that the bytes refer to: a host that has the
same units under these names, but for the handles, makes the same unit (`HostUnits.link_relabel`), and one
that lacks a name does not make it (`HostUnits.error_of_missing`).
-/

namespace LiveUnits

namespace HostUnits

open Attempt Linkage

variable {h g : HostUnits} {n m : Identity} {bytes : Bytes} {u : LinkedUnit} {d : Declared}

/-- The host answers with the unit of the name. -/
theorem named_resolve (h : HostUnits) : Named h.resolve := by
  intro n s u s' hu
  exact name_of_lookup ((h.meets_resolve n s trivial trivial).2.2 u (by rw [hu]))

/-- A name that the host has is resolved to its unit. -/
theorem resolve_of_lookup (hu : h.lookup n.text = some u) (s : PUnit) : h.resolve n s = (.ok u, s) := by
  unfold resolve
  rw [hu]

/-- Any other name is not found. -/
theorem resolve_of_missing (hnone : h.lookup n.text = none) (s : PUnit) :
    h.resolve n s = (.error (.notFound n), s) := by
  unfold resolve
  rw [hnone]

/-- A request fails only because the host does not have the name. -/
theorem missing_of_resolve {s : PUnit} {e : ResolveError} (hfails : (h.resolve n s).1 = .error e) :
    h.lookup n.text = none ∧ e = .notFound n := by
  cases hlookup : h.lookup n.text with
  | some u =>
      rw [resolve_of_lookup hlookup] at hfails
      cases hfails
  | none =>
      rw [resolve_of_missing hlookup] at hfails
      exact ⟨rfl, (Except.error.inj hfails).symm⟩

/-- A request returns nothing but what the host has. -/
theorem lookup_of_resolve {s : PUnit} (hu : (h.resolve n s).1 = .ok u) : h.lookup n.text = some u := by
  cases hlookup : h.lookup n.text with
  | some v =>
      rw [resolve_of_lookup hlookup] at hu
      exact congrArg some (Except.ok.inj hu)
  | none =>
      rw [resolve_of_missing hlookup] at hu
      cases hu

/-! ## What linking fails for -/

/-- Why the host does not link the bytes of a unit. -/
inductive Refuses (h : HostUnits) (n : Identity) (bytes : Bytes) : LinkageError → Prop where
  /-- The bytes cannot be read. -/
  | unreadable {e : LinkageError} (hd : declared n bytes = .error e) : Refuses h n bytes e
  /-- The host does not have the supertype. -/
  | supertype {d : Declared} {m : Identity} (hd : declared n bytes = .ok d)
      (hm : d.metadata.supertype = some m) (hnone : h.lookup m.text = none) :
      Refuses h n bytes (.unresolvedSupertype n m (.notFound m))
  /-- A module that is imported from is no identity. -/
  | notIdentity {d : Declared} {i : Wasm.Import} {e : IdentityError} (hd : declared n bytes = .ok d)
      (hi : i ∈ d.interface.imports) (hparse : Identity.parse i.moduleName = .error e) :
      Refuses h n bytes (.invalidDependency n i.moduleName)
  /-- The host does not have a module that is imported from. -/
  | dependency {d : Declared} {i : Wasm.Import} {m : Identity} (hd : declared n bytes = .ok d)
      (hi : i ∈ d.interface.imports) (hm : m.text = i.moduleName) (hnone : h.lookup m.text = none) :
      Refuses h n bytes (.unresolvedDependency n m (.notFound m))
  /-- The unit of the host exports nothing of the name and kind of an import. -/
  | missing {d : Declared} {i : Wasm.Import} {m : Identity} {v : LinkedUnit} (hd : declared n bytes = .ok d)
      (hi : i ∈ d.interface.imports) (hm : m.text = i.moduleName) (hv : h.lookup m.text = some v)
      (hkind : v.interface.exportKind? i.item ≠ some i.kind) :
      Refuses h n bytes (.missingImport n m i.item i.kind)

/-- **Linking against the host fails for nothing else.** -/
theorem refuses_of_link {e : LinkageError} (hlink : h.link n bytes = .error e) : h.Refuses n bytes e := by
  have hblame {wrap : ResolveError → LinkageError} {k : Identity} :
      blame wrap (.notFound k) = wrap (.notFound k) := blame_of_ne fun _ h => nomatch h
  have hfails : materialise h.resolve (fun _ => ⟨.host, h.units.length⟩) n bytes .host ⟨⟩ = (.error e, ⟨⟩) :=
    Prod.ext hlink rfl
  cases hd : declared n bytes with
  | error e' =>
      rcases error_of_bind hfails with hread | ⟨d, s, hread, -⟩
      · obtain rfl : e' = e := Except.error.inj (hd.symm.trans (lift_eq hread).1)
        exact .unreadable hd
      · cases hd.symm.trans (lift_eq hread).1
  | ok d =>
      cases obstacle_materialise h.named_resolve hd hfails with
      | supertype hm _ hmissing =>
          obtain ⟨hnone, rfl⟩ := missing_of_resolve hmissing
          rw [hblame]
          exact .supertype hd hm hnone
      | notIdentity hi hparse => exact .notIdentity hd hi hparse
      | dependency hi hm _ hmissing =>
          obtain ⟨hnone, rfl⟩ := missing_of_resolve hmissing
          rw [hblame]
          exact .dependency hd hi hm hnone
      | missing hi hm _ hv hkind => exact .missing hd hi hm (lookup_of_resolve hv) hkind

/-- Linking against the host leads into no loop. -/
theorem Refuses.not_loop {e : LinkageError} (hrefuses : h.Refuses n bytes e) (chain : List Identity) :
    e ≠ .loopDetected chain := by
  cases hrefuses with
  | unreadable hd =>
      rcases error_of_declared hd with ⟨reason, rfl⟩ | ⟨fault, rfl⟩
      · exact nofun
      · exact nofun
  | supertype _ _ _ => exact nofun
  | notIdentity _ _ _ => exact nofun
  | dependency _ _ _ _ => exact nofun
  | missing _ _ _ _ _ => exact nofun

/-! ## What is linked -/

/-- What the host links has everything that its bytes declare. -/
theorem fullyLinked_of_link (hu : h.link n bytes = .ok u) :
    u.name = n ∧ ∃ d, declared n bytes = .ok d ∧ FullyLinked d u := by
  obtain ⟨hname, -, hfull⟩ := fullyLinked_materialise h.named_resolve (Prod.ext hu rfl)
  exact ⟨hname, hfull⟩

/-- The host has every name that the bytes of a unit refer to, once it has linked them. -/
theorem exists_of_refersTo (hu : h.link n bytes = .ok u) (hd : declared n bytes = .ok d)
    (hm : d.RefersTo m) : ∃ v ∈ u.references, h.lookup m.text = some v := by
  obtain ⟨-, d', hd', hfull⟩ := fullyLinked_of_link hu
  obtain rfl : d' = d := Except.ok.inj (hd'.symm.trans hd)
  obtain ⟨v, hv, hname⟩ := hfull.exists_reference hm
  obtain ⟨k, hk⟩ := (linked_of_link hu).2.answered v hv
  obtain rfl : k = m := (name_of_lookup hk).symm.trans hname
  exact ⟨v, hv, hk⟩

/-- A reference is what the host has under its name. -/
theorem lookup_of_reference (hu : h.link n bytes = .ok u) {v : LinkedUnit} (hv : v ∈ u.references) :
    h.lookup v.name.text = some v := by
  obtain ⟨k, hk⟩ := (linked_of_link hu).2.answered v hv
  rwa [name_of_lookup hk]

/-- **Hosts that have the same under the names that bytes refer to** link them to the same unit, but for the
handles. -/
theorem link_relabel {f : Handle → Handle} (hu : h.link n bytes = .ok u)
    (hhandle : f ⟨.host, h.units.length⟩ = ⟨.host, g.units.length⟩)
    (hsame : ∀ m v, m ∈ referenced n bytes → h.lookup m.text = some v → g.lookup m.text = some (v.relabel f)) :
    g.link n bytes = .ok (u.relabel f) := by
  have halike : Alike (fun _ _ : PUnit => True) (LinkedUnit.Agrees f id)
      (materialise h.resolve (fun _ => ⟨.host, h.units.length⟩) n bytes .host)
      (materialise g.resolve (fun _ => ⟨.host, g.units.length⟩) n bytes .host) := by
    refine alike_materialise (fun _ _ _ => hhandle) fun m hm s t _ => ⟨trivial, ?_⟩
    obtain ⟨v, -, hv⟩ := (linked_of_link hu).2.complete m hm
    rw [resolve_of_lookup hv, resolve_of_lookup (hsame m v hm hv)]
    exact .ok (LinkedUnit.relabel_id _).symm
  have hagree := (halike ⟨⟩ ⟨⟩ trivial).2
  unfold link at hu ⊢
  rw [hu] at hagree
  generalize (materialise g.resolve (fun _ => ⟨.host, g.units.length⟩) n bytes .host ⟨⟩).1 = outcome at hagree ⊢
  cases hagree with
  | @ok _ w h => rw [h, LinkedUnit.relabel_id]

/-- **A host that lacks a name that bytes refer to** does not link them, and blames a name that it lacks. -/
theorem error_of_missing (hu : h.link n bytes = .ok u) (hd : declared n bytes = .ok d)
    (hsame : ∀ m v w, h.lookup m = some v → g.lookup m = some w → w.interface = v.interface)
    (hm : d.RefersTo m) (hnone : g.lookup m.text = none) : ∃ k : Identity, g.lookup k.text = none ∧
      ((d.metadata.supertype = some k ∧ g.link n bytes = .error (.unresolvedSupertype n k (.notFound k))) ∨
        (∃ i ∈ d.interface.imports, i.moduleName = k.text) ∧
          g.link n bytes = .error (.unresolvedDependency n k (.notFound k))) := by
  obtain ⟨-, d', hd', hfull⟩ := fullyLinked_of_link hu
  obtain rfl : d' = d := Except.ok.inj (hd'.symm.trans hd)
  cases hlink : g.link n bytes with
  | ok u' =>
      obtain ⟨v, -, hv⟩ := exists_of_refersTo hlink hd hm
      cases hv.symm.trans hnone
  | error e =>
      cases refuses_of_link hlink with
      | unreadable hfails => cases hfails.symm.trans hd
      | supertype hd' hk hmissing =>
          obtain rfl := Except.ok.inj (hd'.symm.trans hd)
          exact ⟨_, hmissing, .inl ⟨hk, rfl⟩⟩
      | notIdentity hd' hi hparse =>
          -- the unit has a dependency of that name
          obtain rfl := Except.ok.inj (hd'.symm.trans hd)
          obtain ⟨v, -, hname⟩ := (hfull.modules _).mpr ⟨_, hfull.interface_eq ▸ hi, rfl⟩
          rw [← hname, Identity.parse_text] at hparse
          cases hparse
      | dependency hd' hi hk hmissing =>
          obtain rfl := Except.ok.inj (hd'.symm.trans hd)
          exact ⟨_, hmissing, .inr ⟨⟨_, hi, hk.symm⟩, rfl⟩⟩
      | @missing _ i k w hd' hi hk hw hkind =>
          -- the unit found the export in what the other host has under that name
          obtain rfl := Except.ok.inj (hd'.symm.trans hd)
          obtain ⟨v, hfound, hexport⟩ := hfull.imports i (hfull.interface_eq ▸ hi)
          have hname : v.name.text = i.moduleName := eq_of_beq (List.find?_some hfound :)
          have hv := lookup_of_reference hu (LinkedUnit.mem_references.mpr (.inr (List.mem_of_find?_eq_some hfound)))
          rw [hname] at hv
          rw [hk] at hw
          rw [hsame _ v w hv hw] at hkind
          exact absurd hexport hkind

end HostUnits

end LiveUnits
