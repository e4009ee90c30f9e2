import LiveUnits.Proofs.Loader.Precedence
import LiveUnits.Proofs.Loader.Renaming

/-!
# What is added behind does not interfere

More containers behind those of a loader, and more units of the host, are only asked for names that no
container in front has: the names that the loader classifies as unresolvable.  If nothing that was added
has any of these, a request has the same outcome as before, with the same unit or the same error
(`Loader.Extended.resolve_eq`).

The two runs are compared step by step, up to the moment at which a name becomes unresolvable that
something added has.  Whether that moment comes is seen in the end, since registries only grow
(`Loader.grows_resolveAt`).

Whatever is added, the first container that has a name answers every request for it, direct or nested,
also where its bytes cannot be linked (`Loader.answeredBy_history`).
-/

namespace LiveUnits

open Attempt Linkage

namespace Loader

/-! ## Growth -/

/-- Registries that have grown out of one. -/
def growing (r : Registry) : Contract Registry where
  Inv := r.Grows
  Grows _ _ := True
  refl _ := trivial
  trans _ _ := trivial

/-- A resolution only adds to a registry, whatever stands in it. -/
theorem grows_resolveAt (l : Loader) (path : List Identity) (n : Identity) (r : Registry) :
    r.Grows (l.resolveAt path n r).2 := by
  induction path using l.byPath generalizing n r with
  | step path ih =>
  have hresolve : ∀ {n found clock after}, n ∉ path → l.scanFor n clock = (.ok (some found), after) →
      ∀ m, Meets (growing r) (fun _ => True) (l.resolveAt (path ++ [n]) m) fun _ _ => True :=
    fun hn hscan m s hs _ => ⟨hs.trans (ih _ _ _ _ hn hscan m s), trivial, fun _ _ => trivial⟩
  have hcounted : ∀ lookups, (growing r).Inv (r.countScan lookups) := fun _ => .of_eq rfl rfl
  have hstep := l.resolveAt_step path n r
  generalize l.resolveAt path n r = result at hstep ⊢
  cases hstep with
  | registered _ => exact .of_eq rfl rfl
  | delegated _ _ => exact .of_eq rfl rfl
  | loop _ _ => exact .refl r
  | unreadable _ _ _ => exact .of_eq rfl rfl
  | absent _ _ _ => exact ⟨List.suffix_refl _, List.suffix_cons _ _⟩
  | broken _ hn hscan hlink => exact inv_linkFound (hresolve hn hscan) (hcounted _) hlink
  | linked _ hn hscan hlink =>
      have hgrows := inv_linkFound (hresolve hn hscan) (hcounted _) hlink
      exact ⟨hgrows.units.trans (List.suffix_cons _ _), hgrows.unresolvable⟩

/-! ## Loaders with more behind -/

/-- A loader with more containers behind those of another one, and with a host that has the units of the
other host and may have more.  Handles of the one loader become those of the other. -/
structure Extended (f : Handle → Handle) (l l' : Loader) (more : List Container) : Prop where
  containers : l'.containers = l.containers ++ more
  extension : l'.artifactExtension = l.artifactExtension
  /-- The host keeps its units. -/
  host : ∀ name u, l.host.lookup name = some u → l'.host.lookup name = some (u.relabel f)
  /-- Handles that the one loader gives become those that the other one gives. -/
  numbered : ∀ serial, f ⟨.loader l.number, serial⟩ = ⟨.loader l'.number, serial⟩

/-- Something that was added has a name: a container that serves it or fails at it, or the host, which
did not have it before. -/
def Taken (l l' : Loader) (more : List Container) (n : Identity) : Prop :=
  (∃ c ∈ more, c.lookup 0 (n.resourceName l.artifactExtension) ≠ .ok none) ∨
    l.host.lookup n.text = none ∧ l'.host.lookup n.text ≠ none

/-- Nothing that was added has a name that was left to the host. -/
def Clear (l l' : Loader) (more : List Container) (r : Registry) : Prop :=
  ∀ n ∈ r.unresolvable, ¬ Taken l l' more n

/-- The registries are the same up to handles; lookups may have been counted differently. -/
structure Follows (f : Handle → Handle) (r r' : Registry) : Prop where
  units : r'.units = r.units.map (LinkedUnit.relabel f)
  unresolvable : r'.unresolvable = r.unresolvable

/-- A name has the same unit in both registries, but for handles. -/
theorem Follows.unit?_eq {f : Handle → Handle} {r r' : Registry} (h : Follows f r r')
    (name : String) : r'.unit? name = (r.unit? name).map (LinkedUnit.relabel f) := by
  rw [← Registry.unit?_relabel, Registry.unit?, h.units]
  rfl

/-- A name that is open in one registry is open in the other one. -/
theorem Follows.open_of_open {f : Handle → Handle} {r r' : Registry} (h : Follows f r r')
    {n : Identity} (hopen : r.Open n) : r'.Open n := by
  refine ⟨?_, h.unresolvable ▸ hopen.2⟩
  rw [h.unit?_eq, hopen.1]
  rfl

namespace Extended

variable {f : Handle → Handle} {l l' : Loader} {more : List Container} (h : Extended f l l' more)

include h

/-- The next unit gets the corresponding handle. -/
theorem nextHandle_eq {r r' : Registry} (hr : Follows f r r') :
    f (l.nextHandle r) = l'.nextHandle r' := by
  unfold nextHandle
  rw [h.numbered, hr.units, List.length_map]

/-- The host says the same about a name that nothing added has. -/
theorem agree_hostAnswer {n : Identity} (hn : ¬ Taken l l' more n) :
    Agree (LinkedUnit.Agrees f id) (l.hostAnswer n) (l'.hostAnswer n) := by
  rw [agree_iff_relabel]
  unfold hostAnswer
  cases hu : l.host.lookup n.text with
  | some u =>
      rw [h.host _ _ hu]
      rfl
  | none =>
      have hfree : l'.host.lookup n.text = none := by
        by_contra hsome
        exact hn (.inr ⟨hu, hsome⟩)
      rw [hfree]
      rfl

/-- What the containers in front say is what is said, also if they have nothing and nothing added has
the name. -/
theorem exists_scanFor (hsteady : l'.Steady) {n : Identity} {clock lookups : Nat}
    {answer : Except ContainerError (Option Found)} (hscan : l.scanFor n clock = (answer, lookups))
    (hanswer : answer = .ok none → ¬ Taken l l' more n) (clock' : Nat) :
    ∃ lookups', l'.scanFor n clock' = (answer, lookups') := by
  have hsame : (l'.scanFor n clock').1 = (l'.scanFor n clock).1 := scan_steady hsteady clock' clock
  have happend : (l'.scanFor n clock).1 = answer := by
    unfold scanFor at hscan ⊢
    rw [h.extension, h.containers, scan_append, hscan]
    cases answer with
    | error e => rfl
    | ok answer =>
        cases answer with
        | some found => rfl
        | none =>
            refine scan_absent (fun c hc t => ?_) lookups
            rw [hsteady c (h.containers ▸ List.mem_append_right _ hc)]
            by_contra hsome
            exact hanswer rfl (.inl ⟨c, hc, hsome⟩)
  exact ⟨(l'.scanFor n clock').2, Prod.ext (hsame.trans happend) rfl⟩

/-- Bytes that were found are linked alike if the names they refer to are resolved alike. -/
theorem alike_linkFound {path : List Identity} {n : Identity} {found : Found}
    (hresolve : ∀ m, AlikeWhile (Clear l l' more) (Follows f) (LinkedUnit.Agrees f id)
      (l.resolveAt (path ++ [n]) m) (l'.resolveAt (path ++ [n]) m)) :
    AlikeWhile (Clear l l' more) (Follows f) (LinkedUnit.Agrees f id) (l.linkFound path n found)
      (l'.linkFound path n found) := by
  refine alikeWhile_materialise (fun m r hend k hk => ?_) (fun r r' hr => h.nextHandle_eq hr)
    fun m _ => hresolve m
  exact hend k ((l.grows_resolveAt _ m r).unresolvable.subset hk)

/-- Bytes that the one loader finds and links, the other one finds and links alike. -/
theorem exists_linkFound (hsteady : l'.Steady) {path : List Identity} {n : Identity} {found : Found}
    (hresolve : ∀ m, AlikeWhile (Clear l l' more) (Follows f) (LinkedUnit.Agrees f id)
      (l.resolveAt (path ++ [n]) m) (l'.resolveAt (path ++ [n]) m))
    {r r' s : Registry} (hr : Follows f r r') {lookups : Nat}
    (hscan : l.scanFor n r.counters.lookups = (.ok (some found), lookups))
    {outcome : Except LinkageError LinkedUnit}
    (hlink : l.linkFound path n found (r.countScan lookups) = (outcome, s))
    (hend : Clear l l' more s) :
    ∃ lookups' outcome' s', l'.scanFor n r'.counters.lookups = (.ok (some found), lookups') ∧
      l'.linkFound path n found (r'.countScan lookups') = (outcome', s') ∧ Follows f s s' ∧
        Agree (LinkedUnit.Agrees f id) outcome outcome' := by
  obtain ⟨lookups', hscan'⟩ := h.exists_scanFor hsteady hscan nofun r'.counters.lookups
  have hrun := h.alike_linkFound hresolve (r.countScan lookups) (r'.countScan lookups')
    ⟨hr.units, hr.unresolvable⟩ (by rw [hlink]; exact hend)
  rw [hlink] at hrun
  exact ⟨lookups', _, _, hscan', rfl, hrun⟩

/-- **The loaders run alike** as long as no name becomes unresolvable that something added has. -/
theorem alike_resolveAt (hsteady : l'.Steady) (path : List Identity) (n : Identity) :
    AlikeWhile (Clear l l' more) (Follows f) (LinkedUnit.Agrees f id) (l.resolveAt path n)
      (l'.resolveAt path n) := by
  -- a longer path leaves less room for names that may still be linked
  induction path using l.byPath generalizing n with
  | step path ih =>
  intro r r' hr hend
  have hstep := l.resolveAt_step path n r
  generalize l.resolveAt path n r = result at hstep hend ⊢
  cases hstep with
  | registered hu =>
      have hu' := hr.unit?_eq n.text
      rw [hu] at hu'
      rw [resolveAt_eq, hu']
      exact ⟨⟨hr.units, hr.unresolvable⟩, agree_iff_relabel.mpr rfl⟩
  | delegated hfree hn =>
      have hfree' := hr.unit?_eq n.text
      rw [hfree] at hfree'
      rw [resolveAt_eq, hfree', Option.map_none, if_pos (hr.unresolvable ▸ hn)]
      exact ⟨⟨hr.units, hr.unresolvable⟩, h.agree_hostAnswer (hend n hn)⟩
  | loop hopen hn =>
      rw [resolveAt_loop (hr.open_of_open hopen) hn]
      exact ⟨hr, .error _⟩
  | unreadable hopen hn hscan =>
      obtain ⟨lookups', hscan'⟩ := h.exists_scanFor hsteady hscan nofun r'.counters.lookups
      rw [resolveAt_open (hr.open_of_open hopen) hn, hscan']
      exact ⟨⟨hr.units, hr.unresolvable⟩, .error _⟩
  | absent hopen hn hscan =>
      have hfree := hend n List.mem_cons_self
      obtain ⟨lookups', hscan'⟩ := h.exists_scanFor hsteady hscan (fun _ => hfree) r'.counters.lookups
      rw [resolveAt_open (hr.open_of_open hopen) hn, hscan']
      exact ⟨⟨hr.units, congrArg (n :: ·) hr.unresolvable⟩, h.agree_hostAnswer hfree⟩
  | broken hopen hn hscan hlink =>
      obtain ⟨lookups', outcome', s', hscan', hlink', hs, hagree⟩ :=
        h.exists_linkFound hsteady (ih n _ _ _ hn hscan) hr hscan hlink hend
      rw [resolveAt_open (hr.open_of_open hopen) hn, hscan']
      simp only [hlink']
      cases hagree with
      | error => exact ⟨hs, .error _⟩
  | @linked found lookups u s hopen hn hscan hlink =>
      obtain ⟨lookups', outcome', s', hscan', hlink', hs, hagree⟩ :=
        h.exists_linkFound hsteady (ih n _ _ _ hn hscan) hr hscan hlink hend
      rw [resolveAt_open (hr.open_of_open hopen) hn, hscan']
      simp only [hlink']
      cases hagree with
      | @ok _ v huv =>
          obtain rfl : u.relabel f = v := huv.trans v.relabel_id
          exact ⟨⟨congrArg (u.relabel f :: ·) hs.units, hs.unresolvable⟩, .ok huv⟩

/-- A request has the same outcome if nothing that was added has a name that becomes unresolvable. -/
theorem resolve_eq (hsteady : l'.Steady) {n : Identity}
    (hclear : ∀ m : Identity, (l.resolve n {}).2.classification? m.text = some .unresolvable →
      ¬ Taken l l' more m) :
    (l'.resolve n {}).1 = (l.resolve n {}).1.map (LinkedUnit.relabel f) := by
  have hclosed := (closed_resolve l.closed_start n).1
  have hend : Clear l l' more (l.resolve n {}).2 := fun m hm =>
    hclear m ((hclosed.classification?_eq m .unresolvable).mpr hm)
  exact agree_iff_relabel.mp (h.alike_resolveAt hsteady [] n {} {} ⟨rfl, rfl⟩ hend).2

end Extended

/-- A host that keeps its units keeps their handles, so that only the number of the loader is new. -/
theorem extended_swap {l l' : Loader} {more : List Container} (hhost : l.host.Defined)
    (hcontainers : l'.containers = l.containers ++ more)
    (hextension : l'.artifactExtension = l.artifactExtension)
    (hunits : ∀ name u, l.host.lookup name = some u → l'.host.lookup name = some u) :
    Extended (Handle.swap l.number l'.number) l l' more where
  containers := hcontainers
  extension := hextension
  host name u hu := by
    rw [hhost.closed.relabel_swap (HostUnits.mem_of_lookup hu)]
    exact hunits name u hu
  numbered := Handle.swap_loader l.number l'.number

/-! ## No interference -/

/-- What stays as it is when more is added behind. -/
structure Shielded (f : Handle → Handle) (l l' : Loader) (more : List Container) : Prop where
  /-- A request has the same outcome, with the same supertypes and dependencies or with the same error,
  if nothing that was added has a name that becomes unresolvable. -/
  same : ∀ n : Identity, (∀ m : Identity, (l.resolve n {}).2.classification? m.text = some .unresolvable →
    ¬ Taken l l' more m) → (l'.resolve n {}).1 = (l.resolve n {}).1.map (LinkedUnit.relabel f)
  /-- A name that a container has is never answered by a container behind or by the host, at whatever
  depth it is asked for and even if its bytes cannot be linked. -/
  held : ∀ n c answer, l'.First n c answer → ∀ ns path outcome r,
    .answered path n outcome r ∈ l'.history ns {} → AnsweredBy c n answer outcome

/-- **What is added behind does not interfere**, whatever refers to what, if the containers do not change
their answers. -/
theorem Extended.shielded {f : Handle → Handle} {l l' : Loader} {more : List Container}
    (h : Extended f l l' more) (hsteady : l'.Steady) : Shielded f l l' more where
  same _ hclear := h.resolve_eq hsteady hclear
  held _ _ _ hfirst := answeredBy_history hsteady hfirst

/-- Bytes that cannot be linked, in front of a container and a host that have a unit of the name. -/
theorem shielded_memory : ∃ h : HostUnits, h.Defined ∧ (h.lookup "a.Foo").isSome ∧
    let l := overMemory 1 [("a/Foo.wasm", [])] .empty
    let more := (overMemory 1 [("a/Foo.wasm", [0, 0x61, 0x73, 0x6D, 1, 0, 0, 0])] .empty).containers
    let l' : Loader := ⟨2, l.containers ++ more, h, "wasm"⟩
    Extended (Handle.swap 1 2) l l' more ∧ l'.Steady ∧ Shielded (Handle.swap 1 2) l l' more := by
  obtain ⟨h, hdefined, hfound⟩ := HostUnits.exists_defined
  refine ⟨h, hdefined, hfound, ?_⟩
  intro l more l'
  have hcontainers : l'.containers = l.containers ++ more := rfl
  have hextended : Extended (Handle.swap 1 2) l l' more :=
    extended_swap .empty hcontainers rfl fun _ _ hu => by cases hu
  have hsteady : l'.Steady := by
    intro c hc
    rcases List.mem_append.mp hc with hc | hc
    · exact steady_overMemory _ _ _ c hc
    · exact steady_overMemory _ _ _ c hc
  exact ⟨hextended, hsteady, hextended.shielded hsteady⟩

end Loader

end LiveUnits
