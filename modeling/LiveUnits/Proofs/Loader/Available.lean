import Mathlib.Data.List.Forall2
import LiveUnits.Proofs.Loader.Listing

/-!
# The listing of a loader is exact

Containers may list anything: names that no identity has, names twice, names that they do not serve; and
some containers cannot be listed at all.  A loader lists exactly the identities whose artifacts are named
by a container that can be listed, in ascending order, together with the errors of the others
(`exact_available`).

A resource name is turned back into an identity by dropping the extension and putting dots for
separators, which makes an identity of many a name that is no artifact, such as `a.b.wasm`.  The check
that closes `identityOf?`, whether the identity has this artifact, is what keeps such names out
(`resourceName_of_identityOf?`), and no artifact is lost by it (`identityOf?_resourceName`).

Listing is no resolving.  `Loader.converse` is what a loader answers to requests of both kinds, and the
requests for listings may be left out without any change to the other answers, to what is remembered or to
what has been counted.
-/

namespace LiveUnits

namespace Loader

/-! ## Requests of both kinds -/

/-- What can be asked of a loader. -/
inductive Request where
  | resolve (n : Identity)
  | list

/-- What a loader answers. -/
inductive Reply where
  | resolved (outcome : Except ResolveError LinkedUnit)
  | listed (names : List Identity) (errors : List ContainerError)

def Request.isResolve : Request → Bool
  | resolve _ => true
  | list => false

def Reply.isResolved : Reply → Bool
  | resolved _ => true
  | listed _ _ => false

/-- Answers a request. -/
def serve (l : Loader) (r : Registry) : Request → Reply × Registry
  | .resolve n => (.resolved (l.resolve n r).1, (l.resolve n r).2)
  | .list => (.listed l.available.1 l.available.2, r)

/-- Answers requests, one after the other. -/
def converse (l : Loader) : List Request → Registry → List Reply × Registry
  | [], r => ([], r)
  | q :: rest, r =>
    let later := l.converse rest (l.serve r q).2
    ((l.serve r q).1 :: later.1, later.2)

variable {l : Loader}

theorem converse_resolve (n : Identity) (rest : List Request) (r : Registry) :
    l.converse (.resolve n :: rest) r = (.resolved (l.resolve n r).1 :: (l.converse rest (l.resolve n r).2).1,
      (l.converse rest (l.resolve n r).2).2) := rfl

theorem converse_list (rest : List Request) (r : Registry) :
    l.converse (.list :: rest) r =
      (.listed l.available.1 l.available.2 :: (l.converse rest r).1, (l.converse rest r).2) := rfl

/-- Whatever is asked in between, a request for a listing is answered by the same listing. -/
theorem eq_available_of_mem_converse {requests : List Request} {r : Registry} {names : List Identity}
    {errors : List ContainerError} (h : .listed names errors ∈ (l.converse requests r).1) :
    (names, errors) = l.available := by
  induction requests generalizing r with
  | nil => cases h
  | cons q rest ih =>
      rw [converse] at h
      rcases List.mem_cons.mp h with h | h
      · cases q with
        | resolve n => cases h
        | list =>
            obtain ⟨rfl, rfl⟩ := Reply.listed.inj h
            rfl
      · exact ih h

/-- Without the requests for listings, the others are answered alike and the same is remembered. -/
theorem converse_filter (requests : List Request) (r : Registry) :
    l.converse (requests.filter Request.isResolve) r =
      ((l.converse requests r).1.filter Reply.isResolved, (l.converse requests r).2) := by
  induction requests generalizing r with
  | nil => rfl
  | cons q rest ih =>
      cases q with
      | resolve n =>
          have hrest := ih (l.resolve n r).2
          rw [List.filter_cons_of_pos rfl, converse_resolve, converse_resolve, hrest,
            List.filter_cons_of_pos rfl]
      | list =>
          have hrest := ih r
          rw [List.filter_cons_of_neg Bool.false_ne_true, converse_list, hrest,
            List.filter_cons_of_neg Bool.false_ne_true]

/-! ## The listing -/

end Loader

/-- The container cannot be listed. -/
def Container.isUnlisted (c : Container) : Bool :=
  match c.resources with
  | .ok _ => false
  | .error _ => true

namespace Loader

variable {l : Loader}

/-- The errors are those of the containers that cannot be listed, in their order. -/
theorem forall₂_errors (containers : List Container) :
    List.Forall₂ (fun c e => c.resources = .error e) (containers.filter Container.isUnlisted)
      ((containers.map Container.resources).filterMap fun
        | .ok _ => none
        | .error e => some e) := by
  induction containers with
  | nil => exact .nil
  | cons c rest ih =>
      rw [List.map_cons]
      cases hlisting : c.resources with
      | ok names =>
          have hlisted : c.isUnlisted = false := by rw [Container.isUnlisted, hlisting]
          rw [List.filter_cons_of_neg (by simp [hlisted])]
          exact ih
      | error e =>
          have hunlisted : c.isUnlisted = true := by rw [Container.isUnlisted, hlisting]
          rw [List.filter_cons_of_pos hunlisted]
          exact .cons hlisting ih

/-- What the listing of a loader is, and what it is not. -/
structure ListsExactly (l : Loader) : Prop where
  /-- An identity is listed exactly if its artifact is named by a container that can be listed. -/
  listed : ∀ n, n ∈ l.available.1 ↔ ∃ c ∈ l.containers, ∃ names, c.resources = .ok names ∧
    n.resourceName l.artifactExtension ∈ names
  /-- The identities ascend, so that none is listed twice. -/
  ascending : l.available.1.Pairwise fun n m => n.precedes m = true
  /-- There is one error for each container that cannot be listed, in the order of the containers. -/
  errors : List.Forall₂ (fun c e => c.resources = .error e) (l.containers.filter Container.isUnlisted)
    l.available.2
  /-- Nothing but the listings of the containers and the extension is looked at. -/
  alone : ∀ l' : Loader, l'.artifactExtension = l.artifactExtension →
    l'.containers.map Container.resources = l.containers.map Container.resources →
    l'.available = l.available
  /-- The listing is the same at any time. -/
  always : ∀ requests r names errors, .listed names errors ∈ (l.converse requests r).1 →
    (names, errors) = l.available
  /-- The other answers, what is remembered and what is counted are the same without it. -/
  unnoticed : ∀ requests r, l.converse (requests.filter Request.isResolve) r =
    ((l.converse requests r).1.filter Reply.isResolved, (l.converse requests r).2)

/-- **A loader lists exactly the identities whose artifacts its containers name**, and nobody can tell from
its later answers whether it has been listed. -/
theorem exact_available (l : Loader) : l.ListsExactly where
  listed := fun _ => mem_available
  ascending := by
    have hascending : Ascending Identity.text l.available.1 := ascending_sortByKey _
    refine hascending.imp ?_
    intro n m hlt
    rw [Identity.precedes, Identity.compare, hlt]
    rfl
  errors := forall₂_errors l.containers
  alone := by
    intro l' hextension hlistings
    have hidentity : l'.identityOf? = l.identityOf? := by
      funext resource
      unfold identityOf?
      rw [hextension]
    unfold available
    rw [hlistings, hidentity]
  always := fun _ _ _ _ h => eq_available_of_mem_converse h
  unnoticed := converse_filter

end Loader

end LiveUnits
