import Mathlib.Algebra.Order.BigOperators.Group.List
import LiveUnits.Proofs.Loader.Loops
import LiveUnits.Proofs.Loader.Scans

/-!
# What the counters say

A loader counts hits, scans, lookups and names left to the host as it goes along, at different moments of a
request: some before a step that may fail, some after it.  Every request, direct or nested, comes to one
`Loader.Deed`: a hit, a loop, or a scan of so many containers that ends in one of four ways.  A table says
what a deed adds to each account of a registry (`Loader.Deed.adds`), and the balance after a request is the
balance before it and what the deeds of all its requests add (`Loader.balance_resolveAt`).  This holds
whatever stands in the registry, and whether the request succeeds or not.

Read off account by account, this ties the counters to the classifications and to the number of requests
(`Loader.balanced_visit`).  The containers may change their answers and fail as they like.  One that breaks
down while it is asked ends the session (`Session.broken`), and its counters are not shown any more.
-/

namespace LiveUnits

open Attempt Linkage

/-! ## Scans -/

/-- What a container replies when it is asked for a resource. -/
abbrev Container.Reply := Except ContainerError (Option Bytes)

/-- Whether a reply ends a scan: it brings bytes, or the container cannot be read. -/
def Container.Reply.ends : Container.Reply → Bool
  | .ok none => false
  | _ => true

/-- What containers reply if they are asked one after the other, after a number of earlier lookups, and none
of them ends the scan. -/
def replies (resource : String) (cs : List Container) (clock : Nat) : List Container.Reply :=
  cs.mapIdx fun i c => c.lookup (clock + i) resource

/-- The position of the first reply that ends a scan, counted from one, or the number of all replies if none
does. -/
def lastAsked (rs : List Container.Reply) : Nat := min (rs.findIdx Container.Reply.ends + 1) rs.length

theorem replies_cons (resource : String) (c : Container) (rest : List Container) (clock : Nat) :
    replies resource (c :: rest) clock =
      c.lookup clock resource :: replies resource rest (clock + 1) := by
  unfold replies
  rw [List.mapIdx_cons]
  simp only [Nat.add_zero, Nat.add_assoc, Nat.add_comm 1]

/-- No container is asked after the one whose reply ends the scan. -/
theorem lastAsked_cons (reply : Container.Reply) (rest : List Container.Reply) :
    lastAsked (reply :: rest) = if reply.ends then 1 else lastAsked rest + 1 := by
  unfold lastAsked
  rw [List.findIdx_cons, List.length_cons]
  cases reply.ends <;> simp

theorem lastAsked_le (rs : List Container.Reply) : lastAsked rs ≤ rs.length := Nat.min_le_right _ _

theorem lastAsked_pos {rs : List Container.Reply} (h : rs ≠ []) : 1 ≤ lastAsked rs :=
  Nat.le_min.mpr ⟨Nat.le_add_left _ _, List.length_pos_iff.mpr h⟩

/-- A scan asks the containers up to the first reply that ends it, and has the outcome of that reply. -/
theorem scan_replies (resource : String) (cs : List Container) (clock : Nat) :
    (scan resource cs clock).2 = clock + lastAsked (replies resource cs clock) ∧
      (scan resource cs clock).1.map (Option.map Found.bytes) =
        ((replies resource cs clock).find? Container.Reply.ends).getD (.ok none) := by
  induction cs generalizing clock with
  | nil => exact ⟨rfl, rfl⟩
  | cons c rest ih =>
      obtain ⟨hlookups, hreply⟩ := ih (clock + 1)
      unfold scan
      rw [replies_cons, lastAsked_cons, List.find?_cons]
      cases c.lookup clock resource with
      | error e => exact ⟨rfl, rfl⟩
      | ok found =>
          cases found with
          | some bytes => exact ⟨rfl, rfl⟩
          | none =>
              refine ⟨?_, hreply⟩
              rw [hlookups, Container.Reply.ends, if_neg Bool.false_ne_true]
              omega

/-! ## Accounts -/

/-- What is kept count of in a registry. -/
inductive Account where
  | hits
  | scans
  | lookups
  | fallbacks
  /-- The registered units. -/
  | units
  /-- The unresolvable names. -/
  | unresolvable

def Registry.balance (r : Registry) : Account → Nat
  | .hits => r.counters.hits
  | .scans => r.counters.scans
  | .lookups => r.counters.lookups
  | .fallbacks => r.counters.fallbacks
  | .units => r.units.length
  | .unresolvable => r.unresolvable.length

namespace Loader

/-- How a scan ends. -/
inductive ScanEnd where
  /-- No container has the name. -/
  | absent
  /-- A container cannot be read. -/
  | unreadable
  /-- The bytes that a container has cannot be linked. -/
  | broken
  /-- The bytes that a container has are linked. -/
  | linked
  deriving DecidableEq

/-- What a request comes to. -/
inductive Deed where
  /-- The answer of a classification. -/
  | hit
  /-- The name is being linked. -/
  | loop
  /-- The containers are asked, the first `lookups` of them. -/
  | scan (lookups : Nat) (ending : ScanEnd)
  deriving DecidableEq

/-- What a deed adds to an account. -/
def Deed.adds : Deed → Account → Nat
  | .hit, .hits => 1
  | .scan _ _, .scans => 1
  | .scan lookups _, .lookups => lookups
  | .scan _ .absent, .fallbacks => 1
  | .scan _ .absent, .unresolvable => 1
  | .scan _ .linked, .units => 1
  | _, _ => 0

/-- How many containers a deed asks, if it is a scan. -/
def Deed.lookups? : Deed → Option Nat
  | .scan lookups _ => some lookups
  | _ => none

/-- Whether a deed is a scan that classifies nothing: a container could not be read, or the bytes could not be
linked. -/
def Deed.failed : Deed → Bool
  | .scan _ .unreadable => true
  | .scan _ .broken => true
  | _ => false

/-- What the containers reply to a call if it scans them. -/
def repliesTo (l : Loader) (c : Call) : List Container.Reply :=
  replies (c.name.resourceName l.artifactExtension) l.containers c.registry.counters.lookups

/-- How the scan of a call ends: by the reply that ends it, and by the answer where there are bytes. -/
def scanEnd (l : Loader) (c : Call) : ScanEnd :=
  match (l.repliesTo c).find? Container.Reply.ends with
  | none => .absent
  | some (.error _) => .unreadable
  | some (.ok _) =>
    match (l.answer c).1 with
    | .error _ => .broken
    | .ok _ => .linked

/-- What a call comes to. -/
def deed (l : Loader) (c : Call) : Deed :=
  if ¬ c.registry.Open c.name then .hit
  else if c.name ∈ c.path then .loop
  else .scan (lastAsked (l.repliesTo c)) (l.scanEnd c)

/-- The call that is made at a moment, if one is. -/
def Event.call? : Event → Option Call
  | .asked path n r => some ⟨path, n, r⟩
  | .answered _ _ _ _ => none

/-- All the calls that a request leads to, itself the first. -/
def calls (l : Loader) (path : List Identity) (n : Identity) (r : Registry) : List Call :=
  (l.events path n r).filterMap Event.call?

/-- What calls add to an account together. -/
def spent (l : Loader) (a : Account) (cs : List Call) : Nat := (cs.map fun c => (l.deed c).adds a).sum

variable {l : Loader} {path : List Identity} {n : Identity} {r : Registry}

/-! ## The deeds of calls -/

/-- A request for a classified name is a hit. -/
theorem deed_hit {c : Call} (h : ¬ c.registry.Open c.name) : l.deed c = .hit := if_pos h

/-- A request for an open name that is being linked is a loop. -/
theorem deed_loop {c : Call} (hopen : c.registry.Open c.name) (hn : c.name ∈ c.path) :
    l.deed c = .loop := by
  unfold deed
  rw [if_neg (not_not_intro hopen), if_pos hn]

/-- A request for any other open name is a scan, as long as the containers are asked. -/
theorem deed_scan {c : Call} (hopen : c.registry.Open c.name) (hn : c.name ∉ c.path) :
    l.deed c = .scan (lastAsked (l.repliesTo c)) (l.scanEnd c) := by
  unfold deed
  rw [if_neg (not_not_intro hopen), if_neg hn]

/-- How many lookups have been made after the scan of a call. -/
theorem lookups_of_scanFor {c : Call} {outcome : Except ContainerError (Option Found)} {lookups : Nat}
    (h : l.scanFor c.name c.registry.counters.lookups = (outcome, lookups)) :
    lookups = c.registry.counters.lookups + lastAsked (l.repliesTo c) ∧
      outcome.map (Option.map Found.bytes) =
        ((l.repliesTo c).find? Container.Reply.ends).getD (.ok none) := by
  have hscan := scan_replies (c.name.resourceName l.artifactExtension) l.containers
    c.registry.counters.lookups
  rw [show scan _ _ _ = _ from h] at hscan
  exact hscan

/-- A scan ends at a container that fails. -/
theorem scanEnd_unreadable {c : Call} {e : ContainerError} {lookups : Nat}
    (h : l.scanFor c.name c.registry.counters.lookups = (.error e, lookups)) :
    l.scanEnd c = .unreadable := by
  have hreply := (lookups_of_scanFor h).2
  unfold scanEnd
  cases hend : (l.repliesTo c).find? Container.Reply.ends with
  | none => rw [hend] at hreply; cases hreply
  | some reply =>
      rw [hend] at hreply
      obtain rfl : Except.error e = reply := hreply
      rfl

/-- A scan ends without finding anything. -/
theorem scanEnd_absent {c : Call} {lookups : Nat}
    (h : l.scanFor c.name c.registry.counters.lookups = (.ok none, lookups)) :
    l.scanEnd c = .absent := by
  have hreply := (lookups_of_scanFor h).2
  unfold scanEnd
  cases hend : (l.repliesTo c).find? Container.Reply.ends with
  | none => rfl
  | some reply =>
      rw [hend] at hreply
      obtain rfl : Except.ok none = reply := hreply
      cases List.find?_some hend

/-- A scan finds bytes, which can be linked or not. -/
theorem scanEnd_found {c : Call} {found : Found} {lookups : Nat}
    (h : l.scanFor c.name c.registry.counters.lookups = (.ok (some found), lookups)) :
    l.scanEnd c = match (l.answer c).1 with
      | .error _ => .broken
      | .ok _ => .linked := by
  have hreply := (lookups_of_scanFor h).2
  unfold scanEnd
  cases hend : (l.repliesTo c).find? Container.Reply.ends with
  | none => rw [hend] at hreply; cases hreply
  | some reply =>
      rw [hend] at hreply
      obtain rfl : Except.ok (some found.bytes) = reply := hreply
      rfl

/-! ## The calls of a request -/

/-- Where bytes are found, the calls for linking them follow that of the request. -/
theorem calls_found {found : Found} {lookups : Nat} (hopen : r.Open n) (hn : n ∉ path)
    (hscan : l.scanFor n r.counters.lookups = (.ok (some found), lookups)) :
    l.calls path n r = ⟨path, n, r⟩ :: (l.nested path n found (r.countScan lookups)).flatMap fun p =>
      l.calls (path ++ [n]) p.1 p.2 := by
  have hself : Event.call? (.asked path n r) = some ⟨path, n, r⟩ := rfl
  unfold calls
  rw [events_found hopen hn hscan, List.filterMap_cons_some hself, List.filterMap_append,
    List.filterMap_flatMap]
  simp [Event.call?]

/-- Otherwise the call of the request is the only one. -/
theorem calls_alone (h : ∀ found lookups, r.Open n → n ∉ path →
      l.scanFor n r.counters.lookups ≠ (.ok (some found), lookups)) :
    l.calls path n r = [⟨path, n, r⟩] := by
  unfold calls
  rw [events_alone h]
  rfl

/-! ## Balances -/

theorem spent_cons (l : Loader) (a : Account) (c : Call) (cs : List Call) :
    l.spent a (c :: cs) = (l.deed c).adds a + l.spent a cs := by
  unfold spent
  rw [List.map_cons, List.sum_cons]

theorem spent_append (l : Loader) (a : Account) (cs cs' : List Call) :
    l.spent a (cs ++ cs') = l.spent a cs + l.spent a cs' := by
  unfold spent
  rw [List.map_append, List.sum_append]

theorem spent_singleton (l : Loader) (a : Account) (c : Call) : l.spent a [c] = (l.deed c).adds a :=
  List.sum_singleton

/-- A hit is added to the hits alone. -/
theorem balance_countHit (r : Registry) (a : Account) :
    r.countHit.balance a = r.balance a + Deed.hit.adds a := by
  cases a <;> rfl

/-- A scan is counted before anything is done with what it found. -/
theorem balance_countScan {c : Call} {outcome : Except ContainerError (Option Found)} {lookups : Nat}
    (hscan : l.scanFor c.name c.registry.counters.lookups = (outcome, lookups)) (ending : ScanEnd)
    (h : (Deed.scan (lastAsked (l.repliesTo c)) ending).failed = true) (a : Account) :
    (c.registry.countScan lookups).balance a =
      c.registry.balance a + (Deed.scan (lastAsked (l.repliesTo c)) ending).adds a := by
  obtain ⟨rfl, -⟩ := lookups_of_scanFor hscan
  cases ending with
  | absent => cases h
  | linked => cases h
  | unreadable => cases a <;> rfl
  | broken => cases a <;> rfl

/-- A name that no container has adds a scan with its lookups, and an unresolvable name. -/
theorem balance_delegate {c : Call} {outcome : Except ContainerError (Option Found)} {lookups : Nat}
    (hscan : l.scanFor c.name c.registry.counters.lookups = (outcome, lookups)) (a : Account) :
    ((c.registry.countScan lookups).delegate c.name).balance a =
      c.registry.balance a + (Deed.scan (lastAsked (l.repliesTo c)) .absent).adds a := by
  obtain ⟨rfl, -⟩ := lookups_of_scanFor hscan
  cases a <;> rfl

/-- A unit is registered after the scan for it has been counted. -/
theorem balance_register (r : Registry) (u : LinkedUnit) (k : Nat) (a : Account) :
    (r.register u).balance a + (Deed.scan k .broken).adds a =
      r.balance a + (Deed.scan k .linked).adds a := by
  cases a <;> rfl

/-- Requests one after the other, up to the first that fails. -/
theorem balance_requests (l : Loader) (a : Account) {path : List Identity}
    (hone : ∀ n r, (l.resolveAt path n r).2.balance a = r.balance a + l.spent a (l.calls path n r))
    (names : List Identity) (r : Registry) :
    (stateAfter (fun m => l.resolveAt path m) names r).balance a = r.balance a +
      l.spent a ((requests (fun m => l.resolveAt path m) names r).flatMap
        fun p => l.calls path p.1 p.2) := by
  induction names generalizing r with
  | nil => rfl
  | cons n rest ih =>
      have hn := hone n r
      unfold requests stateAfter
      cases hstep : l.resolveAt path n r with
      | mk outcome r' =>
          rw [hstep] at hn
          rw [List.flatMap_cons, spent_append, ← Nat.add_assoc, ← hn]
          cases outcome with
          | error e => rfl
          | ok u => exact ih r'

/-- The requests for linking the bytes found for a name. -/
theorem balance_linkFound (l : Loader) (a : Account) {path : List Identity} {n : Identity} (found : Found)
    (hone : ∀ m r, (l.resolveAt (path ++ [n]) m r).2.balance a =
      r.balance a + l.spent a (l.calls (path ++ [n]) m r)) (r : Registry) :
    (l.linkFound path n found r).2.balance a = r.balance a +
      l.spent a ((l.nested path n found r).flatMap fun p => l.calls (path ++ [n]) p.1 p.2) := by
  have hall := l.balance_requests a hone (referenced n found.bytes) r
  rw [← state_materialise _ l.nextHandle n found.bytes (.container found.root) r] at hall
  rw [nested, asked_eq]
  exact hall

/-- **Every deed is accounted for**: the balance after a request is that before it and what all its calls
add. -/
theorem balance_resolveAt (l : Loader) (a : Account) (path : List Identity) (n : Identity)
    (r : Registry) :
    (l.resolveAt path n r).2.balance a = r.balance a + l.spent a (l.calls path n r) := by
  induction path using l.byPath generalizing n r with
  | step path ih =>
  have hstep := l.resolveAt_step path n r
  generalize hresult : l.resolveAt path n r = result at hstep ⊢
  have hanswer : l.answer ⟨path, n, r⟩ = result := hresult
  cases hstep with
  | registered hu =>
      have hknown : ¬ r.Open n := fun h => by rw [h.1] at hu; cases hu
      rw [calls_alone fun _ _ hopen => absurd hopen hknown, spent_singleton, deed_hit hknown]
      exact balance_countHit r a
  | delegated _ hn =>
      have hknown : ¬ r.Open n := fun h => h.2 hn
      rw [calls_alone fun _ _ hopen => absurd hopen hknown, spent_singleton, deed_hit hknown]
      exact balance_countHit r a
  | loop hopen hn =>
      rw [calls_alone fun _ _ _ hn' => absurd hn hn', spent_singleton, deed_loop hopen hn]
      cases a <;> rfl
  | unreadable hopen hn hscan =>
      rw [calls_alone fun _ _ _ _ h => (by rw [hscan] at h; cases h), spent_singleton,
        deed_scan hopen hn, scanEnd_unreadable (c := ⟨path, n, r⟩) hscan]
      exact balance_countScan (c := ⟨path, n, r⟩) hscan .unreadable rfl a
  | absent hopen hn hscan =>
      rw [calls_alone fun _ _ _ _ h => (by rw [hscan] at h; cases h), spent_singleton,
        deed_scan hopen hn, scanEnd_absent (c := ⟨path, n, r⟩) hscan]
      exact balance_delegate (c := ⟨path, n, r⟩) hscan a
  | @broken found lookups e r' hopen hn hscan hlink =>
      have hcounted := balance_countScan (c := ⟨path, n, r⟩) hscan .broken rfl a
      have hnested := l.balance_linkFound a found (ih n found _ _ hn hscan) (r.countScan lookups)
      rw [hlink] at hnested
      rw [calls_found hopen hn hscan, spent_cons, deed_scan hopen hn,
        scanEnd_found (c := ⟨path, n, r⟩) hscan, hanswer, ← Nat.add_assoc, ← hcounted]
      exact hnested
  | @linked found lookups u r' hopen hn hscan hlink =>
      have hcounted := balance_countScan (c := ⟨path, n, r⟩) hscan .broken rfl a
      have hnested := l.balance_linkFound a found (ih n found _ _ hn hscan) (r.countScan lookups)
      have hregistered := balance_register r' u (lastAsked (l.repliesTo ⟨path, n, r⟩)) a
      rw [hlink] at hnested
      rw [calls_found hopen hn hscan, spent_cons, deed_scan hopen hn,
        scanEnd_found (c := ⟨path, n, r⟩) hscan, hanswer]
      simp only at hnested hcounted hregistered ⊢
      omega

/-- Requests from outside, one after the other. -/
theorem balance_visit (l : Loader) (a : Account) (ns : List Identity) (r : Registry) :
    (l.visit ns r).balance a =
      r.balance a + l.spent a ((l.history ns r).filterMap Event.call?) := by
  induction ns generalizing r with
  | nil => rfl
  | cons n rest ih =>
      have hfirst : (l.resolve n r).2.balance a = r.balance a + l.spent a (l.calls [] n r) :=
        l.balance_resolveAt a [] n r
      rw [history, List.filterMap_append, spent_append, ← Nat.add_assoc]
      exact (ih (l.resolve n r).2).trans (congrArg (· + _) hfirst)

/-! ## Between accounts -/

/-- A scan classifies its name or fails. -/
theorem Deed.adds_scans (d : Deed) :
    d.adds .scans = d.adds .units + d.adds .unresolvable + if d.failed then 1 else 0 := by
  rcases d with _ | _ | ⟨_, _ | _ | _ | _⟩ <;> rfl

/-- A deed is a hit, a loop or a scan. -/
theorem Deed.adds_hits (d : Deed) :
    d.adds .hits + d.adds .scans + (if d = .loop then 1 else 0) = 1 := by
  rcases d with _ | _ | _ <;> rfl

/-- **Every scan ends in a unit, an unresolvable name or a failure.** -/
theorem spent_scans (l : Loader) (cs : List Call) :
    l.spent .scans cs = l.spent .units cs + l.spent .unresolvable cs +
      cs.countP fun c => (l.deed c).failed := by
  induction cs with
  | nil => rfl
  | cons c rest ih =>
      have hfirst := (l.deed c).adds_scans
      rw [spent_cons, spent_cons, spent_cons, List.countP_cons, ih, hfirst]
      omega

/-- **Every call is a hit, a scan or a loop.** -/
theorem spent_hits (l : Loader) (cs : List Call) :
    l.spent .hits cs + l.spent .scans cs + cs.countP (fun c => l.deed c = .loop) = cs.length := by
  induction cs with
  | nil => rfl
  | cons c rest ih =>
      have hfirst := (l.deed c).adds_hits
      simp only [spent_cons, List.countP_cons, List.length_cons, decide_eq_true_eq]
      omega

/-- A name is left to the host when it is found to be in no container. -/
theorem spent_fallbacks (l : Loader) (cs : List Call) :
    l.spent .fallbacks cs = l.spent .unresolvable cs := by
  have hsame : ∀ d : Deed, d.adds .fallbacks = d.adds .unresolvable := by
    rintro (_ | _ | ⟨_, _ | _ | _ | _⟩) <;> rfl
  unfold spent
  simp only [hsame]

/-- **Lookups are made by scans**, as many as each of them needs. -/
theorem spent_lookups (l : Loader) (cs : List Call) :
    l.spent .lookups cs = (cs.filterMap fun c => (l.deed c).lookups?).sum ∧
      l.spent .scans cs = (cs.filterMap fun c => (l.deed c).lookups?).length := by
  induction cs with
  | nil => exact ⟨rfl, rfl⟩
  | cons c rest ih =>
      rw [spent_cons, spent_cons, ih.1, ih.2]
      cases hdeed : l.deed c <;> simp [hdeed, Deed.adds, Deed.lookups?, Nat.add_comm]

/-- A scan asks at least one container, if there are any, and each at most once. -/
theorem lookups?_bounds {c : Call} {k : Nat} (h : (l.deed c).lookups? = some k) :
    (l.containers ≠ [] → 1 ≤ k) ∧ k ≤ l.containers.length := by
  have hlength : (l.repliesTo c).length = l.containers.length := List.length_mapIdx
  unfold deed at h
  split at h
  · cases h
  · split at h
    · cases h
    · obtain rfl := Option.some.inj h
      refine ⟨fun hsome => lastAsked_pos fun hnone => hsome ?_, hlength ▸ lastAsked_le _⟩
      rw [← List.length_eq_zero_iff, ← hlength, hnone]
      rfl

/-! ## What deeds mean -/

/-- A loop is reported with a chain that begins with the path and the name that was requested. -/
theorem prefix_of_loop {chain : List Identity}
    (h : (l.resolveAt path n r).1 = .error (.linkage (.loopDetected chain))) :
    path ++ [n] <+: chain := by
  induction path using l.byPath generalizing n r with
  | step path ih =>
  have hstep := l.resolveAt_step path n r
  generalize l.resolveAt path n r = result at hstep h
  cases hstep with
  | registered _ => cases h
  | delegated _ _ => cases error_of_hostAnswer h
  | loop _ _ =>
      cases h
      exact List.prefix_refl _
  | unreadable _ _ _ => cases h
  | absent _ _ _ => cases error_of_hostAnswer h
  | @broken found lookups e r' _ hn hscan hlink =>
      obtain rfl := ResolveError.linkage.inj (Except.error.inj h)
      rcases blamed_or_uncaused (l.named_resolveAt (path ++ [n])) hlink with
        ⟨p, -, cause, hfails, hblamed⟩ | ⟨-, hne⟩
      · rw [hblamed.eq_of_loop] at hfails
        exact (List.prefix_append _ _).trans (ih n found _ _ hn hscan hfails)
      · exact absurd rfl (hne chain)
  | linked _ _ _ _ => cases h

/-- **A loop is detected exactly where it is reported with the path of the request itself.**  A report that
comes from a request further down has a longer chain. -/
theorem deed_eq_loop_iff (l : Loader) (c : Call) :
    l.deed c = .loop ↔
      (l.answer c).1 = .error (.linkage (.loopDetected (c.path ++ [c.name]))) := by
  constructor
  · intro h
    unfold deed at h
    split at h
    · cases h
    · next hopen =>
      split at h
      · next hn => rw [answer, resolveAt_loop (not_not.mp hopen) hn]
      · cases h
  · intro h
    obtain ⟨path, n, r⟩ := c
    have hstep := l.resolveAt_step path n r
    change (l.resolveAt path n r).1 = _ at h
    generalize l.resolveAt path n r = result at hstep h
    cases hstep with
    | registered _ => cases h
    | delegated _ _ => cases error_of_hostAnswer h
    | loop hopen hn => exact deed_loop hopen hn
    | unreadable _ _ _ => cases h
    | absent _ _ _ => cases error_of_hostAnswer h
    | @broken found lookups e r' _ hn hscan hlink =>
        obtain rfl := ResolveError.linkage.inj (Except.error.inj h)
        rcases blamed_or_uncaused (l.named_resolveAt (path ++ [n])) hlink with
          ⟨p, -, cause, hfails, hblamed⟩ | ⟨-, hne⟩
        · rw [hblamed.eq_of_loop] at hfails
          have hlonger := (prefix_of_loop hfails).length_le
          simp at hlonger
        · exact absurd rfl (hne _)
    | linked _ _ _ _ => cases h

/-- A scan has failed exactly where a request ends in an error other than that nothing has the name, and has
not detected a loop itself. -/
theorem failed_iff (l : Loader) (c : Call) :
    (l.deed c).failed = true ↔
      l.deed c ≠ .loop ∧ ∃ e, (l.answer c).1 = .error e ∧ e ≠ .notFound c.name := by
  obtain ⟨path, n, r⟩ := c
  have hstep := l.resolveAt_step path n r
  have hanswer : l.answer ⟨path, n, r⟩ = l.resolveAt path n r := rfl
  generalize l.resolveAt path n r = result at hstep hanswer
  cases hstep with
  | registered hu =>
      rw [hanswer, deed_hit fun h => by rw [h.1] at hu; cases hu]
      simp [Deed.failed]
  | delegated _ hn =>
      rw [hanswer, deed_hit fun h => h.2 hn]
      exact ⟨nofun, fun ⟨_, e, he, hne⟩ => absurd (error_of_hostAnswer he) hne⟩
  | loop hopen hn =>
      rw [deed_loop hopen hn]
      exact ⟨nofun, fun h => absurd rfl h.1⟩
  | unreadable hopen hn hscan =>
      rw [hanswer, deed_scan hopen hn, scanEnd_unreadable (c := ⟨path, n, r⟩) hscan]
      exact ⟨fun _ => ⟨nofun, _, rfl, nofun⟩, fun _ => rfl⟩
  | absent hopen hn hscan =>
      rw [hanswer, deed_scan hopen hn, scanEnd_absent (c := ⟨path, n, r⟩) hscan]
      exact ⟨nofun, fun ⟨_, e, he, hne⟩ => absurd (error_of_hostAnswer he) hne⟩
  | broken hopen hn hscan hlink =>
      rw [deed_scan hopen hn, scanEnd_found (c := ⟨path, n, r⟩) hscan, hanswer]
      exact ⟨fun _ => ⟨nofun, _, rfl, nofun⟩, fun _ => rfl⟩
  | linked hopen hn hscan hlink =>
      rw [deed_scan hopen hn, scanEnd_found (c := ⟨path, n, r⟩) hscan, hanswer]
      exact ⟨nofun, fun ⟨_, e, he, _⟩ => nomatch he⟩

/-! ## Classified names -/

/-- No name is left to the host twice. -/
def distinct : Contract Registry where
  Inv r := r.unresolvable.Nodup
  Grows _ _ := True
  refl _ := trivial
  trans _ _ := trivial

/-- No name becomes unresolvable twice. -/
theorem nodup_resolveAt (l : Loader) (path : List Identity) (n : Identity) {r : Registry}
    (h : r.unresolvable.Nodup) : (l.resolveAt path n r).2.unresolvable.Nodup := by
  induction path using l.byPath generalizing n r with
  | step path ih =>
  have hresolve : ∀ {n found clock after}, n ∉ path → l.scanFor n clock = (.ok (some found), after) →
      ∀ m, Meets distinct (fun _ => True) (l.resolveAt (path ++ [n]) m) fun _ _ => True :=
    fun hn hscan m s hs _ => ⟨ih _ _ _ _ hn hscan m hs, trivial, fun _ _ => trivial⟩
  have hstep := l.resolveAt_step path n r
  generalize l.resolveAt path n r = result at hstep ⊢
  cases hstep with
  | registered _ => exact h
  | delegated _ _ => exact h
  | loop _ _ => exact h
  | unreadable _ _ _ => exact h
  | absent hopen _ _ => exact List.nodup_cons.mpr ⟨hopen.2, h⟩
  | @broken found lookups e r' _ hn hscan hlink =>
      exact inv_linkFound (r := r.countScan lookups) (hresolve hn hscan) h hlink
  | @linked found lookups u r' _ hn hscan hlink =>
      have hlinked : distinct.Inv r' :=
        inv_linkFound (r := r.countScan lookups) (hresolve hn hscan) h hlink
      exact hlinked

/-- Nor does it over many requests. -/
theorem nodup_visit (l : Loader) (ns : List Identity) {r : Registry} (h : r.unresolvable.Nodup) :
    (l.visit ns r).unresolvable.Nodup := by
  induction ns generalizing r with
  | nil => exact h
  | cons n rest ih => exact ih (l.nodup_resolveAt [] n h)

end Loader

/-- The names that a registry has classified in a way. -/
def Registry.classified (r : Registry) (kind : Classification) : Set Identity :=
  {n | r.classification? n.text = some kind}

namespace Loader

/-- The resolved names are those of the registered units. -/
theorem Closed.classified_resolved {l : Loader} {r : Registry} (h : l.Closed r) :
    r.classified .resolved = {n | n ∈ r.units.map (·.name)} := by
  ext n
  refine (h.classification?_eq n .resolved).trans ⟨?_, fun hn => ?_⟩
  · rintro ⟨u, hu⟩
    exact List.mem_map.mpr ⟨u, Registry.mem_of_unit? hu, Registry.name_of_unit? hu⟩
  · obtain ⟨u, hu, rfl⟩ := List.mem_map.mp hn
    exact ⟨u, h.unit?_name hu⟩

/-- The names that are classified as unresolvable are those that the registry keeps as such. -/
theorem Closed.classified_unresolvable {l : Loader} {r : Registry} (h : l.Closed r) :
    r.classified .unresolvable = {n | n ∈ r.unresolvable} := by
  ext n
  exact h.classification?_eq n .unresolvable

/-- The elements of a list in which nothing is repeated are as many as the list is long. -/
theorem ncard_of_nodup {xs : List Identity} (h : xs.Nodup) : {n | n ∈ xs}.ncard = xs.length := by
  rw [← List.coe_toFinset, Set.ncard_coe_finset, List.toFinset_card_of_nodup h]

/-! ## All requests -/

/-- The calls that requests from outside lead to, direct and nested. -/
def requested (l : Loader) (ns : List Identity) : List Call := (l.history ns {}).filterMap Event.call?

/-- What the counters say about the work that the requests for `ns` have taken. -/
structure Balanced (l : Loader) (ns : List Identity) : Prop where
  /-- Only finitely many names are classified. -/
  finite : ∀ kind, ((l.visit ns {}).classified kind).Finite
  /-- The names that were left to the host are the unresolvable ones. -/
  fallbacks : (l.visit ns {}).counters.fallbacks = ((l.visit ns {}).classified .unresolvable).ncard
  /-- Every scan has classified a name, each of them once, or it has failed. -/
  scans : (l.visit ns {}).counters.scans =
    ((l.visit ns {}).classified .resolved).ncard + ((l.visit ns {}).classified .unresolvable).ncard +
      (l.requested ns).countP fun c => (l.deed c).failed
  /-- The requests are the hits, the scans and the detected loops. -/
  requests : (l.visit ns {}).counters.hits + (l.visit ns {}).counters.scans +
    (l.requested ns).countP (fun c => l.deed c = .loop) = (l.requested ns).length
  /-- The lookups are those of the scans, up to the container that answered or failed. -/
  lookups : (l.visit ns {}).counters.lookups =
    ((l.requested ns).filterMap fun c => (l.deed c).lookups?).sum
  /-- All the scans are counted in this. -/
  counted : (l.visit ns {}).counters.scans =
    ((l.requested ns).filterMap fun c => (l.deed c).lookups?).length
  /-- A scan takes at least one lookup if there are any containers. -/
  least : l.containers ≠ [] → (l.visit ns {}).counters.scans ≤ (l.visit ns {}).counters.lookups
  /-- A scan takes no more lookups than there are containers. -/
  most : (l.visit ns {}).counters.lookups ≤ l.containers.length * (l.visit ns {}).counters.scans
  /-- A detected loop is one that is reported with the path of the request. -/
  loops : ∀ c ∈ l.requested ns, l.deed c = .loop ↔
    (l.answer c).1 = .error (.linkage (.loopDetected (c.path ++ [c.name])))
  /-- A failed scan shows in the answer, in every other error than that nothing has the name. -/
  failures : ∀ c ∈ l.requested ns, (l.deed c).failed = true ↔
    l.deed c ≠ .loop ∧ ∃ e, (l.answer c).1 = .error e ∧ e ≠ .notFound c.name

/-- **The counters account for the work**, whatever the containers answer from one lookup to the next. -/
theorem balanced_visit (l : Loader) (ns : List Identity) : l.Balanced ns := by
  have hbalance : ∀ a, (l.visit ns {}).balance a = l.spent a (l.requested ns) := by
    intro a
    have hnone : ({} : Registry).balance a = 0 := by cases a <;> rfl
    rw [balance_visit, hnone, Nat.zero_add, requested]
  have hhits : (l.visit ns {}).counters.hits = _ := hbalance .hits
  have hscans : (l.visit ns {}).counters.scans = _ := hbalance .scans
  have hlookups : (l.visit ns {}).counters.lookups = _ := hbalance .lookups
  have hfallbacks : (l.visit ns {}).counters.fallbacks = _ := hbalance .fallbacks
  have hunits : (l.visit ns {}).units.length = _ := hbalance .units
  have hunresolvable : (l.visit ns {}).unresolvable.length = _ := hbalance .unresolvable
  have hclosed := (closed_visit ns l.closed_start).1
  have hnodup : (l.visit ns {}).unresolvable.Nodup := l.nodup_visit ns List.nodup_nil
  have hresolvedCard : ((l.visit ns {}).classified .resolved).ncard = l.spent .units (l.requested ns) := by
    rw [hclosed.classified_resolved, ncard_of_nodup hclosed.names, List.length_map, hunits]
  have hunresolvableCard : ((l.visit ns {}).classified .unresolvable).ncard =
      l.spent .unresolvable (l.requested ns) := by
    rw [hclosed.classified_unresolvable, ncard_of_nodup hnodup, hunresolvable]
  obtain ⟨hsum, hlength⟩ := l.spent_lookups (l.requested ns)
  have hbounds : ∀ k ∈ (l.requested ns).filterMap fun c => (l.deed c).lookups?,
      (l.containers ≠ [] → 1 ≤ k) ∧ k ≤ l.containers.length := by
    intro k hk
    obtain ⟨c, -, hc⟩ := List.mem_filterMap.mp hk
    exact lookups?_bounds hc
  refine ⟨fun kind => ?_, ?_, ?_, ?_, hlookups.trans hsum, hscans.trans hlength, fun hsome => ?_, ?_,
    fun c _ => l.deed_eq_loop_iff c, fun c _ => l.failed_iff c⟩
  · cases kind with
    | resolved => exact hclosed.classified_resolved ▸ List.finite_toSet _
    | unresolvable => exact hclosed.classified_unresolvable ▸ List.finite_toSet _
  · rw [hfallbacks, hunresolvableCard, spent_fallbacks]
  · rw [hscans, hresolvedCard, hunresolvableCard, spent_scans]
  · rw [hhits, hscans, spent_hits]
  · rw [hscans, hlookups, hsum, hlength]
    exact List.length_le_sum_of_one_le _ fun k hk => (hbounds k hk).1 hsome
  · rw [hscans, hlookups, hsum, hlength, Nat.mul_comm]
    exact List.sum_le_card_nsmul _ _ fun k hk => (hbounds k hk).2

end Loader

end LiveUnits
