import Mathlib.Data.List.Nodup
import LiveUnits.Discovery
import LiveUnits.Proofs.FileSystem.Node

/-!
# The walk through the source tree

A search comes by a directory, and by everything below it that can be reached through directories that
can be opened (`Access.visits`).  By itself each of these nodes adds at most one unit or issue
(`Access.verdict`).

A walk opens the directories that wait in an order of its own.  What it has found at any time is what
the nodes add that it has come by, and together with what is below the directories that wait these are
all (`Access.walk_reached`).  So a search comes by every node once, and its findings are theirs
(`Access.discover_of_opened`).
-/

namespace LiveUnits

namespace FileSystem

/-- Where the names lead from the root of a search. -/
def Search.place (s : Search) (names : List Name) : Path := s.root.join (Path.empty.descend names)

namespace Access

variable (a : Access) (s : Search)

mutual

/-- A node and everything below it that a search comes by, each with the names that lead to it. -/
def visits (names : List Name) : Node → List (List Name × Node)
  | .directory entries =>
    (names, .directory entries) ::
      match a.refusal? (s.place names) with
      | none => visitsBelow names entries
      | some _ => []
  | x => [(names, x)]

/-- The entries of a directory and everything below them. -/
def visitsBelow (names : List Name) : List (Name × Node) → List (List Name × Node)
  | [] => []
  | (name, x) :: rest => visits (names ++ [name]) x ++ visitsBelow names rest

end

/-- What a node adds by itself. -/
def verdict (v : List Name × Node) : Findings :=
  if v.2.isDirectory then
    match a.refusal? (s.place v.1) with
    | none => {}
    | some f => { issues := [.unreadableDirectory (s.place v.1) f] }
  else if a.isSource s (s.place v.1) (Path.empty.descend v.1) v.2 then
    s.claim (s.place v.1) (Path.empty.descend v.1)
  else {}

/-- What nodes add, one after the other. -/
def gathered (vs : List (List Name × Node)) : Findings :=
  ⟨vs.flatMap fun v => (a.verdict s v).units, vs.flatMap fun v => (a.verdict s v).issues⟩

/-- A directory that waits in a tidy tree: the names that lead to it, and its entries. -/
structure Waits (d : List Name × List (Name × Node)) : Prop where
  plain : ∀ n ∈ d.1, PlainName n
  tidy : (Node.directory d.2).Tidy

/-- A search that came by some nodes, and has some directories waiting. -/
def reached (ds : List (List Name × List (Name × Node))) (vs : List (List Name × Node)) : Progress :=
  ⟨ds.map fun d => (Path.empty.descend d.1, d.2), a.gathered s vs⟩

variable {a s}

/-- A directory is visited before what is in it, and alone if it cannot be opened. -/
theorem visits_directory (names : List Name) (entries : List (Name × Node)) :
    a.visits s names (.directory entries) = (names, .directory entries) ::
      match a.refusal? (s.place names) with
      | none => a.visitsBelow s names entries
      | some _ => [] := by
  rw [visits]

/-- Nothing is below a file or a link. -/
theorem visits_other (names : List Name) {x : Node} (hx : x.isDirectory = false) :
    a.visits s names x = [(names, x)] := by
  cases x with
  | directory entries => cases hx
  | file contents => rw [visits]; exact nofun
  | link target => rw [visits]; exact nofun

/-- The entries of a directory are visited one after the other. -/
theorem visitsBelow_eq (names : List Name) (entries : List (Name × Node)) :
    a.visitsBelow s names entries = entries.flatMap fun e => a.visits s (names ++ [e.1]) e.2 := by
  induction entries with
  | nil => rw [visitsBelow, List.flatMap_nil]
  | cons entry rest ih => rw [visitsBelow, List.flatMap_cons, ih]

/-- The last visit adds what it finds. -/
theorem gathered_concat (vs : List (List Name × Node)) (v : List Name × Node) :
    a.gathered s (vs ++ [v]) = a.gathered s vs ++ a.verdict s v := by
  simp only [gathered, List.flatMap_append, List.flatMap_cons, List.flatMap_nil, List.append_nil]
  rfl

/-- A visit that finds nothing makes no difference. -/
theorem gathered_of_nothing {vs : List (List Name × Node)} {v : List Name × Node}
    (h : a.verdict s v = {}) : a.gathered s (vs ++ [v]) = a.gathered s vs := by
  simp [gathered, h]

variable (names : List Name) (ds : List (List Name × List (Name × Node))) (vs : List (List Name × Node))

/-! ## One step -/

/-- A directory waits to be opened. -/
theorem take_directory (name : Name) (entries : List (Name × Node)) :
    a.take s (Path.empty.descend names) (a.reached s ds vs) (name, .directory entries) =
      a.reached s ((names ++ [name], entries) :: ds) vs := by
  unfold take
  rw [← Path.descend_concat]
  rfl

/-- By any other node the search has come. -/
theorem take_other {name : Name} (hplain : ∀ n ∈ names ++ [name], PlainName n) {x : Node}
    (hx : x.isDirectory = false) :
    a.take s (Path.empty.descend names) (a.reached s ds vs) (name, x) =
      a.reached s ds (vs ++ [(names ++ [name], x)]) := by
  have hplace : (s.root.join (Path.empty.descend names)).joinBytes name = s.place (names ++ [name]) :=
    s.root.join_descend_concat hplain
  have htake : a.take s (Path.empty.descend names) (a.reached s ds vs) (name, x) =
      if a.isSource s (s.place (names ++ [name])) (Path.empty.descend (names ++ [name])) x then
        { a.reached s ds vs with
          found := a.gathered s vs ++
            s.claim (s.place (names ++ [name])) (Path.empty.descend (names ++ [name])) }
      else a.reached s ds vs := by
    unfold take
    rw [hplace, ← Path.descend_concat]
    cases x with
    | directory entries => cases hx
    | file contents => rfl
    | link target => rfl
  rw [htake]
  split
  · next hsource =>
    rw [reached, reached, gathered_concat, verdict, if_neg (by simp [hx]), if_pos hsource]
  · next hsource =>
    have hnothing : a.verdict s (names ++ [name], x) = {} := by
      rw [verdict, if_neg (by simp [hx]), if_neg hsource]
    rw [reached, reached, gathered_of_nothing hnothing]

/-- **Reading a directory**: by its entries the search has come, or they wait. -/
theorem read_reached {entries : List (Name × Node)} (h : Waits (names, entries)) :
    ∃ below seen,
      a.read s (Path.empty.descend names) entries (a.reached s ds vs) =
        a.reached s (below ++ ds) (vs ++ seen) ∧
      (∀ d ∈ below, Waits d) ∧
      (seen ++ below.flatMap fun d => a.visits s d.1 (.directory d.2)).Perm
        (a.visitsBelow s names entries) := by
  induction entries generalizing ds vs with
  | nil =>
      exact ⟨[], [], by rw [List.append_nil]; rfl, fun _ hd => (List.not_mem_nil hd).elim,
        by rw [visitsBelow]; exact .refl _⟩
  | cons entry rest ih =>
      obtain ⟨name, x⟩ := entry
      obtain ⟨hname, hx, -, hrest⟩ := h.tidy.of_cons
      have hplain : ∀ n ∈ names ++ [name], PlainName n :=
        List.forall_mem_append.mpr ⟨h.plain, List.forall_mem_singleton.mpr hname⟩
      have ih := fun ds vs => ih ds vs ⟨h.plain, hrest⟩
      simp only [read, List.foldl_cons] at ih ⊢
      rw [visitsBelow]
      cases hdirectory : x.isDirectory with
      | false =>
          obtain ⟨below, seen, hread, hwaits, hperm⟩ := ih ds (vs ++ [(names ++ [name], x)])
          rw [take_other names ds vs hplain hdirectory, visits_other (names ++ [name]) hdirectory]
          exact ⟨below, (names ++ [name], x) :: seen, by simpa using hread, hwaits, hperm.cons _⟩
      | true =>
          obtain ⟨entries, rfl⟩ : ∃ entries, x = .directory entries := by
            cases x with
            | directory entries => exact ⟨entries, rfl⟩
            | file contents => cases hdirectory
            | link target => cases hdirectory
          obtain ⟨below, seen, hread, hwaits, hperm⟩ := ih ((names ++ [name], entries) :: ds) vs
          rw [take_directory]
          have hwaits' : ∀ d ∈ below ++ [(names ++ [name], entries)], Waits d :=
            List.forall_mem_append.mpr ⟨hwaits, List.forall_mem_singleton.mpr ⟨hplain, hx⟩⟩
          refine ⟨below ++ [(names ++ [name], entries)], seen, by simpa using hread, hwaits', ?_⟩
          rw [List.flatMap_append, List.flatMap_cons, List.flatMap_nil, List.append_nil,
            ← List.append_assoc]
          exact List.perm_append_comm.trans (hperm.append_left _)

/-- A directory that can be opened is read, whether it is the root or not. -/
theorem walk_opened (isRoot : Bool) {entries : List (Name × Node)}
    (h : a.refusal? (s.place names) = none) :
    a.walk s isRoot (a.reached s ((names, entries) :: ds) vs) =
      a.walk s false (a.read s (Path.empty.descend names) entries
        (a.reached s ds (vs ++ [(names, .directory entries)]))) := by
  have hplace : s.root.join (Path.empty.descend names) = s.place names := rfl
  have hnothing : a.verdict s (names, .directory entries) = {} := by
    simp [verdict, Node.isDirectory, h]
  rw [reached, List.map_cons, walk, hplace, h, reached, gathered_of_nothing hnothing]

/-- Below the root, a directory that cannot be opened is an issue. -/
theorem walk_refused {entries : List (Name × Node)} {f : Fault}
    (h : a.refusal? (s.place names) = some f) :
    a.walk s false (a.reached s ((names, entries) :: ds) vs) =
      a.walk s false (a.reached s ds (vs ++ [(names, .directory entries)])) := by
  have hplace : s.root.join (Path.empty.descend names) = s.place names := rfl
  have hissue : a.verdict s (names, .directory entries) =
      { issues := [.unreadableDirectory (s.place names) f] } := by
    simp [verdict, Node.isDirectory, h]
  rw [reached, List.map_cons, walk, hplace, h, reached, gathered_concat, hissue]
  rfl

/-! ## The walk -/

/-- **The rest of a walk** comes by what is in the directories that wait, and nothing else. -/
theorem walk_reached (hds : ∀ d ∈ ds, Waits d) :
    ∃ seen, seen.Perm (vs ++ ds.flatMap fun d => a.visits s d.1 (.directory d.2)) ∧
      a.walk s false (a.reached s ds vs) = .ok (a.gathered s seen).sorted := by
  -- opening a directory takes at least the directory itself off what waits
  induction hsize : (a.reached s ds vs).size using Nat.strongRecOn generalizing ds vs with
  | _ size ih =>
      subst hsize
      cases ds with
      | nil => exact ⟨vs, by simp, by rw [reached, List.map_nil, walk]⟩
      | cons d ds =>
          obtain ⟨names, entries⟩ := d
          obtain ⟨hd, hds⟩ := List.forall_mem_cons.mp hds
          have hless {ds' vs'} (h : (a.reached s ds' vs').size ≤
              (a.reached s ds vs).size + (Node.descendantsIn entries).length) :
              (a.reached s ds' vs').size < (a.reached s ((names, entries) :: ds) vs).size := by
            simp only [reached, Progress.size, List.map_cons, List.foldr_cons] at h ⊢
            omega
          rw [List.flatMap_cons, visits_directory]
          cases hrefusal : a.refusal? (s.place names) with
          | none =>
              obtain ⟨below, seen, hread, hwaits, hbelow⟩ :=
                read_reached (a := a) (s := s) names ds (vs ++ [(names, .directory entries)]) hd
              have hsize := hread ▸ a.size_read s (Path.empty.descend names) entries
                (a.reached s ds (vs ++ [(names, Node.directory entries)]))
              have hall : ∀ d ∈ below ++ ds, Waits d := List.forall_mem_append.mpr ⟨hwaits, hds⟩
              obtain ⟨all, hall, hend⟩ := ih _ (hless hsize) _ _ hall rfl
              rw [walk_opened names ds vs false hrefusal, hread]
              refine ⟨all, hall.trans ?_, hend⟩
              simp only [List.flatMap_append, List.append_assoc, List.cons_append, List.nil_append]
              rw [← List.append_assoc seen]
              exact ((hbelow.append_right _).cons _).append_left vs
          | some f =>
              obtain ⟨all, hall, hend⟩ :=
                ih _ (hless (Nat.le_add_right _ _)) ds (vs ++ [(names, .directory entries)]) hds rfl
              rw [walk_refused names ds vs hrefusal]
              exact ⟨all, by simpa using hall, hend⟩

variable {entries : List (Name × Node)}

theorem discover_eq (a : Access) (s : Search) (entries : List (Name × Node)) :
    a.discover s entries = a.walk s true (a.reached s [([], entries)] []) := rfl

/-- **A search whose root can be opened** comes by the root and everything below it that it can reach,
once. -/
theorem discover_of_opened (htidy : (Node.directory entries).Tidy) (h : a.refusal? (s.place []) = none) :
    ∃ seen, seen.Perm (a.visits s [] (.directory entries)) ∧
      a.discover s entries = .ok (a.gathered s seen).sorted := by
  have hwaits : ∀ d ∈ [(([] : List Name), entries)], Waits d :=
    List.forall_mem_singleton.mpr ⟨List.forall_mem_nil _, htidy⟩
  obtain ⟨seen, hseen, hwalk⟩ := walk_reached (a := a) (s := s) [([], entries)] [] hwaits
  rw [walk_opened [] [] [] false h] at hwalk
  rw [discover_eq, walk_opened [] [] [] true h]
  exact ⟨seen, by simpa using hseen, hwalk⟩

/-- A search fails exactly if its root cannot be opened. -/
theorem discover_eq_error (htidy : (Node.directory entries).Tidy) {f : Fault} :
    a.discover s entries = .error f ↔ a.refusal? (s.place []) = some f := by
  cases hrefusal : a.refusal? (s.place []) with
  | none =>
      obtain ⟨seen, -, hfound⟩ := discover_of_opened htidy hrefusal
      simp [hfound]
  | some g =>
      have hplace : s.root.join .empty = s.place [] := rfl
      rw [discover, walk, hplace, hrefusal]
      simp

/-- A search that does not fail found what is added by the nodes that it came by. -/
theorem exists_of_discover (htidy : (Node.directory entries).Tidy) {found : Findings}
    (h : a.discover s entries = .ok found) :
    ∃ seen, seen.Perm (a.visits s [] (.directory entries)) ∧ found = (a.gathered s seen).sorted := by
  cases hrefusal : a.refusal? (s.place []) with
  | some f => cases ((discover_eq_error htidy).mpr hrefusal).symm.trans h
  | none =>
      obtain ⟨seen, hseen, hfound⟩ := discover_of_opened htidy hrefusal
      exact ⟨seen, hseen, Except.ok.inj (h.symm.trans hfound)⟩

/-! ## What a search comes by -/

/-- Names lead from one node to another, and all directories on the way can be opened. -/
structure Reaches (a : Access) (s : Search) (names : List Name) (x : Node) (more : List Name) (y : Node) :
    Prop where
  node : x.get? more = some y
  opened : ∀ front, front <+: more → front ≠ more → a.refusal? (s.place (names ++ front)) = none

variable {names more : List Name} {x y : Node}

/-- Without names a search is where it starts. -/
theorem reaches_nil : a.Reaches s names x [] y ↔ x = y := by
  constructor
  · intro h
    exact Option.some.inj h.node
  · rintro rfl
    exact ⟨rfl, fun front hfront hne => (hne (List.prefix_nil.mp hfront)).elim⟩

/-- A search gets no further than a file or a link. -/
theorem Reaches.eq_of_other (h : a.Reaches s names x more y) (hx : x.isDirectory = false) :
    more = [] ∧ x = y := by
  cases more with
  | nil => exact ⟨rfl, reaches_nil.mp h⟩
  | cons n rest =>
      have hnode := h.node
      cases x with
      | directory entries => cases hx
      | file contents => cases hnode
      | link target => cases hnode

/-- From a directory that can be opened the names lead on from its entries. -/
theorem reaches_cons (htidy : (Node.directory entries).Tidy) {n : Name} :
    a.Reaches s names (.directory entries) (n :: more) y ↔ a.refusal? (s.place names) = none ∧
      ∃ x, (n, x) ∈ entries ∧ a.Reaches s (names ++ [n]) x more y := by
  have hassoc (front : List Name) : names ++ n :: front = names ++ [n] ++ front := by simp
  constructor
  · intro h
    obtain ⟨x, hx, hnode⟩ := Option.bind_eq_some_iff.mp (Node.get?_cons _ n more ▸ h.node)
    have hhere := h.opened [] List.nil_prefix (List.cons_ne_nil n more).symm
    rw [List.append_nil] at hhere
    refine ⟨hhere, x, htidy.lookup_eq_some.mp hx, hnode, fun front hfront hne => ?_⟩
    rw [← hassoc]
    exact h.opened (n :: front) (List.cons_prefix_cons.mpr ⟨rfl, hfront⟩) (by simpa using hne)
  · rintro ⟨hhere, x, hx, h⟩
    refine ⟨?_, fun front hfront hne => ?_⟩
    · rw [Node.get?_cons, Node.child?_directory, htidy.lookup_eq_some.mpr hx]
      exact h.node
    · rcases List.prefix_cons_iff.mp hfront with rfl | ⟨rest, rfl, hrest⟩
      · rwa [List.append_nil]
      · rw [hassoc]
        exact h.opened rest hrest (by simpa using hne)

/-- Visits and what can be reached are the same at a file or a link. -/
theorem mem_visits_other (hx : x.isDirectory = false) {found : List Name} :
    (found, y) ∈ a.visits s names x ↔ ∃ more, found = names ++ more ∧ a.Reaches s names x more y := by
  rw [visits_other names hx, List.mem_singleton]
  constructor
  · rintro ⟨⟩
    exact ⟨[], (List.append_nil _).symm, reaches_nil.mpr rfl⟩
  · rintro ⟨more, rfl, hreaches⟩
    obtain ⟨rfl, rfl⟩ := hreaches.eq_of_other hx
    rw [List.append_nil]

/-- **A search comes by what it reaches.** -/
theorem mem_visits (h : x.Tidy) {found : List Name} :
    (found, y) ∈ a.visits s names x ↔ ∃ more, found = names ++ more ∧ a.Reaches s names x more y := by
  induction h generalizing names with
  | file contents => exact mem_visits_other rfl
  | link target => exact mem_visits_other rfl
  | @directory entries hplain hdistinct hbelow ih =>
      have htidy : (Node.directory entries).Tidy := .directory hplain hdistinct hbelow
      rw [visits_directory, List.mem_cons]
      constructor
      · rintro (⟨⟨⟩⟩ | hfound)
        · exact ⟨[], (List.append_nil _).symm, reaches_nil.mpr rfl⟩
        · cases hrefusal : a.refusal? (s.place names) with
          | some f =>
              rw [hrefusal] at hfound
              cases hfound
          | none =>
              rw [hrefusal, visitsBelow_eq] at hfound
              obtain ⟨⟨n, x⟩, hx, hfound⟩ := List.mem_flatMap.mp hfound
              obtain ⟨more, rfl, hreaches⟩ := (ih (n, x) hx).mp hfound
              exact ⟨n :: more, by simp, (reaches_cons htidy).mpr ⟨hrefusal, x, hx, hreaches⟩⟩
      · rintro ⟨more, rfl, hreaches⟩
        cases more with
        | nil => exact .inl (by rw [List.append_nil, reaches_nil.mp hreaches])
        | cons n more =>
            obtain ⟨hrefusal, x, hx, hreaches⟩ := (reaches_cons htidy).mp hreaches
            right
            rw [hrefusal, visitsBelow_eq]
            refine List.mem_flatMap.mpr ⟨(n, x), hx, ?_⟩
            exact (ih (n, x) hx).mpr ⟨more, by simp, hreaches⟩

/-- A search has come by what it reaches from the root. -/
theorem mem_seen (htidy : (Node.directory entries).Tidy) {seen : List (List Name × Node)}
    (hseen : seen.Perm (a.visits s [] (.directory entries))) {v : List Name × Node} :
    v ∈ seen ↔ a.Reaches s [] (.directory entries) v.1 v.2 := by
  rw [hseen.mem_iff, mem_visits htidy]
  simp

/-- **A search comes by every node once.** -/
theorem nodup_visits (h : x.Tidy) (names : List Name) :
    ((a.visits s names x).map (·.1)).Nodup := by
  induction h generalizing names with
  | file contents =>
      rw [visits_other names rfl]
      exact List.nodup_singleton names
  | link target =>
      rw [visits_other names rfl]
      exact List.nodup_singleton names
  | @directory entries hplain hdistinct hbelow ih =>
      -- below an entry every node is found through the name of the entry
      have hthrough {n : Name} {x : Node} (hx : (n, x) ∈ entries) {found : List Name}
          (hfound : found ∈ (a.visits s (names ++ [n]) x).map (·.1)) :
          ∃ more, found = names ++ n :: more := by
        obtain ⟨v, hv, rfl⟩ := List.mem_map.mp hfound
        obtain ⟨more, hmore, -⟩ := (mem_visits (hbelow _ hx)).mp hv
        exact ⟨more, by simpa using hmore⟩
      rw [visits_directory, List.map_cons]
      cases a.refusal? (s.place names) with
      | some f => exact List.nodup_singleton names
      | none =>
          dsimp only
          rw [visitsBelow_eq, List.map_flatMap, List.nodup_cons, List.nodup_flatMap]
          refine ⟨fun hmem => ?_, fun entry hentry => ih entry hentry _, ?_⟩
          · obtain ⟨⟨n, x⟩, hx, hfound⟩ := List.mem_flatMap.mp hmem
            obtain ⟨more, hmore⟩ := hthrough hx hfound
            simp at hmore
          · refine (List.pairwise_map.mp hdistinct).imp_of_mem fun {e e'} he he' hne => ?_
            intro found hfound hfound'
            obtain ⟨more, rfl⟩ := hthrough he hfound
            obtain ⟨more', hmore'⟩ := hthrough he' hfound'
            exact hne (List.cons.inj (List.append_cancel_left hmore')).1

end Access

end FileSystem

end LiveUnits
