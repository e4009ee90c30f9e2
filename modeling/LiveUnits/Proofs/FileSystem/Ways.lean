import LiveUnits.Proofs.Container.Confinement
import LiveUnits.Proofs.FileSystem.Discarding
import LiveUnits.Proofs.Path.Extension

/-!
# Ways below a root

A way that has nothing but directories on it ends in one of four ways: its spelling is refused, or a
directory is missing, or its place is vacant, or something is found there (`FileSystem.Way`).  Nothing else
can come of a path below a root (`FileSystem.Base.exists_way`).

Directories and links are all that a root depends on.  It leads where it did as long as these stay
(`FileSystem.Stays.base`), so files may be put anywhere.
-/

namespace LiveUnits

/-- A fault that is due to the spelling of a path. -/
def Fault.IsSpelling (f : Fault) : Prop := f = .nameTooLong ∨ f = .interiorNul

namespace FileSystem

variable {fs fs' : FileSystem} {root p q : Path} {L l : Location} {front names : List Name} {last : Name}

/-! ## Changes that only files notice -/

/-- Directories and links stay where they are.  Files may get other contents. -/
structure Stays (fs fs' : FileSystem) : Prop where
  /-- Both have the same working directory. -/
  cwd : fs'.cwd = fs.cwd
  /-- What is no file looks the same. -/
  face : ∀ l x, fs.root.get? l = some x → x.isFile = false →
    (fs'.root.get? l).map Node.face = some x.face

/-- If everything is kept, directories and links stay. -/
theorem Kept.stays (h : Kept fs fs') : Stays fs fs' := ⟨h.cwd, fun l x hx _ => h.face l x hx⟩

theorem Stays.refl (fs : FileSystem) : Stays fs fs := (Kept.refl fs).stays

theorem Stays.hasDirectory (h : Stays fs fs') (hl : fs.HasDirectory l) : fs'.HasDirectory l := by
  obtain ⟨entries, hl⟩ := hl
  obtain ⟨x, hx, hface⟩ := Option.map_eq_some_iff.mp (h.face l _ hl rfl)
  obtain ⟨entries', rfl⟩ := Node.eq_directory_of_face hface
  exact ⟨entries', hx⟩

theorem Stays.link (h : Stays fs fs') {target : Path} (hl : fs.root.get? l = some (.link target)) :
    fs'.root.get? l = some (.link target) := by
  obtain ⟨x, hx, hface⟩ := Option.map_eq_some_iff.mp (h.face l _ hl rfl)
  rw [hx, Node.eq_link_of_face hface]

theorem Stays.trans {fs'' : FileSystem} (h : Stays fs fs') (h' : Stays fs' fs'') : Stays fs fs'' := by
  refine ⟨h'.cwd.trans h.cwd, fun l x hx hfile => ?_⟩
  obtain ⟨y, hy, hface⟩ := Option.map_eq_some_iff.mp (h.face l x hx hfile)
  have hfile' : y.isFile = false := by
    cases x with
    | file contents => cases hfile
    | link target => rw [Node.eq_link_of_face hface]; rfl
    | directory entries =>
        obtain ⟨entries', rfl⟩ := Node.eq_directory_of_face hface
        rfl
  rw [h'.face l y hy hfile', hface]

/-- A trace to a directory passes directories and links only. -/
theorem Walks.stays (h : Stays fs fs') {follow trailing : Bool} {links : Nat} {todo : List Bytes}
    {entries : List (Name × Node)}
    (hwalks : Walks fs follow trailing links l todo (.found L (.directory entries))) :
    ∃ entries', Walks fs' follow trailing links l todo (.found L (.directory entries')) := by
  generalize hspot : Spot.found L (.directory entries) = spot at hwalks
  induction hwalks with
  | arrived hl =>
      cases hspot
      obtain ⟨entries', hl'⟩ := h.hasDirectory ⟨_, hl⟩
      exact ⟨entries', .arrived hl'⟩
  | here hl _ ih => exact (ih hspot).imp fun _ => .here (h.hasDirectory hl)
  | up hl _ ih => exact (ih hspot).imp fun _ => .up (h.hasDirectory hl)
  | vacant => cases hspot
  | down hpart hl _ ih => exact (ih hspot).imp fun _ => .down hpart (h.hasDirectory hl)
  | file => cases hspot
  | link => cases hspot
  | through hpart hl hgoes _ ih => exact (ih hspot).imp fun _ => .through hpart (h.link hl) hgoes

/-- The names below a root start where they did. -/
theorem Stays.base (h : Stays fs fs') (hbase : fs.Base root L) : fs'.Base root L := by
  unfold Base at hbase ⊢
  split at hbase
  · next hempty => rw [if_pos hempty, h.cwd, hbase]
  · next hne =>
    obtain ⟨entries, harrives⟩ := hbase
    obtain ⟨haccepted, hwalks⟩ := locateWith_eq_ok.mp harrives
    obtain ⟨entries', hwalks'⟩ := hwalks.stays h
    have hstart : fs'.start root = fs.start root := by
      unfold start
      rw [h.cwd]
    rw [if_neg hne]
    exact ⟨entries', locateWith_eq_ok.mpr ⟨haccepted, hstart ▸ hwalks'⟩⟩

/-- Where a file stands or nothing does, a file can be put without anything else noticing. -/
theorem stays_put_file {d : Location} {name : Name} {contents : Bytes}
    (hplace : ∀ x, fs.root.get? (d ++ [name]) = some x → x.isFile = true) :
    Stays fs (fs.put (d ++ [name]) (some (.file contents))) := by
  refine ⟨rfl, fun l x hx hfile => ?_⟩
  have hapart : ¬ d ++ [name] <+: l := by
    rintro ⟨more, rfl⟩
    rw [Node.get?_append] at hx
    obtain ⟨y, hy, hmore⟩ := Option.bind_eq_some_iff.mp hx
    have hyfile := hplace y hy
    cases y with
    | file bytes =>
        cases more with
        | nil =>
            obtain rfl := Option.some.inj hmore
            cases hfile
        | cons n rest => cases hmore
    | link target => cases hyfile
    | directory entries => cases hyfile
  rw [(apart_put fs (d ++ [name]) _).face l hapart, hx]
  rfl

/-! ## Ways below a root -/

/-- The operating system accepts the spelling of a path, and every part of it. -/
structure Nameable (p : Path) : Prop where
  accepted : Accepted p
  short : ∀ part ∈ steps p, part.length ≤ nameLimit

/-- The operating system accepts a shorter way if it accepts a longer one. -/
theorem Nameable.of_append {more : List Name} (h : Nameable (root.descend (names ++ more))) (hne : names ≠ [])
    (hplain : ∀ n ∈ names ++ more, PlainName n) : Nameable (root.descend names) := by
  have hplain' : ∀ n ∈ names, PlainName n := fun n hn => hplain n (List.mem_append_left more hn)
  refine ⟨h.accepted.of_prefix ?_ ?_, fun part hpart => h.short part ?_⟩
  · rw [Path.descend_append]
    exact Path.prefix_descend _ more
  · obtain ⟨front, last, rfl⟩ := (List.eq_nil_or_concat' names).resolve_left hne
    rw [Path.descend_concat]
    exact Path.bytes_joinBytes_ne_nil _ (hplain' last (by simp))
  · rw [root.steps_descend hplain, ← List.append_assoc, ← root.steps_descend hplain']
    exact List.mem_append_left more hpart

/-- What comes of following names to a place in a directory if nothing but directories is on the way and no
link stands at the place.  `legal` tells whether the spelling is accepted. -/
inductive Way (fs : FileSystem) (legal : Prop) (d : Location) (name : Name) : Except Fault Spot → Prop
  | unspelt {f : Fault} (hf : f.IsSpelling) (h : ¬ legal) : Way fs legal d name (.error f)
  /-- The directory is missing. -/
  | missing (h : fs.root.get? d = none) : Way fs legal d name (.error .notFound)
  | vacant (hd : fs.HasDirectory d) (h : fs.root.get? (d ++ [name]) = none) :
      Way fs legal d name (.ok (.vacant d name))
  | found {x : Node} (h : fs.root.get? (d ++ [name]) = some x) :
      Way fs legal d name (.ok (.found (d ++ [name]) x))

/-- A way is one for any stricter notion of an accepted spelling. -/
theorem Way.mono {legal legal' : Prop} (hlegal : legal' → legal) {d : Location} {outcome : Except Fault Spot}
    (h : Way fs legal d last outcome) : Way fs legal' d last outcome := by
  cases h with
  | unspelt hf h => exact .unspelt hf fun hlegal' => h (hlegal hlegal')
  | missing h => exact .missing h
  | vacant hd h => exact .vacant hd h
  | found h => exact .found h

/-- A name that is too long leads nowhere. -/
theorem walk_overlong {n : Name} (hL : fs.HasDirectory L) (hn : PlainName n) (hlong : ¬ n.length ≤ nameLimit)
    {follow trailing : Bool} {links : Nat} (rest : List Bytes) :
    fs.walk follow trailing links L (n :: rest) = .error .nameTooLong := by
  obtain ⟨entries, hhere⟩ := hL
  rw [walk, hhere]
  simp [hn.ne_here, hn.ne_up, Nat.not_le.mp hlong]

/-- In a directory a name leads to what it has there. -/
theorem exists_walk_entry (hL : fs.HasDirectory L) (hlast : PlainName last)
    (hplace : ∀ target, fs.root.get? (L ++ [last]) ≠ some (.link target)) (links : Nat) :
    ∃ outcome, (∀ follow, fs.walk follow false links L [last] = outcome) ∧
      Way fs (last.length ≤ nameLimit) L last outcome := by
  obtain ⟨entries, hhere⟩ := hL
  have hchild : fs.root.get? (L ++ [last]) = entries.lookup last := Node.get?_concat hhere last
  by_cases hshort : last.length ≤ nameLimit
  · simp only [walk_enter ⟨hlast.ne_here, hlast.ne_up, hshort⟩ hhere]
    rw [← hchild]
    cases hx : fs.root.get? (L ++ [last]) with
    | none => exact ⟨_, fun _ => rfl, .vacant ⟨entries, hhere⟩ hx⟩
    | some x =>
        cases x with
        | file contents => exact ⟨_, fun _ => rfl, .found hx⟩
        | link target => exact absurd hx (hplace target)
        | directory below => exact ⟨_, fun _ => walk_arrived hx, .found hx⟩
  · exact ⟨.error .nameTooLong, fun follow => walk_overlong ⟨entries, hhere⟩ hlast hshort [],
      .unspelt (.inl rfl) hshort⟩

/-- **A way without obstacles** ends as a way does, whether a link at the end would be followed or not. -/
theorem exists_walk_way (hL : fs.HasDirectory L) (hplain : ∀ n ∈ front ++ [last], PlainName n)
    (hopen : fs.Open L (front ++ [last]))
    (hplace : ∀ target, fs.root.get? (L ++ front ++ [last]) ≠ some (.link target)) (links : Nat) :
    ∃ outcome, (∀ follow, fs.walk follow false links L (front ++ [last]) = outcome) ∧
      Way fs (∀ n ∈ front ++ [last], n.length ≤ nameLimit) (L ++ front) last outcome := by
  induction front generalizing L with
  | nil =>
      rw [List.append_nil] at hplace ⊢
      obtain ⟨outcome, hwalk, hway⟩ := exists_walk_entry hL (hplain last (by simp)) hplace links
      exact ⟨outcome, hwalk, hway.mono fun hall => hall last (by simp)⟩
  | cons n rest ih =>
      obtain ⟨hn, hrest⟩ := List.forall_mem_cons.mp hplain
      have hbelow : L ++ n :: rest = L ++ [n] ++ rest := by simp
      have hfirst : [n] <+: n :: (rest ++ [last]) := (List.prefix_cons_inj n).mpr List.nil_prefix
      have hnothing (hnone : fs.root.get? (L ++ [n]) = none) : fs.root.get? (L ++ n :: rest) = none :=
        Node.get?_eq_none_of_prefix hnone (hbelow ▸ List.prefix_append _ rest)
      obtain ⟨entries, hhere⟩ := hL
      have hchild : fs.root.get? (L ++ [n]) = entries.lookup n := Node.get?_concat hhere n
      by_cases hshort : n.length ≤ nameLimit
      · have hpart : LeadsDown n := ⟨hn.ne_here, hn.ne_up, hshort⟩
        cases hx : fs.root.get? (L ++ [n]) with
        | none =>
            refine ⟨.error .notFound, fun follow => ?_, .missing (hnothing hx)⟩
            rw [List.cons_append, walk_enter hpart hhere, ← hchild, hx]
            exact if_neg (by simp)
        | some x =>
            obtain ⟨below, rfl⟩ := Node.eq_directory_of_face (hopen [n] hfirst (by simp) x hx)
            rw [hbelow] at hplace ⊢
            obtain ⟨outcome, hwalk, hway⟩ := ih ⟨below, hx⟩ hrest hopen.tail hplace
            refine ⟨outcome, fun follow => ?_, hway.mono fun hall => (List.forall_mem_cons.mp hall).2⟩
            rw [List.cons_append, walk_down hpart ⟨below, hx⟩, hwalk]
      · exact ⟨.error .nameTooLong, fun follow => walk_overlong ⟨entries, hhere⟩ hn hshort _,
          .unspelt (.inl rfl) fun hall => hshort (hall n List.mem_cons_self)⟩

/-- Names below the base of a root are followed from the base. -/
theorem Base.locate_eq (h : fs.Base root L) (hne : names ≠ []) (hplain : ∀ n ∈ names, PlainName n)
    (haccepted : Accepted (root.descend names)) : ∃ left, ∀ follow trailing,
      fs.locateWith follow trailing (root.descend names) = fs.walk follow trailing left L names := by
  unfold Base at h
  split at h
  · next hempty =>
    obtain ⟨bytes⟩ := root
    obtain rfl : bytes = [] := hempty
    refine ⟨linkLimit, fun follow trailing => ?_⟩
    have hstart : fs.start (Path.descend ⟨[]⟩ names) = L := by
      unfold start
      rw [Path.isAbsolute_descend _ hplain, h]
      rfl
    rw [locateWith_of_accepted haccepted, hstart, Path.steps_descend _ hplain]
    rfl
  · exact h.locate_eq hne hplain haccepted

/-- A path that ends in a name and is not accepted is refused for its spelling. -/
theorem exists_locateWith_unspelt (fs : FileSystem) (hne : p.bytes ≠ []) (h : ¬ Accepted p) :
    ∃ f : Fault, f.IsSpelling ∧ ∀ follow trailing, fs.locateWith follow trailing p = .error f := by
  by_cases hnul : 0 ∈ p.bytes
  · exact ⟨.interiorNul, .inr rfl, fun follow trailing => if_pos hnul⟩
  · refine ⟨.nameTooLong, .inl rfl, fun follow trailing => ?_⟩
    have hlong : pathLimit < p.bytes.length := by
      by_contra hshort
      exact h ⟨hnul, hne, Nat.not_lt.mp hshort⟩
    unfold locateWith
    rw [if_neg hnul, if_neg hne, if_pos hlong]

/-- **A path below a root** leads where the way from the base of the root does. -/
theorem Base.exists_way (h : fs.Base root L) (hL : fs.HasDirectory L)
    (hplain : ∀ n ∈ front ++ [last], PlainName n) (hopen : fs.Open L (front ++ [last]))
    (hplace : ∀ target, fs.root.get? (L ++ front ++ [last]) ≠ some (.link target)) :
    ∃ outcome, (∀ follow, fs.locateWith follow false (root.descend (front ++ [last])) = outcome) ∧
      Way fs (Nameable (root.descend (front ++ [last]))) (L ++ front) last outcome := by
  have hne : front ++ [last] ≠ [] := by simp
  by_cases haccepted : Accepted (root.descend (front ++ [last]))
  · obtain ⟨left, hleft⟩ := h.locate_eq hne hplain haccepted
    obtain ⟨outcome, hwalk, hway⟩ := exists_walk_way hL hplain hopen hplace left
    refine ⟨outcome, fun follow => (hleft follow false).trans (hwalk follow), hway.mono fun hall n hn => ?_⟩
    exact hall.short n (root.steps_descend hplain ▸ List.mem_append_right _ hn)
  · have hbytes : (root.descend (front ++ [last])).bytes ≠ [] := by
      rw [Path.descend_concat]
      exact Path.bytes_joinBytes_ne_nil _ (hplain last (by simp))
    obtain ⟨f, hf, hlocate⟩ := exists_locateWith_unspelt fs hbytes haccepted
    refine ⟨.error f, fun follow => hlocate follow false, .unspelt hf fun hnameable => ?_⟩
    exact haccepted hnameable.accepted

/-! ## The directory that names are below -/

/-- Directories above a path that ends in a name are looked at, that of the path first. -/
theorem makeDirectories_goes {m : Name} (hm : PlainName m) :
    ¬ (decide ((p.joinBytes m).bytes = []) || (p.joinBytes m).parent?.isNone) = true := by
  simpa [Path.bytes_joinBytes_ne_nil p hm] using Option.isSome_iff_ne_none.mp (p.isSome_parent?_joinBytes hm)

/-- The directory in which a name below a root is looked for is there. -/
theorem Base.isDirectory_parent (h : fs.Base root L) {n : Name} (hn : PlainName n)
    (hparent : (root.joinBytes n).parent? = some q) (hne : q.bytes ≠ []) : fs.isDirectory q = true := by
  have habove := Path.above_of_parent?_joinBytes hn hparent hne
  have hspelling := root.prefix_of_parent?_joinBytes hn hparent hne
  have hroot : root.bytes ≠ [] := fun hnil => hne (List.prefix_nil.mp (hnil ▸ hspelling))
  unfold Base at h
  rw [if_neg hroot] at h
  obtain ⟨entries, harrives⟩ := h
  obtain ⟨haccepted, hwalks⟩ := locateWith_eq_ok.mp harrives
  have hstart : fs.start q = fs.start root := by
    unfold start
    rw [habove.start]
  obtain ⟨more, hmore⟩ := habove.steps
  obtain ⟨l, below, hwalks'⟩ : ∃ l below, Walks fs true (isTrailing q) linkLimit (fs.start q) (steps q)
      (.found l (.directory below)) := by
    rw [hstart]
    by_cases hnil : more = []
    · rw [hnil, List.append_nil] at hmore
      rw [hmore]
      exact ⟨L, entries, hwalks.of_more rfl fun _ => .inl rfl⟩
    · rw [← hmore] at hwalks
      exact hwalks.passes hnil _
  exact isDirectory_eq_true.mpr
    ⟨l, below, locateWith_eq_ok.mpr ⟨haccepted.of_prefix hspelling hne, hwalks'⟩⟩

/-- Directly below a root no directory has to be made. -/
theorem Base.makeDirectories_eq (h : fs.Base root L) {n : Name} (hn : PlainName n)
    (hparent : (root.joinBytes n).parent? = some q) : fs.makeDirectories q = fs.done := by
  by_cases hends : (decide (q.bytes = []) || q.parent?.isNone) = true
  · exact if_pos hends
  · have hne : q.bytes ≠ [] := fun hnil => hends (by simp [hnil])
    have hfound := h.isDirectory_parent hn hparent hne
    obtain ⟨l, entries, hlocate⟩ := isDirectory_eq_true.mp hfound
    obtain ⟨l', x, hlocate'⟩ := exists_locateWith_unfollowed hlocate false
    have hmade : fs.makeDirectory q = fs.fail .alreadyExists := by
      unfold makeDirectory
      rw [hlocate']
    unfold makeDirectories Path.ancestors Path.ancestorsUpTo makeMissing
    rw [if_neg hends, if_neg hends, hmade]
    simp only [fail, hfound, decide_true, Bool.and_self, if_true]
    rfl

end FileSystem

end LiveUnits
