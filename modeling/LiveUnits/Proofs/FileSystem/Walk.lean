import LiveUnits.Proofs.FileSystem.Node

/-!
# Walks

What leads a walk to its end is a trace of single moves (`Walks`), and `walk` finds a spot exactly if
there is a trace to it (`walk_iff_walks`).  Traces can be continued from where they end
(`Walks.walk_append`), a trace leads down unless it goes up or through a link
(`Walks.prefix_location`), and a trace to a node is not disturbed by changes that keep what exists
(`Walks.kept`).
-/

namespace LiveUnits

/-- The location that a path leads to, whether anything is there or not. -/
def Spot.location : Spot → Location
  | found l _ => l
  | vacant d name => d ++ [name]

/-- Whether neither a file nor a link is there. -/
def Spot.isOpen : Spot → Bool
  | found _ x => x.isDirectory
  | vacant _ _ => true

namespace FileSystem

/-- A directory is at a location. -/
def HasDirectory (fs : FileSystem) (l : Location) : Prop :=
  ∃ entries, fs.root.get? l = some (.directory entries)

/-- A part that leads down: neither `.` nor `..`, and not too long. -/
structure LeadsDown (part : Bytes) : Prop where
  ne_here : part ≠ [fullStop]
  ne_up : part ≠ [fullStop, fullStop]
  short : part.length ≤ nameLimit

/-- Walks that lead somewhere. -/
inductive Walks (fs : FileSystem) (follow trailing : Bool) :
    Nat → Location → List Bytes → Spot → Prop where
  | arrived {links : Nat} {l : Location} {entries : List (Name × Node)}
      (h : fs.root.get? l = some (.directory entries)) :
      Walks fs follow trailing links l [] (.found l (.directory entries))
  | here {links : Nat} {l : Location} {rest : List Bytes} {spot : Spot} (h : fs.HasDirectory l)
      (next : Walks fs follow trailing links l rest spot) :
      Walks fs follow trailing links l ([fullStop] :: rest) spot
  | up {links : Nat} {l : Location} {rest : List Bytes} {spot : Spot} (h : fs.HasDirectory l)
      (next : Walks fs follow trailing links l.dropLast rest spot) :
      Walks fs follow trailing links l ([fullStop, fullStop] :: rest) spot
  | vacant {links : Nat} {l : Location} {part : Bytes} {entries : List (Name × Node)}
      (hpart : LeadsDown part) (h : fs.root.get? l = some (.directory entries))
      (hnone : entries.lookup part = none) :
      Walks fs follow trailing links l [part] (.vacant l part)
  | down {links : Nat} {l : Location} {part : Bytes} {rest : List Bytes} {spot : Spot}
      (hpart : LeadsDown part) (h : fs.HasDirectory (l ++ [part]))
      (next : Walks fs follow trailing links (l ++ [part]) rest spot) :
      Walks fs follow trailing links l (part :: rest) spot
  | file {links : Nat} {l : Location} {part contents : Bytes} (hpart : LeadsDown part)
      (h : fs.root.get? (l ++ [part]) = some (.file contents)) (htrailing : trailing = false) :
      Walks fs follow trailing links l [part] (.found (l ++ [part]) (.file contents))
  | link {links : Nat} {l : Location} {part : Bytes} {target : Path} (hpart : LeadsDown part)
      (h : fs.root.get? (l ++ [part]) = some (.link target)) (hfollow : follow = false)
      (htrailing : trailing = false) :
      Walks fs follow trailing links l [part] (.found (l ++ [part]) (.link target))
  | through {links : Nat} {l : Location} {part : Bytes} {rest : List Bytes} {target : Path}
      {spot : Spot} (hpart : LeadsDown part)
      (h : fs.root.get? (l ++ [part]) = some (.link target))
      (hgoes : rest ≠ [] ∨ follow = true ∨ trailing = true)
      (next : Walks fs follow trailing links (if target.isAbsolute then [] else l)
        (linkSteps target ++ rest) spot) :
      Walks fs follow trailing (links + 1) l (part :: rest) spot

variable {fs : FileSystem} {follow trailing : Bool} {links : Nat} {l : Location}

/-! ## Single moves -/

/-- A walk ends at the directory it has come to. -/
theorem walk_arrived {entries : List (Name × Node)} (h : fs.root.get? l = some (.directory entries)) :
    fs.walk follow trailing links l [] = .ok (.found l (.directory entries)) := by
  rw [walk, h]

/-- A dot leads nowhere. -/
theorem walk_here (h : fs.HasDirectory l) (rest : List Bytes) :
    fs.walk follow trailing links l ([fullStop] :: rest) = fs.walk follow trailing links l rest := by
  obtain ⟨entries, h⟩ := h
  rw [walk, h]
  rfl

/-- Two dots lead to the directory above. -/
theorem walk_up (h : fs.HasDirectory l) (rest : List Bytes) :
    fs.walk follow trailing links l ([fullStop, fullStop] :: rest) =
      fs.walk follow trailing links l.dropLast rest := by
  obtain ⟨entries, h⟩ := h
  rw [walk, h]
  rfl

/-- A part that leads down is looked up. -/
theorem walk_enter {part : Bytes} (hpart : LeadsDown part) {entries : List (Name × Node)}
    (h : fs.root.get? l = some (.directory entries)) (rest : List Bytes) :
    fs.walk follow trailing links l (part :: rest) =
      match entries.lookup part with
      | none => if rest = [] then .ok (.vacant l part) else .error .notFound
      | some (.directory _) => fs.walk follow trailing links (l ++ [part]) rest
      | some (.file contents) =>
        if rest = [] && !trailing then .ok (.found (l ++ [part]) (.file contents))
        else .error .notDirectory
      | some (.link target) =>
        if rest = [] && !follow && !trailing then .ok (.found (l ++ [part]) (.link target))
        else
          match links with
          | 0 => .error .tooManyLinks
          | links + 1 =>
            fs.walk follow trailing links (if target.isAbsolute then [] else l)
              (linkSteps target ++ rest) := by
  have hshort : ¬ nameLimit < part.length := Nat.not_lt.mpr hpart.short
  rw [walk, h]
  exact (if_neg hpart.ne_here).trans ((if_neg hpart.ne_up).trans (if_neg hshort))

/-- A name leads down to a directory. -/
theorem walk_down {part : Bytes} (hpart : LeadsDown part) (h : fs.HasDirectory (l ++ [part]))
    (rest : List Bytes) :
    fs.walk follow trailing links l (part :: rest) =
      fs.walk follow trailing links (l ++ [part]) rest := by
  obtain ⟨below, h⟩ := h
  obtain ⟨entries, hhere, hlookup⟩ := Node.directory_of_get?_concat h
  rw [walk_enter hpart hhere, hlookup]

/-- A link is followed on the way, and at the end if that is asked for. -/
theorem walk_through {part : Bytes} (hpart : LeadsDown part) {target : Path}
    (h : fs.root.get? (l ++ [part]) = some (.link target)) {rest : List Bytes}
    (hgoes : rest ≠ [] ∨ follow = true ∨ trailing = true) :
    fs.walk follow trailing (links + 1) l (part :: rest) =
      fs.walk follow trailing links (if target.isAbsolute then [] else l)
        (linkSteps target ++ rest) := by
  obtain ⟨entries, hhere, hlookup⟩ := Node.directory_of_get?_concat h
  have hgoes' : (rest = [] && !follow && !trailing) = false := by
    rcases hgoes with hrest | hfollow | htrailing
    · rw [decide_eq_false hrest]
      rfl
    · simp [hfollow]
    · simp [htrailing]
  rw [walk_enter hpart hhere, hlookup]
  simp only [hgoes', Bool.false_eq_true, if_false]

/-! ## Walks and traces -/

/-- A walk that gets somewhere leaves a trace. -/
theorem walks_of_walk {todo : List Bytes} {spot : Spot}
    (h : fs.walk follow trailing links l todo = .ok spot) :
    Walks fs follow trailing links l todo spot := by
  induction links, l, todo using walk.induct fs follow trailing generalizing spot with
  | case1 links l entries hhere =>
      rw [walk_arrived hhere] at h
      obtain rfl := Except.ok.inj h
      exact .arrived hhere
  | case2 links l entries hhere rest ih =>
      rw [walk_here ⟨entries, hhere⟩] at h
      exact .here ⟨entries, hhere⟩ (ih h)
  | case3 links l entries hhere rest _ ih =>
      rw [walk_up ⟨entries, hhere⟩] at h
      exact .up ⟨entries, hhere⟩ (ih h)
  | case4 links l entries hhere part rest hne hne' hlong =>
      rw [walk, hhere] at h
      simp [hne, hne', hlong] at h
  | case5 links l entries hhere part hne hne' hshort hnone =>
      have hpart : LeadsDown part := ⟨hne, hne', Nat.not_lt.mp hshort⟩
      rw [walk_enter hpart hhere, hnone] at h
      obtain rfl := Except.ok.inj h
      exact .vacant hpart hhere hnone
  | case6 links l entries hhere part rest hne hne' hshort hnone hrest =>
      rw [walk_enter ⟨hne, hne', Nat.not_lt.mp hshort⟩ hhere, hnone] at h
      simp [hrest] at h
  | case7 links l entries hhere part rest hne hne' hshort below hbelow ih =>
      have hpart : LeadsDown part := ⟨hne, hne', Nat.not_lt.mp hshort⟩
      rw [walk_enter hpart hhere, hbelow] at h
      refine .down hpart ⟨below, ?_⟩ (ih h)
      rw [Node.get?_concat hhere, hbelow]
  | case8 links l entries hhere part rest hne hne' hshort contents hfile hends =>
      have hpart : LeadsDown part := ⟨hne, hne', Nat.not_lt.mp hshort⟩
      rw [walk_enter hpart hhere, hfile] at h
      simp only [hends, if_true] at h
      obtain rfl := Except.ok.inj h
      obtain ⟨rfl, htrailing⟩ : rest = [] ∧ trailing = false := by simpa using hends
      refine .file hpart ?_ htrailing
      rw [Node.get?_concat hhere, hfile]
  | case9 links l entries hhere part rest hne hne' hshort contents hfile hends =>
      rw [walk_enter ⟨hne, hne', Nat.not_lt.mp hshort⟩ hhere, hfile] at h
      simp only [hends] at h
      cases h
  | case10 links l entries hhere part rest hne hne' hshort target hlink hends =>
      have hpart : LeadsDown part := ⟨hne, hne', Nat.not_lt.mp hshort⟩
      rw [walk_enter hpart hhere, hlink] at h
      simp only [hends, if_true] at h
      obtain rfl := Except.ok.inj h
      obtain ⟨⟨rfl, hfollow⟩, htrailing⟩ : (rest = [] ∧ follow = false) ∧ trailing = false := by
        simpa using hends
      refine .link hpart ?_ hfollow htrailing
      rw [Node.get?_concat hhere, hlink]
  | case11 l entries hhere part rest hne hne' hshort target hlink hends =>
      rw [walk_enter ⟨hne, hne', Nat.not_lt.mp hshort⟩ hhere, hlink] at h
      simp only [hends] at h
      cases h
  | case12 l entries hhere part rest hne hne' hshort target hlink hends links ih =>
      have hpart : LeadsDown part := ⟨hne, hne', Nat.not_lt.mp hshort⟩
      have hgoes : rest ≠ [] ∨ follow = true ∨ trailing = true := by
        by_contra hnone
        refine hends ?_
        simp only [not_or, not_not, Bool.not_eq_true] at hnone
        simp [hnone]
      have htarget : fs.root.get? (l ++ [part]) = some (.link target) := by
        rw [Node.get?_concat hhere, hlink]
      rw [walk_through hpart htarget hgoes] at h
      exact .through hpart htarget hgoes (ih h)
  | case13 links l todo hnowhere =>
      rw [walk] at h
      split at h
      · next entries hhere => exact (hnowhere entries hhere).elim
      · cases h

/-- A trace leads a walk. -/
theorem Walks.walk_eq {todo : List Bytes} {spot : Spot}
    (h : Walks fs follow trailing links l todo spot) :
    fs.walk follow trailing links l todo = .ok spot := by
  induction h with
  | arrived h => exact walk_arrived h
  | here h _ ih => rw [walk_here h, ih]
  | up h _ ih => rw [walk_up h, ih]
  | vacant hpart h hnone =>
      rw [walk_enter hpart h, hnone]
      exact if_pos rfl
  | down hpart h _ ih => rw [walk_down hpart h, ih]
  | file hpart h htrailing =>
      obtain ⟨entries, hhere, hlookup⟩ := Node.directory_of_get?_concat h
      rw [walk_enter hpart hhere, hlookup, htrailing]
      rfl
  | link hpart h hfollow htrailing =>
      obtain ⟨entries, hhere, hlookup⟩ := Node.directory_of_get?_concat h
      rw [walk_enter hpart hhere, hlookup, hfollow, htrailing]
      rfl
  | through hpart h hgoes _ ih => rw [walk_through hpart h hgoes, ih]

/-- **Walks get exactly where traces lead.** -/
theorem walk_iff_walks {todo : List Bytes} {spot : Spot} :
    fs.walk follow trailing links l todo = .ok spot ↔ Walks fs follow trailing links l todo spot :=
  ⟨walks_of_walk, Walks.walk_eq⟩

/-! ## Where traces end -/

/-- A trace to a node ends at the node. -/
theorem Walks.get?_of_found {todo : List Bytes} {l' : Location} {x : Node}
    (h : Walks fs follow trailing links l todo (.found l' x)) : fs.root.get? l' = some x := by
  generalize hspot : Spot.found l' x = spot at h
  induction h with
  | arrived h =>
      cases hspot
      exact h
  | here _ _ ih => exact ih hspot
  | up _ _ ih => exact ih hspot
  | vacant => cases hspot
  | down _ _ _ ih => exact ih hspot
  | file _ h =>
      cases hspot
      exact h
  | link _ h =>
      cases hspot
      exact h
  | through _ _ _ _ ih => exact ih hspot

/-- A trace to a vacant place ends at a directory that does not have the name. -/
theorem Walks.get?_of_vacant {todo : List Bytes} {d : Location} {name : Name}
    (h : Walks fs follow trailing links l todo (.vacant d name)) :
    fs.HasDirectory d ∧ fs.root.get? (d ++ [name]) = none := by
  generalize hspot : Spot.vacant d name = spot at h
  induction h with
  | arrived => cases hspot
  | here _ _ ih => exact ih hspot
  | up _ _ ih => exact ih hspot
  | vacant _ h hnone =>
      cases hspot
      exact ⟨⟨_, h⟩, by rw [Node.get?_concat h, hnone]⟩
  | down _ _ _ ih => exact ih hspot
  | file => cases hspot
  | link => cases hspot
  | through _ _ _ _ ih => exact ih hspot

/-- The parts that a link adds are not empty and hold no separator. -/
theorem linkSteps_spelt (target : Path) : ∀ part ∈ linkSteps target, part ≠ [] ∧ slash ∉ part := by
  intro part hpart
  rcases List.mem_append.mp hpart with hpart | hpart
  · obtain ⟨hmem, hne⟩ := List.mem_filter.mp hpart
    exact ⟨by simpa using hne, not_mem_of_mem_splitOn hmem⟩
  · split at hpart
    · obtain rfl := List.mem_singleton.mp hpart
      exact ⟨by decide, by decide⟩
    · cases hpart

/-- A vacant name is plain. -/
theorem Walks.plain_of_vacant {todo : List Bytes} {d : Location} {name : Name}
    (h : Walks fs follow trailing links l todo (.vacant d name))
    (htodo : ∀ part ∈ todo, part ≠ [] ∧ slash ∉ part) : PlainName name := by
  generalize hspot : Spot.vacant d name = spot at h
  induction h with
  | arrived => cases hspot
  | here _ _ ih => exact ih (fun part h => htodo part (List.mem_cons_of_mem _ h)) hspot
  | up _ _ ih => exact ih (fun part h => htodo part (List.mem_cons_of_mem _ h)) hspot
  | vacant hpart =>
      cases hspot
      obtain ⟨hne, hslash⟩ := htodo name List.mem_cons_self
      exact ⟨hne, hslash, hpart.ne_here, hpart.ne_up⟩
  | down _ _ _ ih => exact ih (fun part h => htodo part (List.mem_cons_of_mem _ h)) hspot
  | file => cases hspot
  | link => cases hspot
  | through _ _ _ _ ih =>
      refine ih (fun part h => ?_) hspot
      rcases List.mem_append.mp h with h | h
      · exact linkSteps_spelt _ part h
      · exact htodo part (List.mem_cons_of_mem _ h)

/-! ## Going on -/

/-- **A walk that comes to a directory goes on from there.** -/
theorem Walks.walk_append {todo : List Bytes} {L : Location} {entries : List (Name × Node)}
    (h : Walks fs follow trailing links l todo (.found L (.directory entries))) :
    ∃ left, ∀ (follow' trailing' : Bool) (more : List Bytes), more ≠ [] →
      fs.walk follow' trailing' links l (todo ++ more) = fs.walk follow' trailing' left L more := by
  generalize hspot : Spot.found L (.directory entries) = spot at h
  induction h with
  | @arrived links =>
      cases hspot
      exact ⟨links, fun _ _ _ _ => rfl⟩
  | here h _ ih =>
      obtain ⟨left, hleft⟩ := ih hspot
      exact ⟨left, fun f t more hmore => (walk_here h _).trans (hleft f t more hmore)⟩
  | up h _ ih =>
      obtain ⟨left, hleft⟩ := ih hspot
      exact ⟨left, fun f t more hmore => (walk_up h _).trans (hleft f t more hmore)⟩
  | vacant => cases hspot
  | down hpart h _ ih =>
      obtain ⟨left, hleft⟩ := ih hspot
      exact ⟨left, fun f t more hmore => (walk_down hpart h _).trans (hleft f t more hmore)⟩
  | file => cases hspot
  | link => cases hspot
  | through hpart h _ _ ih =>
      obtain ⟨left, hleft⟩ := ih hspot
      refine ⟨left, fun f t more hmore => ?_⟩
      rw [List.cons_append,
        walk_through hpart h (.inl (List.append_ne_nil_of_right_ne_nil _ hmore)),
        ← List.append_assoc]
      exact hleft f t more hmore

/-- A walk that comes to a vacant place does not get any further. -/
theorem Walks.walk_of_vacant {todo : List Bytes} {d : Location} {name : Name}
    (h : Walks fs follow trailing links l todo (.vacant d name)) (trailing' : Bool)
    (more : List Bytes) :
    fs.walk true trailing' links l (todo ++ more) =
      if more = [] then .ok (.vacant d name) else .error .notFound := by
  generalize hspot : Spot.vacant d name = spot at h
  induction h with
  | arrived => cases hspot
  | here h _ ih => exact (walk_here h _).trans (ih hspot)
  | up h _ ih => exact (walk_up h _).trans (ih hspot)
  | vacant hpart h hnone =>
      cases hspot
      rw [List.cons_append, List.nil_append, walk_enter hpart h, hnone]
  | down hpart h _ ih => exact (walk_down hpart h _).trans (ih hspot)
  | file => cases hspot
  | link => cases hspot
  | through hpart h _ _ ih =>
      rw [List.cons_append, walk_through hpart h (.inr (.inl rfl)), ← List.append_assoc]
      exact ih hspot

/-- A trace through plain names leads straight down, unless it goes through a link. -/
theorem Walks.location_eq {names : List Name} {spot : Spot}
    (h : Walks fs follow trailing links l names spot) (hplain : ∀ n ∈ names, PlainName n)
    (hlinks : ∀ front, front <+: names → front ≠ names ∨ follow = true ∨ trailing = true →
      ∀ target, fs.root.get? (l ++ front) ≠ some (.link target)) :
    spot.location = l ++ names := by
  induction h with
  | arrived => exact (List.append_nil _).symm
  | here => exact absurd rfl (hplain _ List.mem_cons_self).ne_here
  | up => exact absurd rfl (hplain _ List.mem_cons_self).ne_up
  | vacant => rfl
  | @down links l part rest spot _ _ _ ih =>
      rw [ih (fun n hn => hplain n (List.mem_cons_of_mem _ hn)), List.append_assoc]
      · rfl
      · intro front hfront hends target
        rw [List.append_assoc]
        refine hlinks (part :: front) ((List.prefix_cons_inj part).mpr hfront) ?_ target
        exact hends.imp_left fun hne heq => hne (List.cons.inj heq).2
  | file => rfl
  | link => rfl
  | @through links l part rest target spot _ h hgoes =>
      refine absurd h (hlinks [part] ((List.prefix_cons_inj part).mpr List.nil_prefix) ?_ target)
      exact hgoes.imp_left fun hne heq => hne (List.cons.inj heq).2.symm

/-- A trace through plain names that meets no link does not depend on whether a link at its end is
followed. -/
theorem Walks.of_unlinked {names : List Name} {spot : Spot}
    (h : Walks fs follow trailing links l names spot) (hplain : ∀ n ∈ names, PlainName n)
    (hlinks : ∀ front, front <+: names → ∀ target, fs.root.get? (l ++ front) ≠ some (.link target))
    (follow' : Bool) : Walks fs follow' trailing links l names spot := by
  induction h with
  | arrived h => exact .arrived h
  | here => exact absurd rfl (hplain _ List.mem_cons_self).ne_here
  | up => exact absurd rfl (hplain _ List.mem_cons_self).ne_up
  | vacant hpart h hnone => exact .vacant hpart h hnone
  | @down links l part rest spot hpart h _ ih =>
      refine .down hpart h (ih (fun n hn => hplain n (List.mem_cons_of_mem _ hn)) fun front hfront target => ?_)
      rw [List.append_assoc]
      exact hlinks (part :: front) ((List.prefix_cons_inj part).mpr hfront) target
  | file hpart h htrailing => exact .file hpart h htrailing
  | link _ h => exact absurd h (hlinks _ (List.prefix_refl _) _)
  | through _ h => exact absurd h (hlinks _ ((List.prefix_cons_inj _).mpr List.nil_prefix) _)

/-- Only a trace that need not follow it ends at a link, and a link is an entry. -/
theorem Walks.of_link {todo : List Bytes} {L : Location} {target : Path}
    (h : Walks fs follow trailing links l todo (.found L (.link target))) :
    follow = false ∧ trailing = false ∧ L ≠ [] := by
  generalize hspot : Spot.found L (.link target) = spot at h
  induction h with
  | arrived => cases hspot
  | here _ _ ih => exact ih hspot
  | up _ _ ih => exact ih hspot
  | vacant => cases hspot
  | down _ _ _ ih => exact ih hspot
  | file => cases hspot
  | link _ _ hfollow htrailing =>
      cases hspot
      exact ⟨hfollow, htrailing, List.append_ne_nil_of_right_ne_nil _ (List.cons_ne_nil _ _)⟩
  | through _ _ _ _ ih => exact ih hspot

/-- A trace of nothing but `.` stays where it is. -/
theorem Walks.location_of_stays {todo : List Bytes} {spot : Spot}
    (h : Walks fs follow trailing links l todo spot) (hstays : ∀ part ∈ todo, part = [fullStop]) :
    spot.location = l := by
  induction h with
  | arrived => rfl
  | here _ _ ih => exact ih fun part h => hstays part (List.mem_cons_of_mem _ h)
  | up => cases hstays _ List.mem_cons_self
  | vacant hpart => exact absurd (hstays _ List.mem_cons_self) hpart.ne_here
  | down hpart => exact absurd (hstays _ List.mem_cons_self) hpart.ne_here
  | file hpart => exact absurd (hstays _ List.mem_cons_self) hpart.ne_here
  | link hpart => exact absurd (hstays _ List.mem_cons_self) hpart.ne_here
  | through hpart => exact absurd (hstays _ List.mem_cons_self) hpart.ne_here

/-- A trace leads down, unless it goes up or through a link. -/
theorem Walks.prefix_location {todo : List Bytes} {spot : Spot}
    (h : Walks fs follow trailing links l todo spot) (hup : [fullStop, fullStop] ∉ todo)
    (hlinks : ∀ below target, fs.root.get? (l ++ below) ≠ some (.link target)) :
    l <+: spot.location := by
  induction h with
  | arrived => exact List.prefix_refl _
  | here _ _ ih => exact ih (fun h => hup (List.mem_cons_of_mem _ h)) hlinks
  | up => exact absurd List.mem_cons_self hup
  | vacant => exact List.prefix_append _ _
  | @down _ l part _ _ _ _ _ ih =>
      refine (List.prefix_append l [part]).trans (ih (fun h => hup (List.mem_cons_of_mem _ h)) ?_)
      intro below target
      rw [List.append_assoc]
      exact hlinks _ target
  | file => exact List.prefix_append _ _
  | link => exact List.prefix_append _ _
  | through _ h => exact absurd h (hlinks _ _)

/-- A trace to neither a file nor a link goes there in every way of following that goes through as many
links. -/
theorem Walks.of_more {todo : List Bytes} {spot : Spot} (h : Walks fs follow trailing links l todo spot)
    (hopen : spot.isOpen = true) {follow' trailing' : Bool}
    (hmore : follow = true ∨ trailing = true → follow' = true ∨ trailing' = true) :
    Walks fs follow' trailing' links l todo spot := by
  induction h with
  | arrived h => exact .arrived h
  | here h _ ih => exact .here h (ih hopen)
  | up h _ ih => exact .up h (ih hopen)
  | vacant hpart h hnone => exact .vacant hpart h hnone
  | down hpart h _ ih => exact .down hpart h (ih hopen)
  | file => cases hopen
  | link => cases hopen
  | through hpart h hgoes _ ih => exact .through hpart h (hgoes.imp_right hmore) (ih hopen)

/-- Where a directory is reached, something is reached without following a link at the end. -/
theorem Walks.unfollowed {todo : List Bytes} {L : Location} {entries : List (Name × Node)}
    (h : Walks fs follow trailing links l todo (.found L (.directory entries))) (trailing' : Bool) :
    ∃ L' x, Walks fs false trailing' links l todo (.found L' x) := by
  generalize hspot : Spot.found L (.directory entries) = spot at h
  induction h with
  | arrived h => exact ⟨_, _, .arrived h⟩
  | here h _ ih =>
      obtain ⟨L', x, hwalks⟩ := ih hspot
      exact ⟨L', x, .here h hwalks⟩
  | up h _ ih =>
      obtain ⟨L', x, hwalks⟩ := ih hspot
      exact ⟨L', x, .up h hwalks⟩
  | vacant => cases hspot
  | down hpart h _ ih =>
      obtain ⟨L', x, hwalks⟩ := ih hspot
      exact ⟨L', x, .down hpart h hwalks⟩
  | file => cases hspot
  | link => cases hspot
  | @through _ _ _ rest _ _ hpart h _ _ ih =>
      obtain ⟨L', x, hwalks⟩ := ih hspot
      by_cases hrest : rest = []
      · -- the link stands at the end: it is reached itself, unless a directory has to stand there
        cases trailing' with
        | true => exact ⟨L', x, .through hpart h (.inr (.inr rfl)) hwalks⟩
        | false =>
            subst hrest
            exact ⟨_, _, .link hpart h rfl rfl⟩
      · exact ⟨L', x, .through hpart h (.inl hrest) hwalks⟩

/-- What something is below is a directory. -/
theorem hasDirectory_above {part : Bytes} {x : Node} (h : fs.root.get? (l ++ [part]) = some x) :
    fs.HasDirectory l := by
  obtain ⟨entries, hhere, -⟩ := Node.directory_of_get?_concat h
  exact ⟨entries, hhere⟩

/-- A walk passes a directory wherever it goes on. -/
theorem Walks.passes {todo more : List Bytes} {spot : Spot}
    (h : Walks fs follow trailing links l (todo ++ more) spot) (hmore : more ≠ []) (trailing' : Bool) :
    ∃ L entries, Walks fs true trailing' links l todo (.found L (.directory entries)) := by
  have hstop {links : Nat} {l : Location} (h : fs.HasDirectory l) :
      ∃ L entries, Walks fs true trailing' links l [] (.found L (.directory entries)) := by
    obtain ⟨entries, h⟩ := h
    exact ⟨l, entries, .arrived h⟩
  have hlast {rest : List Bytes} : [] ≠ rest ++ more := (List.append_ne_nil_of_right_ne_nil rest hmore).symm
  generalize hall : todo ++ more = all at h
  induction h generalizing todo with
  | arrived h => exact absurd hall.symm hlast
  | here h _ ih =>
      rcases List.append_eq_cons_iff.mp hall with ⟨rfl, -⟩ | ⟨rest, rfl, hrest⟩
      · exact hstop h
      · obtain ⟨L, entries, hwalks⟩ := ih hrest.symm
        exact ⟨L, entries, .here h hwalks⟩
  | up h _ ih =>
      rcases List.append_eq_cons_iff.mp hall with ⟨rfl, -⟩ | ⟨rest, rfl, hrest⟩
      · exact hstop h
      · obtain ⟨L, entries, hwalks⟩ := ih hrest.symm
        exact ⟨L, entries, .up h hwalks⟩
  | vacant _ h _ =>
      rcases List.append_eq_cons_iff.mp hall with ⟨rfl, -⟩ | ⟨rest, rfl, hrest⟩
      · exact hstop ⟨_, h⟩
      · exact absurd hrest hlast
  | down hpart h _ ih =>
      rcases List.append_eq_cons_iff.mp hall with ⟨rfl, -⟩ | ⟨rest, rfl, hrest⟩
      · obtain ⟨below, hbelow⟩ := h
        exact hstop (hasDirectory_above hbelow)
      · obtain ⟨L, entries, hwalks⟩ := ih hrest.symm
        exact ⟨L, entries, .down hpart h hwalks⟩
  | file _ h _ =>
      rcases List.append_eq_cons_iff.mp hall with ⟨rfl, -⟩ | ⟨rest, rfl, hrest⟩
      · exact hstop (hasDirectory_above h)
      · exact absurd hrest hlast
  | link _ h _ _ =>
      rcases List.append_eq_cons_iff.mp hall with ⟨rfl, -⟩ | ⟨rest, rfl, hrest⟩
      · exact hstop (hasDirectory_above h)
      · exact absurd hrest hlast
  | through hpart h _ _ ih =>
      rcases List.append_eq_cons_iff.mp hall with ⟨rfl, -⟩ | ⟨rest, rfl, hrest⟩
      · exact hstop (hasDirectory_above h)
      · obtain ⟨L, entries, hwalks⟩ := ih (by rw [hrest, List.append_assoc])
        exact ⟨L, entries, .through hpart h (.inr (.inl rfl)) hwalks⟩

/-! ## Changes that keep what exists -/

/-- Whatever exists in one file system stands at the same location in the other one, looking the
same. -/
structure Kept (fs fs' : FileSystem) : Prop where
  /-- Both have the same working directory. -/
  cwd : fs'.cwd = fs.cwd
  /-- What exists looks the same. -/
  face : ∀ l x, fs.root.get? l = some x → (fs'.root.get? l).map Node.face = some x.face

theorem Kept.refl (fs : FileSystem) : Kept fs fs :=
  ⟨rfl, fun _ _ h => congrArg (Option.map Node.face) h⟩

/-- What exists still does, and looks the same. -/
theorem Kept.exists {fs' : FileSystem} (h : Kept fs fs') {x : Node} (hx : fs.root.get? l = some x) :
    ∃ x', fs'.root.get? l = some x' ∧ x'.face = x.face :=
  Option.map_eq_some_iff.mp (h.face l x hx)

theorem Kept.trans {fs₁ fs₂ fs₃ : FileSystem} (h : Kept fs₁ fs₂) (h' : Kept fs₂ fs₃) :
    Kept fs₁ fs₃ := by
  refine ⟨h'.cwd.trans h.cwd, fun l x hx => ?_⟩
  obtain ⟨x', hx', hface⟩ := h.exists hx
  rw [h'.face l x' hx', hface]

theorem Kept.hasDirectory {fs' : FileSystem} (h : Kept fs fs') (hl : fs.HasDirectory l) :
    fs'.HasDirectory l := by
  obtain ⟨entries, hl⟩ := hl
  obtain ⟨x, hx, hface⟩ := h.exists hl
  obtain ⟨entries', rfl⟩ := Node.eq_directory_of_face hface
  exact ⟨entries', hx⟩

/-- **Traces to nodes are kept.** -/
theorem Walks.kept {fs' : FileSystem} (hkept : Kept fs fs') {todo : List Bytes} {l' : Location}
    {x : Node} (h : Walks fs follow trailing links l todo (.found l' x)) :
    ∃ x', x'.face = x.face ∧ Walks fs' follow trailing links l todo (.found l' x') := by
  generalize hspot : Spot.found l' x = spot at h
  induction h with
  | arrived h =>
      cases hspot
      obtain ⟨entries', h'⟩ := hkept.hasDirectory ⟨_, h⟩
      exact ⟨.directory entries', rfl, .arrived h'⟩
  | here h _ ih =>
      obtain ⟨x', hface, hwalks⟩ := ih hspot
      exact ⟨x', hface, .here (hkept.hasDirectory h) hwalks⟩
  | up h _ ih =>
      obtain ⟨x', hface, hwalks⟩ := ih hspot
      exact ⟨x', hface, .up (hkept.hasDirectory h) hwalks⟩
  | vacant => cases hspot
  | down hpart h _ ih =>
      obtain ⟨x', hface, hwalks⟩ := ih hspot
      exact ⟨x', hface, .down hpart (hkept.hasDirectory h) hwalks⟩
  | file hpart h htrailing =>
      cases hspot
      obtain ⟨x', hx', hface⟩ := hkept.exists h
      obtain rfl := Node.eq_file_of_face hface
      exact ⟨_, rfl, .file hpart hx' htrailing⟩
  | link hpart h hfollow htrailing =>
      cases hspot
      obtain ⟨x', hx', hface⟩ := hkept.exists h
      obtain rfl := Node.eq_link_of_face hface
      exact ⟨_, rfl, .link hpart hx' hfollow htrailing⟩
  | through hpart h hgoes _ ih =>
      obtain ⟨x', hface, hwalks⟩ := ih hspot
      obtain ⟨y, hy, hlink⟩ := hkept.exists h
      obtain rfl := Node.eq_link_of_face hlink
      exact ⟨x', hface, .through hpart hy hgoes hwalks⟩

/-- A trace to a vacant place leads to the directory that is put there. -/
theorem Walks.of_vacant {fs' : FileSystem} (hkept : Kept fs fs') {todo : List Bytes} {d : Location} {name : Name}
    (h : Walks fs follow trailing links l todo (.vacant d name)) {entries : List (Name × Node)}
    (hnew : fs'.root.get? (d ++ [name]) = some (.directory entries)) {follow' trailing' : Bool}
    (hmore : follow = true ∨ trailing = true → follow' = true ∨ trailing' = true) :
    Walks fs' follow' trailing' links l todo (.found (d ++ [name]) (.directory entries)) := by
  generalize hspot : Spot.vacant d name = spot at h
  induction h with
  | arrived => cases hspot
  | here h _ ih => exact .here (hkept.hasDirectory h) (ih hspot)
  | up h _ ih => exact .up (hkept.hasDirectory h) (ih hspot)
  | vacant hpart =>
      cases hspot
      exact .down hpart ⟨entries, hnew⟩ (.arrived hnew)
  | down hpart h _ ih => exact .down hpart (hkept.hasDirectory h) (ih hspot)
  | file => cases hspot
  | link => cases hspot
  | through hpart h hgoes _ ih =>
      obtain ⟨y, hy, hlink⟩ := hkept.exists h
      obtain rfl := Node.eq_link_of_face hlink
      exact .through hpart hy (hgoes.imp_right hmore) (ih hspot)

/-! ## Paths -/

/-- Where a path starts. -/
def start (fs : FileSystem) (p : Path) : Location := if p.isAbsolute then [] else fs.cwd

/-- A path whose spelling the operating system accepts. -/
structure Accepted (p : Path) : Prop where
  no_nul : 0 ∉ p.bytes
  ne_nil : p.bytes ≠ []
  short : p.bytes.length ≤ pathLimit

/-- The start of a path that is accepted is accepted, if it is not empty. -/
theorem Accepted.of_prefix {p q : Path} (h : Accepted q) (hbegins : p.bytes <+: q.bytes) (hne : p.bytes ≠ []) :
    Accepted p :=
  ⟨fun hnul => h.no_nul (hbegins.subset hnul), hne, Nat.le_trans hbegins.length_le h.short⟩

/-- An accepted path is walked from where paths start. -/
theorem locateWith_of_accepted {p : Path} (h : Accepted p) :
    fs.locateWith follow trailing p = fs.walk follow trailing linkLimit (fs.start p) (steps p) := by
  unfold locateWith
  rw [if_neg h.no_nul, if_neg h.ne_nil, if_neg (Nat.not_lt.mpr h.short)]
  rfl

/-- A path leads somewhere exactly if it is accepted and there is a walk along it. -/
theorem locateWith_eq_ok {p : Path} {spot : Spot} :
    fs.locateWith follow trailing p = .ok spot ↔
      Accepted p ∧ Walks fs follow trailing linkLimit (fs.start p) (steps p) spot := by
  constructor
  · intro h
    have haccepted : Accepted p := by
      unfold locateWith at h
      split at h
      · cases h
      · next hnul =>
        split at h
        · cases h
        · next hnil =>
          split at h
          · cases h
          · next hlong => exact ⟨hnul, hnil, Nat.not_lt.mp hlong⟩
    rw [locateWith_of_accepted haccepted] at h
    exact ⟨haccepted, walks_of_walk h⟩
  · rintro ⟨haccepted, hwalks⟩
    rw [locateWith_of_accepted haccepted, hwalks.walk_eq]

/-- A path that leads to neither a file nor a link leads there in every way of following that goes
through as many links. -/
theorem locateWith_of_more {p : Path} {spot : Spot} (h : fs.locateWith follow trailing p = .ok spot)
    (hopen : spot.isOpen = true) {follow' trailing' : Bool}
    (hmore : follow = true ∨ trailing = true → follow' = true ∨ trailing' = true) :
    fs.locateWith follow' trailing' p = .ok spot := by
  obtain ⟨haccepted, hwalks⟩ := locateWith_eq_ok.mp h
  exact locateWith_eq_ok.mpr ⟨haccepted, hwalks.of_more hopen hmore⟩

/-- A path that leads to a directory leads there with links followed as well. -/
theorem locateWith_followed {p : Path} {L : Location} {entries : List (Name × Node)}
    (h : fs.locateWith follow trailing p = .ok (.found L (.directory entries))) (trailing' : Bool) :
    fs.locateWith true trailing' p = .ok (.found L (.directory entries)) :=
  locateWith_of_more h rfl fun _ => .inl rfl

/-- A path that leads to a directory leads to something without following a link at its end. -/
theorem exists_locateWith_unfollowed {p : Path} {L : Location} {entries : List (Name × Node)}
    (h : fs.locateWith follow trailing p = .ok (.found L (.directory entries))) (trailing' : Bool) :
    ∃ L' x, fs.locateWith false trailing' p = .ok (.found L' x) := by
  obtain ⟨haccepted, hwalks⟩ := locateWith_eq_ok.mp h
  obtain ⟨L', x, hwalks'⟩ := hwalks.unfollowed trailing'
  exact ⟨L', x, locateWith_eq_ok.mpr ⟨haccepted, hwalks'⟩⟩

/-- A path leads to a node if following all links ends there. -/
theorem node_eq_ok {p : Path} {x : Node} :
    fs.node p = .ok x ↔ ∃ l, fs.locate true p = .ok (.found l x) := by
  unfold node
  constructor
  · intro h
    cases hspot : fs.locate true p with
    | error f =>
        rw [hspot] at h
        cases h
    | ok spot =>
        rw [hspot] at h
        cases spot with
        | found l y =>
            obtain rfl := Except.ok.inj h
            exact ⟨l, rfl⟩
        | vacant d name => cases h
  · rintro ⟨l, hspot⟩
    rw [hspot]
    rfl

/-- A path is resolved to the location that following all links ends at. -/
theorem canonical_eq_ok {p : Path} : fs.canonical p = .ok l ↔ ∃ x, fs.locate true p = .ok (.found l x) := by
  unfold canonical
  cases fs.locate true p with
  | error f => exact ⟨nofun, nofun⟩
  | ok spot =>
      cases spot with
      | found l' x =>
          constructor
          · intro h
            obtain rfl := Except.ok.inj h
            exact ⟨x, rfl⟩
          · rintro ⟨y, hy⟩
            obtain ⟨rfl, -⟩ := Spot.found.inj (Except.ok.inj hy)
            rfl
      | vacant d name => exact ⟨nofun, nofun⟩

/-- A path can be listed exactly if it leads to a directory. -/
theorem list_eq_ok {p : Path} {entries : List (Name × Node)} :
    fs.list p = .ok entries ↔ ∃ l, fs.locate true p = .ok (.found l (.directory entries)) := by
  rw [← node_eq_ok]
  unfold list
  cases hnode : fs.node p with
  | error f => exact ⟨nofun, nofun⟩
  | ok x =>
      cases x with
      | directory below =>
          exact ⟨fun h => congrArg (fun es => Except.ok (Node.directory es)) (Except.ok.inj h),
            fun h => congrArg Except.ok (Node.directory.inj (Except.ok.inj h))⟩
      | file contents => exact ⟨nofun, nofun⟩
      | link target => exact ⟨nofun, nofun⟩

/-- The entries of a directory in a tidy tree are tidy. -/
theorem tidy_of_list (htidy : fs.root.Tidy) {p : Path} {entries : List (Name × Node)}
    (h : fs.list p = .ok entries) : (Node.directory entries).Tidy := by
  obtain ⟨l, hlocate⟩ := list_eq_ok.mp h
  exact (htidy.of_get? (locateWith_eq_ok.mp hlocate).2.get?_of_found).2

/-- A path can be read exactly if it leads to a file. -/
theorem read_eq_ok {p : Path} {bytes : Bytes} :
    fs.read p = .ok bytes ↔ ∃ l, fs.locate true p = .ok (.found l (.file bytes)) := by
  rw [← node_eq_ok]
  unfold read
  cases fs.node p with
  | error f => exact ⟨nofun, nofun⟩
  | ok x =>
      cases x with
      | file contents =>
          exact ⟨fun h => congrArg (fun bytes => Except.ok (Node.file bytes)) (Except.ok.inj h),
            fun h => congrArg Except.ok (Node.file.inj (Except.ok.inj h))⟩
      | link target => exact ⟨nofun, nofun⟩
      | directory entries => exact ⟨nofun, nofun⟩

/-- A file can be read. -/
theorem exists_read_of_isFile {p : Path} (h : fs.isFile p = true) : ∃ bytes, fs.read p = .ok bytes := by
  unfold isFile at h
  split at h
  · next x hx =>
    obtain ⟨l, hl⟩ := node_eq_ok.mp hx
    cases x with
    | file bytes => exact ⟨bytes, read_eq_ok.mpr ⟨l, hl⟩⟩
    | link target => cases h
    | directory entries => cases h
  · cases h

/-- What can be read is a file. -/
theorem isFile_of_read {p : Path} {bytes : Bytes} (h : fs.read p = .ok bytes) : fs.isFile p = true := by
  obtain ⟨l, hl⟩ := read_eq_ok.mp h
  unfold isFile
  rw [node_eq_ok.mpr ⟨l, hl⟩]
  rfl

/-- A path is that of a directory if following all links ends at one. -/
theorem isDirectory_eq_true {p : Path} :
    fs.isDirectory p = true ↔
      ∃ l entries, fs.locate true p = .ok (.found l (.directory entries)) := by
  unfold isDirectory
  constructor
  · intro h
    split at h
    · next x hx =>
      obtain ⟨l, hl⟩ := node_eq_ok.mp hx
      cases x with
      | directory entries => exact ⟨l, entries, hl⟩
      | file contents => cases h
      | link target => cases h
    · cases h
  · rintro ⟨l, entries, hl⟩
    rw [node_eq_ok.mpr ⟨l, hl⟩]
    rfl

theorem Kept.start_eq {fs' : FileSystem} (h : Kept fs fs') (p : Path) : fs'.start p = fs.start p := by
  unfold start
  rw [h.cwd]

/-- A path that leads to a node still leads to the same location. -/
theorem Kept.locateWith {fs' : FileSystem} (h : Kept fs fs') {p : Path} {x : Node}
    (hx : fs.locateWith follow trailing p = .ok (.found l x)) :
    ∃ x', x'.face = x.face ∧ fs'.locateWith follow trailing p = .ok (.found l x') := by
  obtain ⟨haccepted, hwalks⟩ := locateWith_eq_ok.mp hx
  obtain ⟨x', hface, hwalks'⟩ := hwalks.kept h
  refine ⟨x', hface, locateWith_eq_ok.mpr ⟨haccepted, ?_⟩⟩
  rw [h.start_eq]
  exact hwalks'

/-- **In a directory every name leads somewhere**, unless the spelling is refused. -/
theorem exists_locate_joinBytes {q : Path} (hq : fs.isDirectory q = true) {n : Name} (hn : PlainName n)
    (hshort : n.length ≤ nameLimit) (haccepted : Accepted (q.joinBytes n)) :
    ∃ spot, fs.locateWith false false (q.joinBytes n) = .ok spot := by
  obtain ⟨l, entries, hl⟩ := isDirectory_eq_true.mp hq
  obtain ⟨-, hwalks⟩ := locateWith_eq_ok.mp hl
  obtain ⟨left, hleft⟩ := hwalks.walk_append
  have hstart : fs.start (q.joinBytes n) = fs.start q := by
    unfold start
    rw [q.isAbsolute_joinBytes hn]
  rw [locateWith_of_accepted haccepted, hstart, steps_joinBytes q hn,
    hleft false false [n] (List.cons_ne_nil n []),
    walk_enter ⟨hn.ne_here, hn.ne_up, hshort⟩ hwalks.get?_of_found]
  cases hchild : entries.lookup n with
  | none => exact ⟨_, rfl⟩
  | some x =>
      cases x with
      | file contents => exact ⟨_, rfl⟩
      | link target => exact ⟨_, rfl⟩
      | directory below =>
          have hbelow : fs.root.get? (l ++ [n]) = some (.directory below) := by
            rw [Node.get?_concat hwalks.get?_of_found, hchild]
          exact ⟨_, walk_arrived hbelow⟩

/-- A file still has its contents. -/
theorem Kept.read {fs' : FileSystem} (h : Kept fs fs') {p : Path} {bytes : Bytes} (hp : fs.read p = .ok bytes) :
    fs'.read p = .ok bytes := by
  obtain ⟨l, hl⟩ := read_eq_ok.mp hp
  obtain ⟨x, hface, hx⟩ := h.locateWith hl
  obtain rfl := Node.eq_file_of_face hface
  exact read_eq_ok.mpr ⟨l, hx⟩

/-- A directory is still a directory. -/
theorem Kept.isDirectory {fs' : FileSystem} (h : Kept fs fs') {p : Path} (hp : fs.isDirectory p = true) :
    fs'.isDirectory p = true := by
  obtain ⟨l, entries, hl⟩ := isDirectory_eq_true.mp hp
  obtain ⟨x, hface, hx⟩ := h.locateWith hl
  obtain ⟨entries', rfl⟩ := Node.eq_directory_of_face hface
  exact isDirectory_eq_true.mpr ⟨l, entries', hx⟩

/-- A file is still a file. -/
theorem Kept.isFile {fs' : FileSystem} (h : Kept fs fs') {p : Path} (hp : fs.isFile p = true) :
    fs'.isFile p = true := by
  unfold FileSystem.isFile at hp ⊢
  cases hnode : fs.node p with
  | error f => simp [hnode] at hp
  | ok x =>
      obtain ⟨l, hl⟩ := node_eq_ok.mp hnode
      obtain ⟨x', hface, hl'⟩ := h.locateWith hl
      rw [node_eq_ok.mpr ⟨l, hl'⟩]
      rw [hnode] at hp
      cases x with
      | file contents =>
          obtain rfl := Node.eq_file_of_face hface
          rfl
      | link target => cases hp
      | directory entries => cases hp

end FileSystem

end LiveUnits
