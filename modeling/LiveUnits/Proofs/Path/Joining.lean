import Mathlib.Data.List.Basic
import Mathlib.Data.List.Induction
import LiveUnits.FileSystem.Walk
import LiveUnits.Identity.Spelling

/-!
# Joining paths

A plain name is one that a directory may use for an entry: not empty, without a separator, and neither
`.` nor `..`.  Joining a plain name to a path adds one component and one step to it, whatever the
spelling of the path (`Path.components_joinBytes`, `FileSystem.steps_joinBytes`), and going down
through several names can be done at once (`Path.join_descend`).
-/

namespace LiveUnits

section Splitting

variable {α : Type} [DecidableEq α] {sep : α}

/-- Without separators there is one part. -/
theorem splitOn_of_not_mem {part : List α} (h : sep ∉ part) : splitOn sep part = [part] := by
  have hparts := parts_append h []
  rw [List.append_nil] at hparts
  simp [splitOn, hparts, parts]

/-- A list is cut at each separator in it. -/
theorem splitOn_append_sep (xs ys : List α) :
    splitOn sep (xs ++ sep :: ys) = splitOn sep xs ++ splitOn sep ys := by
  induction xs with
  | nil => simp [splitOn, parts]
  | cons x xs ih =>
      simp only [splitOn, List.cons_append, parts, List.cons.injEq] at ih ⊢
      by_cases hx : x = sep
      · simp [hx, ih]
      · simp [hx, ih]

/-- Parts have no separators. -/
theorem not_mem_of_mem_splitOn {xs part : List α} (h : part ∈ splitOn sep xs) : sep ∉ part := by
  induction xs generalizing part with
  | nil =>
      obtain rfl := List.mem_singleton.mp h
      exact List.not_mem_nil
  | cons x xs ih =>
      simp only [splitOn, List.mem_cons] at ih
      by_cases hx : x = sep
      · simp only [splitOn, parts, hx, if_true, List.mem_cons] at h
        rcases h with rfl | h
        · exact List.not_mem_nil
        · exact ih h
      · simp only [splitOn, parts, hx, if_false, List.mem_cons] at h
        rcases h with rfl | h
        · rw [List.mem_cons, not_or]
          exact ⟨fun heq => hx heq.symm, ih (.inl rfl)⟩
        · exact ih (.inr h)

omit [DecidableEq α] in
/-- What is in joined parts is a separator or in one of the parts. -/
theorem mem_of_mem_intercalate {a : α} {l : List (List α)}
    (h : a ∈ [sep].intercalate l) : a = sep ∨ ∃ part ∈ l, a ∈ part := by
  induction l with
  | nil => cases h
  | cons part rest ih =>
      cases rest with
      | nil =>
          rw [List.intercalate_singleton] at h
          exact .inr ⟨part, List.mem_cons_self, h⟩
      | cons next more =>
          rw [List.intercalate_cons_cons, List.mem_append, List.mem_append, List.mem_singleton] at h
          rcases h with (h | h) | h
          · exact .inr ⟨part, List.mem_cons_self, h⟩
          · exact .inl h
          · refine (ih h).imp_right fun ⟨other, hother, ha⟩ => ?_
            exact ⟨other, List.mem_cons_of_mem part hother, ha⟩

/-- What stands before and after the last separator is found. -/
theorem splitLast_append {before after : List α} (h : sep ∉ after) :
    splitLast sep (before ++ sep :: after) = some (before, after) := by
  have hafter : (before ++ sep :: after).reverse.takeWhile (· ≠ sep) = after.reverse := by
    have hkeep : ∀ x ∈ after.reverse, decide (x ≠ sep) = true := by
      intro x hx
      refine decide_eq_true ?_
      rintro rfl
      exact h (List.mem_reverse.mp hx)
    rw [List.reverse_append, List.reverse_cons, List.append_assoc,
      List.takeWhile_append_of_pos hkeep]
    simp
  unfold splitLast
  rw [if_pos (by simp), hafter, List.reverse_reverse]
  simp only [List.length_append, List.length_cons, Option.some.injEq, Prod.mk.injEq, and_true]
  rw [show before.length + (after.length + 1) - after.length - 1 = before.length by omega,
    List.take_left]

/-- Splitting at the last separator loses nothing but this one. -/
theorem eq_of_splitLast {xs before after : List α} (h : splitLast sep xs = some (before, after)) :
    xs = before ++ sep :: after ∧ sep ∉ after := by
  have hmem : sep ∈ xs := by
    unfold splitLast at h
    split at h
    · assumption
    · cases h
  obtain ⟨last, first, hreverse, hlast⟩ := List.eq_append_cons_of_mem (List.mem_reverse.mpr hmem)
  have hxs : xs = first.reverse ++ sep :: last.reverse := by
    have hback := congrArg List.reverse hreverse
    simpa using hback
  have hlast' : sep ∉ last.reverse := fun hsep => hlast (List.mem_reverse.mp hsep)
  rw [hxs, splitLast_append hlast'] at h
  obtain ⟨rfl, rfl⟩ := by simpa using h
  exact ⟨hxs, hlast'⟩

end Splitting

/-- A name that a directory may use for an entry. -/
structure PlainName (n : Name) : Prop where
  /-- It is not empty. -/
  ne_nil : n ≠ []
  /-- It is in one piece. -/
  no_slash : slash ∉ n
  /-- It is not `.`. -/
  ne_here : n ≠ [fullStop]
  /-- It is not `..`. -/
  ne_up : n ≠ [fullStop, fullStop]

namespace Path

/-- A plain name is a component. -/
theorem ofPart?_of_plain {n : Name} (h : PlainName n) : Component.ofPart? n = some (.name n) := by
  unfold Component.ofPart?
  rw [if_neg (not_or.mpr ⟨h.ne_nil, h.ne_here⟩), if_neg h.ne_up]

/-! ## Bodies and heads -/

/-- The components of a path but for what its beginning stands for. -/
def body (bytes : Bytes) : List Component := (splitOn slash bytes).filterMap Component.ofPart?

/-- What the beginning of a path stands for. -/
def head (p : Path) : List Component :=
  if p.isAbsolute then [.root] else if p.parts.head? = some [fullStop] then [.here] else []

/-- The components of a path are its head and its body. -/
theorem components_eq (p : Path) : p.components = p.head ++ body p.bytes := by
  unfold components head body parts
  split
  · rfl
  · split <;> rfl

/-- Bodies on both sides of a separator are put together. -/
theorem body_append_slash (xs ys : Bytes) : body (xs ++ slash :: ys) = body xs ++ body ys := by
  unfold body
  rw [splitOn_append_sep, List.filterMap_append]

theorem body_nil : body [] = [] := rfl

/-- The root is no part of a path. -/
theorem root_not_mem_body (bytes : Bytes) : .root ∉ body bytes := by
  intro hmem
  obtain ⟨part, -, hpart⟩ := List.mem_filterMap.mp hmem
  unfold Component.ofPart? at hpart
  split_ifs at hpart <;> cases hpart

/-- One part is one component, or none. -/
theorem body_of_part {part : Bytes} (hpart : slash ∉ part) :
    body part = (Component.ofPart? part).toList := by
  unfold body
  rw [splitOn_of_not_mem hpart, List.filterMap_cons]
  cases Component.ofPart? part <;> rfl

/-- What follows a separator does not change what the beginning of a path stands for. -/
theorem head_append_slash {xs : Bytes} (h : xs ≠ []) (ys : Bytes) :
    head ⟨xs ++ slash :: ys⟩ = head ⟨xs⟩ := by
  unfold head isAbsolute parts
  obtain ⟨a, rest, rfl⟩ := List.exists_cons_of_ne_nil h
  rw [splitOn_append_sep]
  rfl

/-- A part that is no dot has no head. -/
theorem head_of_part {part : Bytes} (hpart : slash ∉ part) (hhere : part ≠ [fullStop]) :
    head ⟨part⟩ = [] := by
  unfold head isAbsolute parts
  rw [splitOn_of_not_mem hpart]
  have hfirst : part.head? ≠ some slash := fun hslash => hpart (List.mem_of_head? hslash)
  simp [hfirst, hhere]

/-! ## Joining one name -/

/-- Joining a part that stands for a component adds the component. -/
theorem components_joinPart (p : Path) {part : Bytes} (hpart : slash ∉ part) {c : Component}
    (hc : Component.ofPart? part = some c) :
    (p.joinBytes part).components = p.components ++ [c] := by
  have hbody : body part = [c] := by
    rw [body_of_part hpart, hc]
    rfl
  have hhere : part ≠ [fullStop] := by
    rintro rfl
    cases hc
  obtain ⟨bytes⟩ := p
  unfold joinBytes
  split
  · next h =>
    rcases h with rfl | h
    · rw [List.nil_append, components_eq, components_eq, head_of_part hpart hhere, hbody]
      rfl
    · obtain ⟨front, rfl⟩ := List.getLast?_eq_some_iff.mp h
      rw [List.append_assoc, List.singleton_append, components_eq, components_eq,
        body_append_slash, body_append_slash, body_nil, hbody, List.append_nil,
        ← List.append_assoc]
      cases front with
      | nil => rfl
      | cons a rest =>
          rw [head_append_slash (List.cons_ne_nil a rest), head_append_slash (List.cons_ne_nil a rest)]
  · next h =>
    rw [not_or] at h
    rw [components_eq, components_eq, body_append_slash, hbody, head_append_slash h.1,
      List.append_assoc]

/-- Joining a name adds a component. -/
theorem components_joinBytes (p : Path) {n : Name} (hn : PlainName n) :
    (p.joinBytes n).components = p.components ++ [.name n] :=
  p.components_joinPart hn.no_slash (ofPart?_of_plain hn)

end Path

namespace FileSystem

open LiveUnits.Path

/-- Steps on both sides of a separator are taken one after the other. -/
theorem steps_append_slash (xs ys : Bytes) :
    steps ⟨xs ++ slash :: ys⟩ = steps ⟨xs⟩ ++ steps ⟨ys⟩ := by
  unfold steps Path.parts
  rw [splitOn_append_sep, List.filter_append]

/-- A plain name is one step. -/
theorem steps_of_plain {n : Name} (h : PlainName n) : steps ⟨n⟩ = [n] := by
  unfold steps Path.parts
  rw [splitOn_of_not_mem h.no_slash, List.filter_cons_of_pos (by simpa using h.ne_nil)]
  rfl

/-- Joining a name adds a step. -/
theorem steps_joinBytes (p : Path) {n : Name} (hn : PlainName n) :
    steps (p.joinBytes n) = steps p ++ [n] := by
  obtain ⟨bytes⟩ := p
  unfold joinBytes
  split
  · next h =>
    rcases h with rfl | h
    · exact steps_of_plain hn
    · obtain ⟨front, rfl⟩ := List.getLast?_eq_some_iff.mp h
      rw [List.append_assoc, List.singleton_append, steps_append_slash, steps_append_slash,
        steps_of_plain hn, List.append_assoc]
      rfl
  · rw [steps_append_slash, steps_of_plain hn]

end FileSystem

namespace Path

/-- A path that ends in a plain name is not empty. -/
theorem bytes_joinBytes_ne_nil (p : Path) {n : Name} (hn : PlainName n) :
    (p.joinBytes n).bytes ≠ [] := by
  unfold joinBytes
  split <;> simp [hn.ne_nil]

/-- A path to which a plain name was joined ends like the name. -/
theorem getLast?_joinBytes (p : Path) {n : Name} (hn : PlainName n) :
    (p.joinBytes n).bytes.getLast? = n.getLast? := by
  unfold joinBytes
  split
  · rw [List.getLast?_append_of_ne_nil _ hn.ne_nil]
  · rw [List.getLast?_append_of_ne_nil _ (List.cons_ne_nil _ _),
      List.getLast?_cons_of_ne_nil hn.ne_nil]

/-- A path that ends in a name does not end in a separator. -/
theorem not_trailing_joinBytes (p : Path) {n : Name} (hn : PlainName n) :
    (p.joinBytes n).bytes.getLast? ≠ some slash := by
  rw [p.getLast?_joinBytes hn]
  exact fun h => hn.no_slash (List.mem_of_getLast? h)

/-- A separator is put between unless there is one. -/
theorem joinBytes_eq_slash {p : Path} (h : p.bytes ≠ []) (h' : p.bytes.getLast? ≠ some slash)
    (bytes : Bytes) : p.joinBytes bytes = ⟨p.bytes ++ slash :: bytes⟩ := by
  unfold joinBytes
  rw [if_neg (not_or.mpr ⟨h, h'⟩)]

/-- Whether a path is absolute is decided by what is joined to. -/
theorem isAbsolute_joinBytes (p : Path) {n : Name} (hn : PlainName n) :
    (p.joinBytes n).isAbsolute = p.isAbsolute := by
  have hfirst : n.head? ≠ some slash := fun h => hn.no_slash (List.mem_of_head? h)
  obtain ⟨bytes⟩ := p
  unfold joinBytes isAbsolute
  cases bytes with
  | nil => simpa using hfirst
  | cons a rest => split <;> rfl

/-! ## Going down -/

theorem descend_nil (p : Path) : p.descend [] = p := rfl

theorem descend_cons (p : Path) (n : Name) (names : List Name) :
    p.descend (n :: names) = (p.joinBytes n).descend names := rfl

theorem descend_append (p : Path) (names more : List Name) :
    p.descend (names ++ more) = (p.descend names).descend more :=
  List.foldl_append

/-- The last name is joined to what the others lead to. -/
theorem descend_concat (p : Path) (names : List Name) (n : Name) :
    p.descend (names ++ [n]) = (p.descend names).joinBytes n := by
  rw [descend_append, descend_cons, descend_nil]

/-- A path begins as the one that it goes on from. -/
theorem prefix_descend (p : Path) (names : List Name) : p.bytes <+: (p.descend names).bytes := by
  induction names generalizing p with
  | nil => exact List.prefix_rfl
  | cons n rest ih =>
      have hstep : p.bytes <+: (p.joinBytes n).bytes := by
        unfold joinBytes
        split <;> exact List.prefix_append _ _
      exact hstep.trans (ih (p.joinBytes n))

/-- Plain names become the last components. -/
theorem components_descend (p : Path) {names : List Name} (h : ∀ n ∈ names, PlainName n) :
    (p.descend names).components = p.components ++ names.map .name := by
  induction names generalizing p with
  | nil => simp [descend_nil]
  | cons n rest ih =>
      rw [descend_cons, ih _ fun m hm => h m (List.mem_cons_of_mem _ hm),
        p.components_joinBytes (h n List.mem_cons_self), List.append_assoc]
      rfl

/-- Plain names become the last steps. -/
theorem steps_descend (p : Path) {names : List Name} (h : ∀ n ∈ names, PlainName n) :
    FileSystem.steps (p.descend names) = FileSystem.steps p ++ names := by
  induction names generalizing p with
  | nil => simp [descend_nil]
  | cons n rest ih =>
      rw [descend_cons, ih _ fun m hm => h m (List.mem_cons_of_mem _ hm),
        FileSystem.steps_joinBytes p (h n List.mem_cons_self), List.append_assoc]
      rfl

/-- Descending through names keeps a path absolute or relative. -/
theorem isAbsolute_descend (p : Path) {names : List Name} (h : ∀ n ∈ names, PlainName n) :
    (p.descend names).isAbsolute = p.isAbsolute := by
  induction names generalizing p with
  | nil => rfl
  | cons n rest ih =>
      rw [descend_cons, ih _ fun m hm => h m (List.mem_cons_of_mem _ hm),
        p.isAbsolute_joinBytes (h n List.mem_cons_self)]

/-- Joining two pieces one after the other joins them with a separator. -/
theorem joinBytes_joinBytes (p : Path) {bytes more : Bytes} (h : bytes ≠ [])
    (h' : bytes.getLast? ≠ some slash) :
    (p.joinBytes bytes).joinBytes more = p.joinBytes (bytes ++ slash :: more) := by
  have hne : (p.joinBytes bytes).bytes ≠ [] := by
    unfold joinBytes
    split <;> simp [h]
  have hlast : (p.joinBytes bytes).bytes.getLast? ≠ some slash := by
    unfold joinBytes
    split
    · rwa [List.getLast?_append_of_ne_nil _ h]
    · rwa [List.getLast?_append_of_ne_nil _ (List.cons_ne_nil _ _),
        List.getLast?_cons_of_ne_nil h]
  rw [joinBytes_eq_slash hne hlast]
  unfold joinBytes
  split <;> simp

/-- The spelling of names below nothing, one after the other. -/
theorem descend_empty_concat (names : List Name) (n : Name) (h : ∀ m ∈ names, PlainName m) :
    Path.empty.descend (names ++ [n]) =
      if names = [] then ⟨n⟩ else ⟨(Path.empty.descend names).bytes ++ slash :: n⟩ := by
  rw [descend_concat]
  split
  · next hnil =>
    subst hnil
    rfl
  · next hne =>
    obtain ⟨front, m, rfl⟩ : ∃ front m, names = front ++ [m] :=
      ⟨names.dropLast, names.getLast hne, (List.dropLast_concat_getLast hne).symm⟩
    have hm : PlainName m := h m (by simp)
    rw [descend_concat]
    exact joinBytes_eq_slash (bytes_joinBytes_ne_nil _ hm) (not_trailing_joinBytes _ hm) n

/-- **Joining a relative path goes down through its names.** -/
theorem join_descend (p : Path) {names : List Name} (h : ∀ n ∈ names, PlainName n)
    (hne : names ≠ []) : p.join (Path.empty.descend names) = p.descend names := by
  have hrelative : (Path.empty.descend names).isAbsolute = false :=
    Path.empty.isAbsolute_descend h
  unfold join
  rw [if_neg (by rw [hrelative]; exact Bool.false_ne_true)]
  induction names using List.reverseRecOn with
  | nil => exact absurd rfl hne
  | append_singleton names n ih =>
      have hnames : ∀ m ∈ names, PlainName m := fun m hm => h m (List.mem_append_left _ hm)
      rw [descend_empty_concat names n hnames, descend_concat]
      split
      · next hnil =>
        subst hnil
        rfl
      · next hne' =>
        rw [← ih hnames hne' (Path.empty.isAbsolute_descend hnames)]
        obtain ⟨front, m, rfl⟩ : ∃ front m, names = front ++ [m] :=
          ⟨names.dropLast, names.getLast hne', (List.dropLast_concat_getLast hne').symm⟩
        have hm : PlainName m := hnames m (by simp)
        rw [descend_concat, joinBytes_joinBytes]
        · exact bytes_joinBytes_ne_nil _ hm
        · exact not_trailing_joinBytes _ hm

/-- Joining nothing adds at most a separator. -/
theorem components_join_empty (p : Path) : (p.join .empty).components = p.components := by
  have hjoin : p.join .empty = p.joinBytes [] := rfl
  rw [hjoin]
  unfold joinBytes
  split
  · rw [List.append_nil]
  · next hopen =>
    have hne : p.bytes ≠ [] := fun hnil => hopen (.inl hnil)
    rw [components_eq, components_eq, head_append_slash hne, body_append_slash, body_nil, List.append_nil]

/-- Joining names and then one more joins them all. -/
theorem join_descend_concat (p : Path) {names : List Name} {n : Name}
    (h : ∀ m ∈ names ++ [n], PlainName m) :
    (p.join (Path.empty.descend names)).joinBytes n = p.join (Path.empty.descend (names ++ [n])) := by
  have hnames : ∀ m ∈ names, PlainName m := fun m hm => h m (List.mem_append_left _ hm)
  rw [join_descend p h (by simp), descend_concat]
  by_cases hnil : names = []
  · -- the separator that joining nothing leaves is the one in front of the name
    subst hnil
    show (p.joinBytes []).joinBytes n = p.joinBytes n
    unfold joinBytes
    by_cases hend : p.bytes = [] ∨ p.bytes.getLast? = some slash
    · simp [hend]
    · simp [hend]
  · rw [join_descend p hnames hnil]

/-- Joining a relative path adds its names. -/
theorem components_join_descend (p : Path) {names : List Name} (h : ∀ n ∈ names, PlainName n) :
    (p.join (Path.empty.descend names)).components = p.components ++ names.map .name := by
  by_cases hnames : names = []
  · subst hnames
    rw [descend_nil, components_join_empty, List.map_nil, List.append_nil]
  · rw [join_descend p h hnames, components_descend p h]

end Path

end LiveUnits
