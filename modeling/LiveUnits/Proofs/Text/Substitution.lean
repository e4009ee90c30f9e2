import Mathlib.Data.List.Basic
import LiveUnits.Text.Split

/-!
# Substitutions

A table says which keys stand for which values.  One pass over a list replaces the keys by their values and
never reads a value (`substituteAll`); the reading of a list that it follows is a chain of single decisions
(`Reads`).  Replacing one key after the other is another matter, since what was inserted for a key is part of
the list in which the later ones are looked for.  It makes one pass with other values: each value is
expanded itself, by the keys behind its own (`inTurn`, `foldl_substitute`).

Both need keys that do not overlap each other (`Separate`), and values that do not make keys together with
what stands around them (`Whole`).
-/

namespace LiveUnits

variable {α : Type}

/-! ## Keys and texts -/

/-- No occurrence of a key starts in a text, whatever follows the text. -/
def Clear (key text : List α) : Prop := ∀ s, s <:+ text → s ≠ [] → ¬ key <+: s ∧ ¬ s <+: key

/-- No key starts in a part of a clear text. -/
theorem Clear.of_suffix {key text s : List α} (h : Clear key text) (hs : s <:+ text) : Clear key s :=
  fun s' hs' => h s' (hs'.trans hs)

/-- None starts at its beginning. -/
theorem Clear.not_start {key text : List α} (h : Clear key text) (hne : text ≠ []) (more : List α) :
    ¬ key <+: text ++ more := by
  intro hkey
  obtain ⟨hlong, hshort⟩ := h text (List.suffix_refl text) hne
  rcases List.prefix_or_prefix_of_prefix hkey (List.prefix_append text more) with h | h
  · exact hlong h
  · exact hshort h

/-- A key that starts with an element which a text does not have starts nowhere in it. -/
theorem clear_of_not_mem {start : α} {rest text : List α} (h : start ∉ text) : Clear (start :: rest) text := by
  intro s hs hne
  constructor
  · intro hkey
    exact h (hs.subset (hkey.subset List.mem_cons_self))
  · intro hkey
    obtain ⟨a, more, rfl⟩ := List.exists_cons_of_ne_nil hne
    obtain ⟨rfl, -⟩ := List.cons_prefix_cons.mp hkey
    exact h (hs.subset List.mem_cons_self)

/-- Wherever a value stands, the occurrences of a key are either in it or beside it: what stands around the
value and the value itself do not make the key together. -/
structure Whole (key value : List α) : Prop where
  begins : ∀ a b, key = a ++ b → a ≠ [] → b ≠ [] → ¬ b <+: value ∧ ¬ value <+: b
  ends : ∀ a b, key = a ++ b → a ≠ [] → b ≠ [] → ¬ a <:+ value

/-- The ways to split a key are known by the lengths of their first parts. -/
theorem whole_iff_take {key value : List α} : Whole key value ↔ ∀ n < key.length, n ≠ 0 →
    (¬ key.drop n <+: value ∧ ¬ value <+: key.drop n) ∧ ¬ key.take n <:+ value := by
  constructor
  · intro h n hn hne
    have hfront : key.take n ≠ [] := by
      rw [Ne, List.take_eq_nil_iff, not_or]
      exact ⟨hne, List.ne_nil_of_length_pos (by omega)⟩
    have hback : key.drop n ≠ [] := by
      rw [Ne, List.drop_eq_nil_iff]
      omega
    have hsplit := (List.take_append_drop n key).symm
    exact ⟨h.begins _ _ hsplit hfront hback, h.ends _ _ hsplit hfront hback⟩
  · intro h
    have hboth : ∀ a b, key = a ++ b → a ≠ [] → b ≠ [] → (¬ b <+: value ∧ ¬ value <+: b) ∧ ¬ a <:+ value := by
      rintro a b rfl ha hb
      have hparts := h a.length (by simp [List.length_pos_iff.mpr hb]) (by simpa using ha)
      rwa [List.take_left, List.drop_left] at hparts
    exact ⟨fun a b hsplit ha hb => (hboth a b hsplit ha hb).1, fun a b hsplit ha hb => (hboth a b hsplit ha hb).2⟩

instance [DecidableEq α] (key value : List α) : Decidable (Whole key value) := decidable_of_iff _ whole_iff_take.symm

/-- A value without the brackets of a key is whole for it, if it is no part of it. -/
theorem whole_of_not_mem {opening closing : α} {inner value : List α} (hopening : opening ∉ value)
    (hclosing : closing ∉ value) (hpart : ¬ value <:+: opening :: (inner ++ [closing])) :
    Whole (opening :: (inner ++ [closing])) value := by
  refine ⟨fun front back hsplit hfront hback => ⟨fun hbegins => hclosing ?_, fun hwithin => hpart ?_⟩,
    fun front back hsplit hfront hback hends => hopening ?_⟩
  · have hlast : closing ∈ back := by
      have h := congrArg List.getLast? hsplit
      rw [← List.cons_append, List.getLast?_concat, List.getLast?_append_of_ne_nil _ hback] at h
      exact List.mem_of_getLast? h.symm
    exact hbegins.subset hlast
  · rw [hsplit]
    exact hwithin.isInfix.trans (List.suffix_append front back).isInfix
  · obtain ⟨b, rest, rfl⟩ := List.exists_cons_of_ne_nil hfront
    obtain ⟨rfl, -⟩ := List.cons.inj hsplit
    exact hends.subset List.mem_cons_self

/-! ## Tables -/

section Tables

variable {table : List (List α × List α)}

/-- How a list is read with a table: key by key, and element by element where there is none. -/
inductive Reads (table : List (List α × List α)) : List α → List α → Prop where
  | nil : Reads table [] []
  | key {e : List α × List α} {rest out : List α} (he : e ∈ table) (next : Reads table rest out) :
      Reads table (e.1 ++ rest) (e.2 ++ out)
  | other {x : α} {rest out : List α} (h : ∀ e ∈ table, ¬ e.1 <+: x :: rest) (next : Reads table rest out) :
      Reads table (x :: rest) (x :: out)

/-- Keys that are not empty and do not overlap. -/
structure Separate (table : List (List α × List α)) : Prop where
  ne_nil : ∀ e ∈ table, e.1 ≠ []
  clear : table.Pairwise fun e later => Clear e.1 later.1

/-- The later keys do not overlap either. -/
theorem Separate.tail {e : List α × List α} (h : Separate (e :: table)) : Separate table :=
  ⟨fun e' he' => h.ne_nil e' (List.mem_cons_of_mem _ he'), (List.pairwise_cons.mp h.clear).2⟩

/-- Only the keys count. -/
theorem Separate.of_keys {table' : List (List α × List α)} (h : Separate table)
    (hkeys : table'.map Prod.fst = table.map Prod.fst) : Separate table' := by
  constructor
  · intro e he
    have hmem : e.1 ∈ table.map Prod.fst := hkeys ▸ List.mem_map_of_mem he
    obtain ⟨e', he', hsame⟩ := List.mem_map.mp hmem
    exact hsame ▸ h.ne_nil e' he'
  · have hclear := List.pairwise_map.mpr h.clear
    rw [← hkeys] at hclear
    exact List.pairwise_map.mp hclear

/-- What a list starts with once a key has been replaced it started with before, unless a value stands in
it. -/
theorem Reads.start_of_start {key value xs out : List α} (h : Reads [(key, value)] xs out) {t : List α}
    (ht : t <+: out) : t <+: xs ∨ ∃ a b, t = a ++ b ∧ b ≠ [] ∧ ∃ more, b <+: value ++ more := by
  induction h generalizing t with
  | nil => exact .inl ht
  | @key e rest out he =>
      obtain rfl := List.mem_singleton.mp he
      by_cases hempty : t = []
      · rw [hempty]
        exact .inl List.nil_prefix
      · exact .inr ⟨[], t, rfl, hempty, out, ht⟩
  | @other x rest out _ _ ih =>
      cases t with
      | nil => exact .inl List.nil_prefix
      | cons y t =>
          obtain ⟨rfl, hbehind⟩ := List.cons_prefix_cons.mp ht
          rcases ih hbehind with hrest | ⟨a, b, rfl, hb, hmore⟩
          · exact .inl (List.cons_prefix_cons.mpr ⟨rfl, hrest⟩)
          · exact .inr ⟨y :: a, b, rfl, hb, hmore⟩

end Tables

/-! ## One pass -/

section Pass

variable [DecidableEq α]

/-- Replaces keys by their values from left to right, the first `skip` elements being already part of one. -/
def substituteAllFrom (table : List (List α × List α)) : Nat → List α → List α
  | _, [] => []
  | skip + 1, _ :: xs => substituteAllFrom table skip xs
  | 0, x :: xs =>
    match table.find? fun e => e.1.isPrefixOf (x :: xs) with
    | some e => e.2 ++ substituteAllFrom table (e.1.length - 1) xs
    | none => x :: substituteAllFrom table 0 xs

/-- Replaces every key by its value in a single pass from left to right.  Values are not read. -/
def substituteAll (table : List (List α × List α)) (xs : List α) : List α := substituteAllFrom table 0 xs

variable {table : List (List α × List α)}

/-- Skipping a key that was found goes on behind it. -/
theorem substituteAllFrom_eq (skip : Nat) (xs : List α) :
    substituteAllFrom table skip xs = substituteAll table (xs.drop skip) := by
  induction skip generalizing xs with
  | zero => rfl
  | succ skip ih =>
      cases xs with
      | nil => rfl
      | cons x xs => exact ih xs

/-- Replacing one pattern is a pass with a table of one key. -/
theorem substitute_eq (pattern value xs : List α) :
    substitute pattern value xs = substituteAll [(pattern, value)] xs := by
  have hfrom (skip : Nat) :
      substituteFrom pattern value skip xs = substituteAllFrom [(pattern, value)] skip xs := by
    induction xs generalizing skip with
    | nil => cases skip <;> rfl
    | cons x xs ih =>
        cases skip with
        | succ skip => exact ih skip
        | zero =>
            rw [substituteFrom, substituteAllFrom]
            cases h : pattern.isPrefixOf (x :: xs) with
            | true => simp [h, ih]
            | false => simp [h, ih]
  exact hfrom 0

/-- A pass reads elements that start no key as they are. -/
theorem substituteAll_other {x : α} {rest : List α} (h : ∀ e ∈ table, ¬ e.1 <+: x :: rest) :
    substituteAll table (x :: rest) = x :: substituteAll table rest := by
  have hnone : (table.find? fun e => e.1.isPrefixOf (x :: rest)) = none := by
    rw [List.find?_eq_none]
    intro e he hkey
    exact h e he (List.isPrefixOf_iff_prefix.mp hkey)
  rw [substituteAll, substituteAllFrom, hnone]
  rfl

/-- A pass replaces the key that a list starts with. -/
theorem Separate.substituteAll_key (h : Separate table) {e : List α × List α} (he : e ∈ table)
    (rest : List α) : substituteAll table (e.1 ++ rest) = e.2 ++ substituteAll table rest := by
  have hfind : (table.find? fun e' => e'.1.isPrefixOf (e.1 ++ rest)) = some e := by
    obtain ⟨before, after, rfl⟩ := List.append_of_mem he
    refine List.find?_eq_some_iff_append.mpr ⟨?_, before, after, rfl, fun e' he' => ?_⟩
    · exact List.isPrefixOf_iff_prefix.mpr (List.prefix_append _ _)
    · have hclear : Clear e'.1 e.1 := (List.pairwise_append.mp h.clear).2.2 e' he' e List.mem_cons_self
      have hnot := hclear.not_start (h.ne_nil e he) rest
      rw [← List.isPrefixOf_iff_prefix, Bool.not_eq_true] at hnot
      rw [hnot]
      rfl
  obtain ⟨x, more, hkey⟩ := List.exists_cons_of_ne_nil (h.ne_nil e he)
  rw [hkey, List.cons_append] at hfind ⊢
  rw [substituteAll, substituteAllFrom, hfind]
  simp only
  rw [substituteAllFrom_eq, hkey, List.length_cons, Nat.add_sub_cancel, List.drop_left]

/-- A pass turns a key into its value. -/
theorem Separate.substituteAll_alone (h : Separate table) {e : List α × List α} (he : e ∈ table) :
    substituteAll table e.1 = e.2 := by
  have hreplaced := h.substituteAll_key he []
  have hempty : substituteAll table [] = [] := rfl
  rwa [hempty, List.append_nil, List.append_nil] at hreplaced

/-- **A pass follows the reading of a list.** -/
theorem Separate.reads (h : Separate table) (xs : List α) : Reads table xs (substituteAll table xs) := by
  induction hlength : xs.length using Nat.strongRecOn generalizing xs with
  | ind length ih =>
      subst hlength
      by_cases hkey : ∃ e ∈ table, e.1 <+: xs
      · obtain ⟨e, he, rest, rfl⟩ := hkey
        rw [h.substituteAll_key he]
        have hpositive := List.length_pos_iff.mpr (h.ne_nil e he)
        exact .key he (ih _ (by rw [List.length_append]; omega) rest rfl)
      · cases xs with
        | nil => exact .nil
        | cons x rest =>
            have hnone : ∀ e ∈ table, ¬ e.1 <+: x :: rest := fun e he hprefix => hkey ⟨e, he, hprefix⟩
            rw [substituteAll_other hnone]
            exact .other hnone (ih _ (Nat.lt_succ_self _) rest rfl)

/-! ## Texts without keys -/

/-- A text that no key starts in is kept, whatever follows. -/
theorem substituteAll_clear {text : List α} (h : ∀ e ∈ table, Clear e.1 text) (more : List α) :
    substituteAll table (text ++ more) = text ++ substituteAll table more := by
  induction text with
  | nil => rfl
  | cons x rest ih =>
      have hnone : ∀ e ∈ table, ¬ e.1 <+: x :: (rest ++ more) :=
        fun e he => (h e he).not_start (List.cons_ne_nil _ _) more
      rw [List.cons_append, substituteAll_other hnone,
        ih fun e he => (h e he).of_suffix (List.suffix_cons x rest), List.cons_append]

/-- Nothing is replaced in a text where no key starts. -/
theorem substituteAll_of_clear {text : List α} (h : ∀ e ∈ table, Clear e.1 text) :
    substituteAll table text = text := by
  have hkept := substituteAll_clear h []
  have hempty : substituteAll table [] = [] := rfl
  rwa [hempty, List.append_nil] at hkept

/-- A text that ends with no part of a key is read by itself. -/
theorem Separate.substituteAll_append (h : Separate table) {text : List α}
    (hends : ∀ e ∈ table, ∀ a b, e.1 = a ++ b → a ≠ [] → b ≠ [] → ¬ a <:+ text) (more : List α) :
    substituteAll table (text ++ more) = substituteAll table text ++ substituteAll table more := by
  have hreads := h.reads text
  generalize substituteAll table text = out at hreads
  induction hreads with
  | nil => rfl
  | @key e rest out he _ ih =>
      have hrest := ih fun e' he' a b hkey ha hb hsuffix =>
        hends e' he' a b hkey ha hb (hsuffix.trans (List.suffix_append _ _))
      rw [List.append_assoc, h.substituteAll_key he, hrest, List.append_assoc]
  | @other x rest out hnone _ ih =>
      have hrest := ih fun e' he' a b hkey ha hb hsuffix =>
        hends e' he' a b hkey ha hb (hsuffix.trans (List.suffix_cons _ _))
      have hnone' : ∀ e ∈ table, ¬ e.1 <+: x :: (rest ++ more) := by
        intro e he hkey
        rcases List.prefix_or_prefix_of_prefix hkey (List.prefix_append (x :: rest) more) with hin | ⟨b, hover⟩
        · exact hnone e he hin
        · by_cases hb : b = []
          · rw [hb, List.append_nil] at hover
            exact hnone e he (hover ▸ List.prefix_refl _)
          · exact hends e he _ b hover.symm (List.cons_ne_nil _ _) hb (List.suffix_refl _)
      rw [List.cons_append, substituteAll_other hnone', hrest, List.cons_append]

/-! ## One key after the other -/

/-- **A key that is replaced before others** is replaced in the same pass as they are, by its value as they
read it. -/
theorem substituteAll_substitute {key value : List α} (hseparate : Separate ((key, value) :: table))
    (hwhole : ∀ e ∈ table, Whole e.1 value) (xs : List α) :
    substituteAll table (substitute key value xs) =
      substituteAll ((key, substituteAll table value) :: table) xs := by
  have hlater := hseparate.tail
  have hclear := (List.pairwise_cons.mp hseparate.clear).1
  have hsingle : Separate [(key, value)] := by
    refine ⟨fun e he => ?_, List.pairwise_singleton _ _⟩
    rw [List.mem_singleton.mp he]
    exact hseparate.ne_nil (key, value) List.mem_cons_self
  have hall : Separate ((key, substituteAll table value) :: table) := hseparate.of_keys rfl
  have hreads := hall.reads xs
  generalize substituteAll ((key, substituteAll table value) :: table) xs = out at hreads
  rw [substitute_eq]
  induction hreads with
  | nil => rfl
  | @key e rest out he _ ih =>
      rcases List.mem_cons.mp he with rfl | he
      · rw [hsingle.substituteAll_key List.mem_cons_self,
          hlater.substituteAll_append (fun e he => (hwhole e he).ends), ih]
      · have hkept : ∀ e' ∈ [(key, value)], Clear e'.1 e.1 := by
          intro e' he'
          rw [List.mem_singleton.mp he']
          exact hclear e he
        rw [substituteAll_clear hkept, hlater.substituteAll_key he, ih]
  | @other x rest out hnone _ ih =>
      have hkey : ∀ e ∈ [(key, value)], ¬ e.1 <+: x :: rest := by
        intro e he
        rw [List.mem_singleton.mp he]
        exact hnone (key, substituteAll table value) List.mem_cons_self
      -- a later key that starts here now did so before, or it would hold a part of the value
      have hlater' : ∀ e ∈ table, ¬ e.1 <+: x :: substituteAll [(key, value)] rest := by
        intro e he hprefix
        obtain ⟨y, t, hsplit⟩ := List.exists_cons_of_ne_nil (hlater.ne_nil e he)
        rw [hsplit] at hprefix
        obtain ⟨rfl, ht⟩ := List.cons_prefix_cons.mp hprefix
        rcases (hsingle.reads rest).start_of_start ht with hrest | ⟨a, b, rfl, hb, more, hmore⟩
        · refine hnone e (List.mem_cons_of_mem _ he) ?_
          rw [hsplit]
          exact List.cons_prefix_cons.mpr ⟨rfl, hrest⟩
        · obtain ⟨hlong, hshort⟩ := (hwhole e he).begins (y :: a) b hsplit (List.cons_ne_nil _ _) hb
          rcases List.prefix_or_prefix_of_prefix hmore (List.prefix_append value more) with h | h
          · exact hlong h
          · exact hshort h
      rw [substituteAll_other hkey, substituteAll_other hlater', ih]

/-- A table in which every value has been expanded by the keys behind its own. -/
def inTurn : List (List α × List α) → List (List α × List α)
  | [] => []
  | e :: later => (e.1, substituteAll (inTurn later) e.2) :: inTurn later

/-- Nothing is expanded if no key starts in a value before it. -/
theorem inTurn_eq_self (h : table.Pairwise fun e later => Clear later.1 e.2) : inTurn table = table := by
  induction table with
  | nil => rfl
  | cons e later ih =>
      obtain ⟨hhead, htail⟩ := List.pairwise_cons.mp h
      rw [inTurn, ih htail, substituteAll_of_clear hhead]

/-- Expanding values leaves the keys alone. -/
theorem keys_inTurn (table : List (List α × List α)) : (inTurn table).map Prod.fst = table.map Prod.fst := by
  induction table with
  | nil => rfl
  | cons e later ih => rw [inTurn, List.map_cons, List.map_cons, ih]

/-- **Keys that are replaced one after the other** are replaced in one pass, by values that have been expanded
in turn. -/
theorem foldl_substitute (hseparate : Separate table)
    (hwhole : table.Pairwise fun e later => Whole later.1 e.2) (xs : List α) :
    table.foldl (fun xs e => substitute e.1 e.2 xs) xs = substituteAll (inTurn table) xs := by
  induction table generalizing xs with
  | nil => exact (substituteAll_of_clear fun _ he => absurd he List.not_mem_nil).symm
  | cons e later ih =>
      obtain ⟨hhead, htail⟩ := List.pairwise_cons.mp hwhole
      have hkeys := keys_inTurn later
      have hseparate' : Separate ((e.1, e.2) :: inTurn later) :=
        hseparate.of_keys (by rw [List.map_cons, List.map_cons, hkeys])
      have hwhole' : ∀ e' ∈ inTurn later, Whole e'.1 e.2 := by
        intro e' he'
        have hmem : e'.1 ∈ later.map Prod.fst := hkeys ▸ List.mem_map_of_mem he'
        obtain ⟨e'', he'', hsame⟩ := List.mem_map.mp hmem
        exact hsame ▸ hhead e'' he''
      rw [List.foldl_cons, ih hseparate.tail htail, substituteAll_substitute hseparate' hwhole']
      rfl

/-- Tables with the same keys that do the same to every key are the same. -/
theorem Separate.eq_of_keys {table' : List (List α × List α)} (h : Separate table)
    (hkeys : table'.map Prod.fst = table.map Prod.fst)
    (hsame : ∀ e ∈ table, substituteAll table' e.1 = substituteAll table e.1) : table' = table := by
  have hlength : table'.length = table.length := by
    have hlength := congrArg List.length hkeys
    rwa [List.length_map, List.length_map] at hlength
  refine List.ext_getElem hlength fun j hj' hj => ?_
  have hkey : table'[j].1 = table[j].1 := by
    have hget := congrArg (·[j]?) hkeys
    simpa [hj, hj'] using hget
  refine Prod.ext hkey ?_
  have hvalue := hsame table[j] (List.getElem_mem hj)
  rw [h.substituteAll_alone (List.getElem_mem hj), ← hkey,
    (h.of_keys hkeys).substituteAll_alone (List.getElem_mem hj')] at hvalue
  exact hvalue

end Pass

end LiveUnits
