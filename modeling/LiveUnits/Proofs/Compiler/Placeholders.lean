import LiveUnits.Compiler.External
import LiveUnits.Proofs.Text.Substitution
import LiveUnits.Proofs.Text.Utf8

/-!
# What argument templates make

A template that is nothing but a placeholder makes the bytes that the placeholder stands for.  In any other
template the placeholders are replaced one after the other, and what was inserted for one of them is read for
those after it: from `./{source}` a source file `src/{output}/Foo.src` comes out as `./src/out/Foo.src`.  So such
a template makes what a single pass over it makes with values that have been expanded in turn, and it makes what
a single pass makes with the values themselves exactly if no value is changed by that
(`ExternalCompiler.expands`).
-/

namespace LiveUnits

namespace ExternalCompiler

/-- The placeholders, in the order in which they are replaced. -/
def keys : List (List Char) :=
  ["\x7bsource\x7d".toList, "\x7boutput\x7d".toList, "\x7bartifact\x7d".toList, "\x7bidentity\x7d".toList]

/-- The placeholders and the texts that they are replaced by. -/
def table (i : Invocation) : List (List Char × List Char) :=
  (placeholders i).map fun p => (p.1.toList, (Utf8.lossy p.2).toList)

/-- The placeholders are always the same, and in the same order. -/
theorem keys_table (i : Invocation) : (table i).map Prod.fst = keys := by
  simp only [table, placeholders, keys, List.map_cons, List.map_nil]

/-- What is replaced is a placeholder. -/
theorem mem_keys {i : Invocation} {e : List Char × List Char} (he : e ∈ table i) : e.1 ∈ keys :=
  keys_table i ▸ List.mem_map_of_mem he

/-- A placeholder is replaced by the text of its value. -/
theorem mem_table {i : Invocation} {key : String} {value : Bytes} (h : (key, value) ∈ placeholders i) :
    (key.toList, (Utf8.lossy value).toList) ∈ table i :=
  List.mem_map_of_mem (f := fun p : String × Bytes => (p.1.toList, (Utf8.lossy p.2).toList)) h

/-- A placeholder is a name in braces. -/
theorem braces_of_mem {key : List Char} (h : key ∈ keys) :
    ∃ inner, key = '\x7b' :: (inner ++ ['\x7d']) ∧ '\x7b' ∉ inner ++ ['\x7d'] := by
  have hall : ∀ key ∈ keys, key = '\x7b' :: (key.tail.dropLast ++ ['\x7d']) ∧
      '\x7b' ∉ key.tail.dropLast ++ ['\x7d'] := by decide
  exact ⟨key.tail.dropLast, hall key h⟩

/-- No placeholder starts within another one. -/
theorem clear_of_mem {key other : List Char} (hkey : key ∈ keys) (hother : other ∈ keys)
    (hlong : ¬ key <+: other) (hshort : ¬ other <+: key) : Clear key other := by
  obtain ⟨inner, rfl, -⟩ := braces_of_mem hkey
  obtain ⟨inner', rfl, hinner⟩ := braces_of_mem hother
  intro s hs hne
  rcases List.suffix_cons_iff.mp hs with rfl | hs
  · exact ⟨hlong, hshort⟩
  · exact clear_of_not_mem hinner s hs hne

/-- **Placeholders are not empty and do not overlap.** -/
theorem separate_table (i : Invocation) : Separate (table i) := by
  have hapart : keys.Pairwise fun key later => ¬ key <+: later ∧ ¬ later <+: key := by decide
  constructor
  · intro e he
    obtain ⟨inner, hkey, -⟩ := braces_of_mem (mem_keys he)
    rw [hkey]
    exact List.cons_ne_nil _ _
  · rw [← keys_table i, List.pairwise_map] at hapart
    refine hapart.imp_of_mem fun he hlater h => ?_
    exact clear_of_mem (mem_keys he) (mem_keys hlater) h.1 h.2

/-- No value makes a placeholder that is replaced later together with what stands around it. -/
def KeepsApart (i : Invocation) : Prop := (table i).Pairwise fun e later => Whole later.1 e.2

/-- The values are texts. -/
def Legible (i : Invocation) : Prop := ∀ p ∈ placeholders i, ∃ s, p.2 = Utf8.encode s

/-- A value without braces that is no part of a placeholder.  Every path with a `/` or a `.` is, if it has no
braces, and so is `out` for the placeholders that are replaced after that of the output root. -/
def IsPlainFor (key value : List Char) : Prop := '\x7b' ∉ value ∧ '\x7d' ∉ value ∧ ¬ value <:+: key

instance (key value : List Char) : Decidable (IsPlainFor key value) := inferInstanceAs (Decidable (_ ∧ _ ∧ _))

instance (i : Invocation) : Decidable (KeepsApart i) :=
  inferInstanceAs (Decidable (List.Pairwise _ (table i)))

variable {i : Invocation}

/-- A plain value makes no placeholder together with what stands around it. -/
theorem IsPlainFor.whole {key value : List Char} (h : IsPlainFor key value) (hkey : key ∈ keys) :
    Whole key value := by
  obtain ⟨hopening, hclosing, hpart⟩ := h
  obtain ⟨inner, rfl, -⟩ := braces_of_mem hkey
  exact whole_of_not_mem hopening hclosing hpart

/-- No placeholder starts in a plain value. -/
theorem IsPlainFor.clear {key value : List Char} (h : IsPlainFor key value) (hkey : key ∈ keys) :
    Clear key value := by
  obtain ⟨inner, rfl, -⟩ := braces_of_mem hkey
  exact clear_of_not_mem h.1

/-- A template that is a placeholder gives its value. -/
theorem expand_of_mem {template : String} {value : Bytes} (h : (template, value) ∈ placeholders i) :
    expand template i = value := by
  have hfound : (placeholders i).lookup template = some value := by
    simp only [placeholders, List.mem_cons, List.not_mem_nil, or_false, Prod.mk.injEq] at h
    rcases h with ⟨rfl, rfl⟩ | ⟨rfl, rfl⟩ | ⟨rfl, rfl⟩ | ⟨rfl, rfl⟩ <;> rfl
  rw [expand, hfound]

/-- Any other template is read as text and goes through all replacements in turn. -/
theorem expand_of_not_mem {template : String} (h : ∀ value, (template, value) ∉ placeholders i) :
    expand template i = Utf8.encode (String.ofList
      ((table i).foldl (fun xs e => substitute e.1 e.2 xs) template.toList)) := by
  cases hlookup : (placeholders i).lookup template with
  | some value =>
      obtain ⟨before, after, hsplit, -⟩ := List.lookup_eq_some_iff.mp hlookup
      refine absurd ?_ (h value)
      rw [hsplit]
      exact List.mem_append_right _ List.mem_cons_self
  | none =>
      rw [expand, hlookup, table, List.foldl_map]
      rfl

/-- No placeholder starts where another character than a brace stands. -/
theorem not_prefix_of_start {entries : List (List Char × List Char)}
    (hkeys : entries.map Prod.fst = (table i).map Prod.fst) {c : Char} (hc : c ≠ '\x7b') {rest : List Char} :
    ∀ e ∈ entries, ¬ e.1 <+: c :: rest := by
  intro e he hprefix
  have hmem : e.1 ∈ keys := by
    rw [← keys_table i, ← hkeys]
    exact List.mem_map_of_mem he
  obtain ⟨inner, hkey, -⟩ := braces_of_mem hmem
  rw [hkey] at hprefix
  exact hc (List.cons_prefix_cons.mp hprefix).1.symm

/-- A template that does not begin with a brace is no placeholder. -/
theorem not_mem_of_start {c : Char} (hc : c ≠ '\x7b') {rest : List Char} {value : Bytes} :
    (String.ofList (c :: rest), value) ∉ placeholders i := by
  intro hmem
  have hentry := mem_table hmem
  rw [String.toList_ofList] at hentry
  exact not_prefix_of_start rfl hc _ hentry (List.prefix_refl _)

/-- What templates make for a call. -/
structure Expands (i : Invocation) : Prop where
  /-- A template that is nothing but a placeholder makes the bytes that the placeholder stands for. -/
  lone : ∀ template value, (template, value) ∈ placeholders i → expand template i = value
  /-- Any other template makes what a single pass over it makes with values that have been expanded in turn,
  each by the placeholders behind its own. -/
  inTurn : KeepsApart i → ∀ template : String, (∀ value, (template, value) ∉ placeholders i) →
    expand template i = Utf8.encode (String.ofList (substituteAll (inTurn (table i)) template.toList))
  /-- The identity is not expanded: no placeholder is behind its own. -/
  identity : ("\x7bidentity\x7d".toList, i.source.identity.text.toList) ∈ LiveUnits.inTurn (table i)
  /-- Every template makes what a single pass makes with the values themselves exactly if none of them is
  changed by being expanded. -/
  once : KeepsApart i → Legible i → ((∀ template : String,
    expand template i = Utf8.encode (String.ofList (substituteAll (table i) template.toList))) ↔
      LiveUnits.inTurn (table i) = table i)
  /-- Values that are plain for the placeholders behind their own are not changed. -/
  plain : (table i).Pairwise (fun e later => IsPlainFor later.1 e.2) →
    KeepsApart i ∧ LiveUnits.inTurn (table i) = table i

/-- **Replacing in turn is replacing at once**, by values that were expanded in turn before. -/
theorem expand_eq (hapart : KeepsApart i) {template : String}
    (h : ∀ value, (template, value) ∉ placeholders i) :
    expand template i = Utf8.encode (String.ofList (substituteAll (inTurn (table i)) template.toList)) := by
  rw [expand_of_not_mem h, foldl_substitute (separate_table i) hapart]

/-- A lone placeholder for a text makes what the pass makes. -/
theorem expand_lone (hlegible : Legible i) {template : String} {value : Bytes}
    (h : (template, value) ∈ placeholders i) :
    expand template i = Utf8.encode (String.ofList (substituteAll (table i) template.toList)) := by
  obtain ⟨text, rfl⟩ := hlegible _ h
  have hentry := mem_table h
  rw [Utf8.lossy_encode] at hentry
  rw [expand_of_mem h, (separate_table i).substituteAll_alone hentry, String.ofList_toList]

/-- **What templates make.** -/
theorem expands (i : Invocation) : Expands i where
  lone template value := expand_of_mem
  inTurn hapart template := expand_eq hapart
  identity := by
    have hlast : (Utf8.lossy (Utf8.encode i.source.identity.text)).toList = i.source.identity.text.toList := by
      rw [Utf8.lossy_encode]
    have hkept : substituteAll [] i.source.identity.text.toList = i.source.identity.text.toList :=
      substituteAll_of_clear fun _ he => absurd he List.not_mem_nil
    simp only [table, placeholders, List.map_cons, List.map_nil, LiveUnits.inTurn, hlast, hkept]
    simp only [List.mem_cons, true_or, or_true]
  once hapart hlegible := by
    constructor
    · intro hall
      refine (separate_table i).eq_of_keys (keys_inTurn _) fun e _ => ?_
      -- a placeholder behind another character is not a lone one
      have hboth := hall (String.ofList ('=' :: e.1))
      rw [expand_eq hapart fun value => not_mem_of_start (by decide)] at hboth
      have hsame := String.ofList_injective (Utf8.encode_inj hboth)
      rw [String.toList_ofList, substituteAll_other (not_prefix_of_start (keys_inTurn _) (by decide)),
        substituteAll_other (not_prefix_of_start rfl (by decide))] at hsame
      exact (List.cons.inj hsame).2
    · intro hfixed template
      by_cases hlone : ∃ value, (template, value) ∈ placeholders i
      · obtain ⟨value, hmem⟩ := hlone
        exact expand_lone hlegible hmem
      · rw [expand_eq hapart (not_exists.mp hlone), hfixed]
  plain h := by
    refine ⟨h.imp_of_mem fun _ hlater hplain => ?_, inTurn_eq_self (h.imp_of_mem fun _ hlater hplain => ?_)⟩
    · exact hplain.whole (mem_keys hlater)
    · exact hplain.clear (mem_keys hlater)

/-- The call for a source file in a directory. -/
def within (directory : String) (identity : Identity) : Invocation where
  source := {
    path := .ofString ("src/" ++ directory ++ "/Foo.src")
    relativePath := .ofString (directory ++ "/Foo.src")
    identity }
  outputRoot := .ofString "out"
  artifact := .ofString ("out/" ++ directory ++ "/Foo.wasm")

/-- The values are spelt from texts. -/
theorem legible_within (directory : String) (identity : Identity) : Legible (within directory identity) := by
  simp only [Legible, placeholders, List.forall_mem_cons, List.not_mem_nil, false_implies, implies_true, and_true]
  exact ⟨⟨_, rfl⟩, ⟨_, rfl⟩, ⟨_, rfl⟩, ⟨_, rfl⟩⟩

/-- From a directory that is named like a placeholder the path of a source file is not inserted as it is, but
the output root is put in its place; braces around another name do no harm. -/
theorem expands_within :
    let nested := within "\x7boutput\x7d" ⟨["\x7boutput\x7d", "Foo"], by decide, by decide⟩
    let braced := within "\x7bx\x7d" ⟨["\x7bx\x7d", "Foo"], by decide, by decide⟩
    KeepsApart nested ∧ expand "./\x7bsource\x7d" nested = Utf8.encode "./src/out/Foo.src" ∧
      ¬ (∀ template : String, expand template nested =
        Utf8.encode (String.ofList (substituteAll (table nested) template.toList))) ∧
      KeepsApart braced ∧ ∀ template : String, expand template braced =
        Utf8.encode (String.ofList (substituteAll (table braced) template.toList)) := by
  intro nested braced
  have hnested : KeepsApart nested := by decide +kernel
  have hbraced : KeepsApart braced := by decide +kernel
  refine ⟨hnested, ?_, fun hall => ?_, hbraced, ?_⟩
  · rw [(expands nested).inTurn hnested _ fun value hmem => by simp [placeholders] at hmem]
    decide +kernel
  · have hsame := ((expands nested).once hnested (legible_within _ _)).mp hall
    revert hsame
    decide +kernel
  · exact ((expands braced).once hbraced (legible_within _ _)).mpr (by decide +kernel)

/-- The common output root is plain. -/
example : ∀ key ∈ ["\x7bartifact\x7d".toList, "\x7bidentity\x7d".toList], IsPlainFor key "out".toList := by
  decide +kernel

end ExternalCompiler

end LiveUnits
