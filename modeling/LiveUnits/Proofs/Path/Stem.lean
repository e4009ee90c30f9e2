import LiveUnits.Proofs.Path.Ending

/-!
# Paths without their extensions

A path that ends in a name may be spelt with more behind the name: separators and `.` components, which
count for nothing (`Path.Padding`).  Every path with a file name is a front, the name and padding
(`Path.exists_ending`).

The extension is taken off in two steps, by cutting bytes from the end of the spelling and then cutting
behind the stem.  The first step meets the padding if there is any, so the stem `.` is treated in two
ways: without padding it becomes the component `..`, and with padding it counts for nothing
(`Path.components_withoutExtension`).
-/

namespace LiveUnits

namespace Path

/-! ## Padding -/

/-- Bytes behind a name that count for nothing: separators, each with or without a `.` behind it. -/
inductive Padding : Bytes → Prop where
  | nil : Padding []
  | slash {rest : Bytes} (h : Padding rest) : Padding (slash :: rest)
  | here {rest : Bytes} (h : Padding rest) : Padding (slash :: fullStop :: rest)

theorem Padding.append {xs ys : Bytes} (h : Padding xs) (h' : Padding ys) : Padding (xs ++ ys) := by
  induction h with
  | nil => exact h'
  | slash _ ih => exact .slash ih
  | here _ ih => exact .here ih

/-- A beginning of padding is padding. -/
theorem Padding.take {xs : Bytes} (h : Padding xs) (count : Nat) : Padding (xs.take count) := by
  induction h generalizing count with
  | nil =>
      rw [List.take_nil]
      exact .nil
  | slash _ ih =>
      cases count with
      | zero => exact .nil
      | succ count => exact .slash (ih count)
  | here _ ih =>
      match count with
      | 0 => exact .nil
      | 1 => exact .slash .nil
      | count + 2 => exact .here (ih count)

/-- Padding is empty or starts with a separator. -/
theorem Padding.eq_nil_or_slash {xs : Bytes} (h : Padding xs) :
    xs = [] ∨ ∃ rest, xs = LiveUnits.slash :: rest := by
  cases h with
  | nil => exact .inl rfl
  | slash _ => exact .inr ⟨_, rfl⟩
  | here _ => exact .inr ⟨_, rfl⟩

/-- Padding adds nothing to a body. -/
theorem Padding.body_append {padding : Bytes} (h : Padding padding) (xs : Bytes) :
    body (xs ++ padding) = body xs := by
  induction h generalizing xs with
  | nil => rw [List.append_nil]
  | @slash rest _ ih =>
      have hsplit : xs ++ LiveUnits.slash :: rest = (xs ++ [LiveUnits.slash]) ++ rest := by simp
      rw [hsplit, ih, body_append_slash, body_nil, List.append_nil]
  | @here rest _ ih =>
      have hsplit :
          xs ++ LiveUnits.slash :: fullStop :: rest = (xs ++ LiveUnits.slash :: [fullStop]) ++ rest := by
        simp
      have hdot : body [fullStop] = [] := by decide
      rw [hsplit, ih, body_append_slash, hdot, List.append_nil]

/-- Padding adds nothing to the components. -/
theorem Padding.components_append {padding : Bytes} (h : Padding padding) {xs : Bytes} (hne : xs ≠ []) :
    components ⟨xs ++ padding⟩ = components ⟨xs⟩ := by
  have hhead : head ⟨xs ++ padding⟩ = head ⟨xs⟩ := by
    rcases h.eq_nil_or_slash with rfl | ⟨rest, rfl⟩
    · rw [List.append_nil]
    · exact head_append_slash hne rest
  rw [components_eq, components_eq, hhead, h.body_append]

/-- Padding is dropped from the end. -/
theorem Padding.dropTrailing_append {padding : Bytes} (h : Padding padding) (xs : Bytes) :
    dropTrailing (xs ++ padding) = dropTrailing xs := by
  have hslash (ys : Bytes) : dropTrailing (ys ++ [LiveUnits.slash]) = dropTrailing ys := by
    unfold dropTrailing
    rw [List.reverse_concat, dropTrailingReversed.eq_def]
    rfl
  induction h generalizing xs with
  | nil => rw [List.append_nil]
  | @slash rest _ ih =>
      have hsplit : xs ++ LiveUnits.slash :: rest = (xs ++ [LiveUnits.slash]) ++ rest := by simp
      rw [hsplit, ih, hslash]
  | @here rest _ ih =>
      have hsplit :
          xs ++ LiveUnits.slash :: fullStop :: rest = (xs ++ [LiveUnits.slash] ++ [fullStop]) ++ rest := by
        simp
      have hdot :
          dropTrailing (xs ++ [LiveUnits.slash] ++ [fullStop]) = dropTrailing (xs ++ [LiveUnits.slash]) := by
        unfold dropTrailing
        rw [List.reverse_concat, List.reverse_concat, dropTrailingReversed.eq_def]
        rfl
      rw [hsplit, ih, hdot, hslash]

/-! ## Paths that end in a name -/

/-- A path that is spelt by a front, a name and padding. -/
structure Ending (p : Path) (front : Bytes) (n : Name) (padding : Bytes) : Prop where
  plain : PlainName n
  spelling : p.bytes = front ++ n ++ padding
  /-- A separator stands before the name, unless nothing does. -/
  apart : front = [] ∨ front.getLast? = some slash
  padding : Padding padding

/-- A part that is a name is a plain one. -/
theorem plain_of_ofPart? {part : Bytes} (hpart : slash ∉ part) {n : Name}
    (h : Component.ofPart? part = some (.name n)) : part = n ∧ PlainName n := by
  unfold Component.ofPart? at h
  split_ifs at h with hnothing hup
  · cases h
  · obtain rfl := Component.name.inj (Option.some.inj h)
    rw [not_or] at hnothing
    exact ⟨rfl, hnothing.1, hpart, hnothing.2, hup⟩

/-- What is no component is padding behind a separator. -/
theorem padding_of_ofPart? {part : Bytes} (h : Component.ofPart? part = none) :
    Padding (slash :: part) := by
  unfold Component.ofPart? at h
  split_ifs at h with hnothing hup
  rcases hnothing with rfl | rfl
  · exact .slash .nil
  · exact .here .nil

/-- A body that ends in a name is spelt with the name and padding behind it. -/
theorem exists_ending_of_body {n : Name} :
    ∀ bytes : Bytes, (body bytes).getLast? = some (.name n) →
      ∃ front padding, Ending ⟨bytes⟩ front n padding
  | bytes, h => by
    by_cases hslash : slash ∈ bytes
    · -- the part behind the last separator is the name, or else padding behind a shorter spelling
      obtain ⟨last, first, hreverse, hlast⟩ := List.eq_append_cons_of_mem (List.mem_reverse.mpr hslash)
      have hbytes : bytes = first.reverse ++ slash :: last.reverse := by
        have hback := congrArg List.reverse hreverse
        simpa using hback
      have hpart : slash ∉ last.reverse := fun hmem => hlast (List.mem_reverse.mp hmem)
      generalize first.reverse = xs, last.reverse = part at hbytes hpart
      have hshort : xs.length < bytes.length := by
        rw [hbytes, List.length_append, List.length_cons]
        omega
      rw [hbytes, body_append_slash, body_of_part hpart] at h
      cases hc : Component.ofPart? part with
      | some c =>
          rw [hc, Option.toList_some, List.getLast?_concat] at h
          rw [Option.some.inj h] at hc
          obtain ⟨rfl, hplain⟩ := plain_of_ofPart? hpart hc
          refine ⟨xs ++ [slash], [], hplain, ?_, .inr List.getLast?_concat, .nil⟩
          simpa using hbytes
      | none =>
          rw [hc, Option.toList_none, List.append_nil] at h
          obtain ⟨front, padding, hending⟩ := exists_ending_of_body xs h
          refine ⟨front, padding ++ slash :: part, hending.plain, ?_, hending.apart,
            hending.padding.append (padding_of_ofPart? hc)⟩
          have hxs : xs = front ++ n ++ padding := hending.spelling
          rw [hbytes, hxs, List.append_assoc]
    · rw [body_of_part hslash] at h
      cases hc : Component.ofPart? bytes with
      | none =>
          rw [hc] at h
          cases h
      | some c =>
          rw [hc, Option.toList_some, List.getLast?_singleton] at h
          rw [Option.some.inj h] at hc
          obtain ⟨rfl, hplain⟩ := plain_of_ofPart? hslash hc
          refine ⟨[], [], hplain, ?_, .inl rfl, .nil⟩
          rw [List.nil_append, List.append_nil]
termination_by bytes => bytes.length

/-- **A path with a file name** is spelt by a front, the name and padding. -/
theorem exists_ending {p : Path} {n : Name} (h : p.fileName? = some n) :
    ∃ front padding, p.Ending front n padding := by
  have hlast : p.components.getLast? = some (.name n) := by
    unfold fileName? at h
    split at h
    · next m hm =>
      obtain rfl := Option.some.inj h
      exact hm
    · cases h
  have hhead : Component.name n ∉ p.head := by
    unfold head
    split_ifs <;> simp
  refine exists_ending_of_body p.bytes ?_
  rw [components_eq] at hlast
  cases hbody : body p.bytes with
  | nil =>
      rw [hbody, List.append_nil] at hlast
      exact absurd (List.mem_of_getLast? hlast) hhead
  | cons c rest =>
      rw [hbody, List.getLast?_append_of_ne_nil _ (List.cons_ne_nil c rest)] at hlast
      exact hlast

namespace Ending

variable {p : Path} {front padding : Bytes} {n : Name}

theorem joinBytes_eq (h : p.Ending front n padding) (bytes : Bytes) :
    Path.joinBytes ⟨front⟩ bytes = ⟨front ++ bytes⟩ := by
  unfold Path.joinBytes
  rw [if_pos h.apart]

/-- The name is the last component, behind those of the front. -/
theorem components_eq (h : p.Ending front n padding) :
    p.components = Path.components ⟨front⟩ ++ [.name n] := by
  obtain ⟨bytes⟩ := p
  obtain rfl : bytes = front ++ n ++ padding := h.spelling
  have hne : front ++ n ≠ [] := List.append_ne_nil_of_right_ne_nil _ h.plain.ne_nil
  rw [h.padding.components_append hne, ← h.joinBytes_eq, Path.components_joinBytes _ h.plain]

theorem fileName?_eq (h : p.Ending front n padding) : p.fileName? = some n := by
  unfold fileName?
  rw [h.components_eq, List.getLast?_concat]

/-- Cutting behind the stem leaves the front and the stem. -/
theorem cutAtStem_eq (h : p.Ending front n padding) :
    p.cutAtStem = ⟨front ++ (splitExtension n).1⟩ := by
  unfold cutAtStem
  rw [h.fileName?_eq, h.spelling]
  simp only [h.padding.dropTrailing_append, dropTrailing_of_plain h.plain, List.length_append,
    Nat.add_sub_cancel, List.take_left]

/-- A front that spells no component is empty: something stands before the name otherwise. -/
theorem components_front_ne_nil (h : p.Ending front n padding) (hne : front ≠ []) :
    Path.components ⟨front⟩ ≠ [] := by
  intro hnil
  rw [Path.components_eq, List.append_eq_nil_iff] at hnil
  obtain ⟨hhead, hbody⟩ := hnil
  obtain ⟨xs, rfl⟩ := List.getLast?_eq_some_iff.mp (h.apart.resolve_left hne)
  unfold head at hhead
  split_ifs at hhead with habsolute hhere
  cases hfirst : splitOn slash (xs ++ [slash]) with
  | nil => cases hfirst
  | cons part rest =>
      have hpart : Component.ofPart? part = none := by
        have hnone := List.filterMap_eq_nil_iff.mp hbody part
        rw [hfirst] at hnone
        exact hnone List.mem_cons_self
      have hsplit : (splitOn slash (xs ++ [slash])).head? = some part := by rw [hfirst]; rfl
      have hnothing : part = [] ∨ part = [fullStop] := by
        unfold Component.ofPart? at hpart
        split_ifs at hpart with hnothing
        exact hnothing
      rcases hnothing with rfl | rfl
      · -- an empty first part means that the front starts with a separator
        refine habsolute ?_
        cases xs with
        | nil => rfl
        | cons a more =>
            by_cases ha : a = slash
            · rw [ha]
              rfl
            · rw [List.cons_append] at hsplit
              simp [splitOn, LiveUnits.parts, ha] at hsplit
      · exact hhere hsplit

end Ending

/-! ## Taking the extension off -/

/-- The component that a stem is, where a name stood. -/
def Component.ofStem (stem : Name) : Component :=
  if stem = [fullStop] then .here else if stem = [fullStop, fullStop] then .up else .name stem

/-- A stem with an extension that is not empty makes a plain name. -/
theorem plain_of_extension {stem e : Bytes} (hstem : slash ∉ stem) (he : slash ∉ e) (hne : e ≠ [])
    (hdot : fullStop ∉ e) : PlainName (stem ++ fullStop :: e) := by
  obtain ⟨a, rest, rfl⟩ := List.exists_cons_of_ne_nil hne
  have ha : a ≠ fullStop := fun h => hdot (by rw [h]; exact List.mem_cons_self)
  refine ⟨by simp, ?_, ?_, ?_⟩
  · rw [List.mem_append, List.mem_cons, not_or, not_or]
    exact ⟨hstem, by decide, he⟩
  · intro h
    have hlength := congrArg List.length h
    simp only [List.length_append, List.length_cons, List.length_nil] at hlength
    omega
  · intro h
    cases stem with
    | nil => exact ha (List.cons.inj (List.cons.inj h).2).1
    | cons b more =>
        have hlength := congrArg List.length h
        simp only [List.length_append, List.length_cons, List.length_nil] at hlength
        omega

namespace Ending

variable {p : Path} {front padding stem e : Bytes}

/-- **What is left without the extension.**  Only without padding is a dot left behind the stem `.`. -/
theorem withoutExtension_eq (h : p.Ending front (stem ++ fullStop :: e) padding) (hstem : stem ≠ [])
    (he : fullStop ∉ e) :
    p.withoutExtension =
      if padding = [] ∧ stem = [fullStop] then ⟨front ++ [fullStop, fullStop]⟩ else ⟨front ++ stem⟩ := by
  have hsplit := splitExtension_of_stem hstem he
  obtain ⟨hslash, hslash'⟩ : slash ∉ stem ∧ slash ∉ e := by
    have hname := h.plain.no_slash
    rw [List.mem_append, List.mem_cons, not_or, not_or] at hname
    exact ⟨hname.1, hname.2.2⟩
  by_cases hpadding : padding = []
  · have hp : p = Path.joinBytes ⟨front⟩ (stem ++ fullStop :: e) := by
      obtain ⟨bytes⟩ := p
      rw [h.joinBytes_eq, Path.mk.injEq]
      rw [← List.append_nil (front ++ (stem ++ fullStop :: e)), ← hpadding]
      exact h.spelling
    rw [hp, Path.withoutExtension_joinBytes _ h.plain hstem he, h.joinBytes_eq, h.joinBytes_eq]
    simp only [hpadding, true_and]
  · have hextension : p.extension? = some e := by
      unfold extension?
      rw [h.fileName?_eq, Option.bind_some, hsplit]
    rw [if_neg fun hboth => hpadding hboth.1]
    unfold withoutExtension
    rw [hextension]
    -- the bytes that are cut reach into the padding: as many as the extension has
    have hcut : p.bytes.take (p.bytes.length - e.length) =
        front ++ (stem ++ fullStop :: e.take padding.length) ++ padding.take (padding.length - e.length) := by
      have hlength : p.bytes.length - e.length =
          (front ++ stem ++ [fullStop]).length + padding.length := by
        rw [h.spelling]
        simp only [List.length_append, List.length_cons, List.length_nil]
        omega
      have hspelling : p.bytes = (front ++ stem ++ [fullStop]) ++ (e ++ padding) := by
        rw [h.spelling]
        simp
      rw [hlength, hspelling, List.take_length_add_append, List.take_append]
      simp
    simp only [hcut]
    by_cases hempty : e = []
    · subst hempty
      have hsame : Path.Ending ⟨front ++ (stem ++ fullStop :: ([] : Bytes).take padding.length) ++
          padding.take (padding.length - ([] : Bytes).length)⟩ front (stem ++ fullStop :: []) padding := by
        refine ⟨h.plain, ?_, h.apart, h.padding⟩
        simp
      rw [hsame.cutAtStem_eq, hsplit]
    · have hrest : e.take padding.length ≠ [] := by
        intro hnil
        rcases List.take_eq_nil_iff.mp hnil with hzero | hnone
        · exact hpadding (List.length_eq_zero_iff.mp hzero)
        · exact hempty hnone
      have hdot : fullStop ∉ e.take padding.length := fun hmem => he (List.mem_of_mem_take hmem)
      have hshorter : Path.Ending ⟨front ++ (stem ++ fullStop :: e.take padding.length) ++
          padding.take (padding.length - e.length)⟩ front (stem ++ fullStop :: e.take padding.length)
          (padding.take (padding.length - e.length)) :=
        ⟨plain_of_extension hslash (fun hmem => hslash' (List.mem_of_mem_take hmem)) hrest hdot, rfl,
          h.apart, h.padding.take _⟩
      rw [hshorter.cutAtStem_eq, splitExtension_of_stem hstem hdot]

/-- A part behind a front that ends in a separator. -/
theorem components_front_append {n : Name} (h : p.Ending front n padding) {part : Bytes}
    (hpart : slash ∉ part) {c : Component} (hc : Component.ofPart? part = some c) :
    Path.components ⟨front ++ part⟩ = Path.components ⟨front⟩ ++ [c] := by
  rw [← h.joinBytes_eq, Path.components_joinPart _ hpart hc]

/-- **The components without the extension.**  With padding behind it and something before it, the stem
`.` counts for nothing; otherwise it is a component that is no name. -/
theorem components_withoutExtension (h : p.Ending front (stem ++ fullStop :: e) padding) (hstem : stem ≠ [])
    (he : fullStop ∉ e) :
    p.withoutExtension.components =
      if stem = [fullStop] then
        if padding = [] then Path.components ⟨front⟩ ++ [.up]
        else if front = [] then [.here] else Path.components ⟨front⟩
      else Path.components ⟨front⟩ ++ [.ofStem stem] := by
  have hslash : slash ∉ stem := plain_stem h.plain
  rw [h.withoutExtension_eq hstem he]
  by_cases hdot : stem = [fullStop]
  · rw [if_pos hdot]
    by_cases hpadding : padding = []
    · rw [if_pos ⟨hpadding, hdot⟩, if_pos hpadding]
      exact h.components_front_append (by decide) rfl
    · rw [if_neg fun hboth => hpadding hboth.1, if_neg hpadding, hdot]
      by_cases hfront : front = []
      · rw [if_pos hfront, hfront]
        rfl
      · rw [if_neg hfront]
        obtain ⟨xs, rfl⟩ := List.getLast?_eq_some_iff.mp (h.apart.resolve_left hfront)
        have hpadded : Padding (slash :: [fullStop]) := .here .nil
        have hbare : Padding [slash] := .slash .nil
        rw [List.append_assoc, List.singleton_append]
        cases xs with
        | nil => rfl
        | cons a more =>
            rw [hpadded.components_append (List.cons_ne_nil a more),
              hbare.components_append (List.cons_ne_nil a more)]
  · rw [if_neg hdot, if_neg fun hboth => hdot hboth.2]
    unfold Component.ofStem
    rw [if_neg hdot]
    by_cases hup : stem = [fullStop, fullStop]
    · rw [if_pos hup, hup]
      exact h.components_front_append (by decide) rfl
    · rw [if_neg hup]
      exact h.components_front_append hslash (ofPart?_of_plain ⟨hstem, hslash, hdot, hup⟩)

end Ending

end Path

end LiveUnits
