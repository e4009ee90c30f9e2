import LiveUnits.Text.Utf8

/-!
# UTF-8 is read back

Reading the UTF-8 form of a text gives the text (`Utf8.decode?_encode`), and a byte string that can be
read is the UTF-8 form of what was read (`Utf8.encode_of_decode?`).  Both come down to sequences of one
to four bytes: the form of a character is such a sequence, each sequence is cut off as one piece, and
the character of the piece has the sequence as its form.

A byte below 0x80 occurs in the form of a character only if it is the whole form, so ASCII separators
can be looked for among the bytes (`Utf8.toNat_of_mem_encodeChar`).
-/

namespace LiveUnits

namespace Utf8

/-! ## Lead bytes -/

/-- The first bytes of scalars, by what may follow them. -/
theorem lead_table : ∀ n < 256, (lead (UInt8.ofNat n)).map
      (fun l => (l.tail, l.low.toNat, l.high.toNat)) =
    if n < 0xC2 then none
    else if n ≤ 0xDF then some (1, 0x80, 0xBF)
    else if n ≤ 0xEF then
      some (2, if n = 0xE0 then 0xA0 else 0x80, if n = 0xED then 0x9F else 0xBF)
    else if n ≤ 0xF4 then
      some (3, if n = 0xF0 then 0x90 else 0x80, if n = 0xF4 then 0x8F else 0xBF)
    else none := by
  decide +kernel

/-- What a lead byte asks for, in numbers. -/
theorem lead_eq (a : UInt8) : (lead a).map (fun l => (l.tail, l.low.toNat, l.high.toNat)) =
    if a.toNat < 0xC2 then none
    else if a.toNat ≤ 0xDF then some (1, 0x80, 0xBF)
    else if a.toNat ≤ 0xEF then
      some (2, if a.toNat = 0xE0 then 0xA0 else 0x80, if a.toNat = 0xED then 0x9F else 0xBF)
    else if a.toNat ≤ 0xF4 then
      some (3, if a.toNat = 0xF0 then 0x90 else 0x80, if a.toNat = 0xF4 then 0x8F else 0xBF)
    else none := by
  have h := lead_table a.toNat a.toNat_lt
  rwa [UInt8.ofNat_toNat] at h

/-- A byte that starts a sequence of two to four bytes. -/
inductive LeadCase (a : UInt8) (l : Lead) : Prop
  | two (htail : l.tail = 1) (ha : 0xC2 ≤ a.toNat) (ha' : a.toNat ≤ 0xDF)
      (hlow : l.low.toNat = 0x80) (hhigh : l.high.toNat = 0xBF)
  | three (htail : l.tail = 2) (ha : 0xE0 ≤ a.toNat) (ha' : a.toNat ≤ 0xEF)
      (hlow : l.low.toNat = if a.toNat = 0xE0 then 0xA0 else 0x80)
      (hhigh : l.high.toNat = if a.toNat = 0xED then 0x9F else 0xBF)
  | four (htail : l.tail = 3) (ha : 0xF0 ≤ a.toNat) (ha' : a.toNat ≤ 0xF4)
      (hlow : l.low.toNat = if a.toNat = 0xF0 then 0x90 else 0x80)
      (hhigh : l.high.toNat = if a.toNat = 0xF4 then 0x8F else 0xBF)

/-- Every first byte is of one of these kinds. -/
theorem leadCase_of_lead {a : UInt8} {l : Lead} (h : lead a = some l) : LeadCase a l := by
  have hlead := lead_eq a
  rw [h, Option.map_some] at hlead
  split at hlead
  · cases hlead
  · split at hlead
    · obtain ⟨htail, hlow, hhigh⟩ := by simpa using hlead
      exact .two htail (by omega) (by omega) hlow hhigh
    · split at hlead
      · obtain ⟨htail, hlow, hhigh⟩ := by simpa using hlead
        exact .three htail (by omega) (by omega) hlow hhigh
      · split at hlead
        · obtain ⟨htail, hlow, hhigh⟩ := by simpa using hlead
          exact .four htail (by omega) (by omega) hlow hhigh
        · cases hlead

/-- Every byte in this range begins a scalar. -/
theorem exists_lead {a : UInt8} (ha : 0xC2 ≤ a.toNat) (ha' : a.toNat ≤ 0xF4) :
    ∃ l, lead a = some l := by
  refine Option.isSome_iff_exists.mp ?_
  rw [← Option.isSome_map, lead_eq, if_neg (Nat.not_lt.mpr ha)]
  by_cases h2 : a.toNat ≤ 0xDF
  · rw [if_pos h2]
    rfl
  by_cases h3 : a.toNat ≤ 0xEF
  · rw [if_neg h2, if_pos h3]
    rfl
  · rw [if_neg h2, if_neg h3, if_pos ha']
    rfl

theorem not_ascii_of_le {a : UInt8} (ha : 0x80 ≤ a.toNat) : ¬ a < 0x80 := by
  rw [UInt8.lt_iff_toNat_lt]
  exact Nat.not_lt.mpr ha

/-! ## Sequences are pieces -/

/-- Two bytes that belong together are one scalar. -/
theorem pieces_two {a b : UInt8} (ha : 0xC2 ≤ a.toNat ∧ a.toNat ≤ 0xDF)
    (hb : 0x80 ≤ b.toNat ∧ b.toNat ≤ 0xBF) (rest : Bytes) :
    pieces (a :: b :: rest) =
      .scalar (Char.ofNat (a.toNat % 32 * 64 + payload b)) :: pieces rest := by
  obtain ⟨l, hl⟩ := exists_lead (a := a) (by omega) (by omega)
  rw [pieces, if_neg (not_ascii_of_le (by omega)), hl]
  cases leadCase_of_lead hl with
  | two htail _ _ hlow hhigh => simp [UInt8.le_iff_toNat_le, hlow, hhigh, hb, htail]
  | three _ h => omega
  | four _ h => omega

/-- Three bytes that belong together are one scalar. -/
theorem pieces_three {a b c : UInt8} (ha : 0xE0 ≤ a.toNat ∧ a.toNat ≤ 0xEF)
    (hb : 0x80 ≤ b.toNat ∧ b.toNat ≤ 0xBF) (hlong : a.toNat = 0xE0 → 0xA0 ≤ b.toNat)
    (hscalar : a.toNat = 0xED → b.toNat ≤ 0x9F)
    (hc : 0x80 ≤ c.toNat ∧ c.toNat ≤ 0xBF) (rest : Bytes) :
    pieces (a :: b :: c :: rest) =
      .scalar (Char.ofNat ((a.toNat % 16 * 64 + payload b) * 64 + payload c)) :: pieces rest := by
  obtain ⟨l, hl⟩ := exists_lead (a := a) (by omega) (by omega)
  rw [pieces, if_neg (not_ascii_of_le (by omega)), hl]
  cases leadCase_of_lead hl with
  | two _ _ h => omega
  | three htail _ _ hlow hhigh =>
      have hlow' : l.low.toNat ≤ b.toNat := by
        rw [hlow]
        split <;> omega
      have hhigh' : b.toNat ≤ l.high.toNat := by
        rw [hhigh]
        split <;> omega
      simp [UInt8.le_iff_toNat_le, hlow', hhigh', hc, htail, isTail]
  | four _ h => omega

/-- Four bytes that belong together are one scalar. -/
theorem pieces_four {a b c d : UInt8} (ha : 0xF0 ≤ a.toNat ∧ a.toNat ≤ 0xF4)
    (hb : 0x80 ≤ b.toNat ∧ b.toNat ≤ 0xBF) (hlong : a.toNat = 0xF0 → 0x90 ≤ b.toNat)
    (hscalar : a.toNat = 0xF4 → b.toNat ≤ 0x8F)
    (hc : 0x80 ≤ c.toNat ∧ c.toNat ≤ 0xBF) (hd : 0x80 ≤ d.toNat ∧ d.toNat ≤ 0xBF) (rest : Bytes) :
    pieces (a :: b :: c :: d :: rest) =
      .scalar (Char.ofNat (((a.toNat % 8 * 64 + payload b) * 64 + payload c) * 64 + payload d)) ::
        pieces rest := by
  obtain ⟨l, hl⟩ := exists_lead (a := a) (by omega) (by omega)
  rw [pieces, if_neg (not_ascii_of_le (by omega)), hl]
  cases leadCase_of_lead hl with
  | two _ _ h => omega
  | three _ _ h => omega
  | four htail _ _ hlow hhigh =>
      have hlow' : l.low.toNat ≤ b.toNat := by
        rw [hlow]
        split <;> omega
      have hhigh' : b.toNat ≤ l.high.toNat := by
        rw [hhigh]
        split <;> omega
      simp [UInt8.le_iff_toNat_le, hlow', hhigh', hc, hd, htail, isTail]

/-! ## Characters have sequences as their forms -/

theorem toNat_bounds (c : Char) :
    c.val.toNat < 0xD800 ∨ 0xDFFF < c.val.toNat ∧ c.val.toNat < 0x110000 := c.valid

/-- A character is known by its number. -/
theorem ofNat_eq_of_toNat {c : Char} {n : Nat} (h : n = c.val.toNat) : Char.ofNat n = c := by
  rw [h]
  exact Char.ofNat_toNat c

/-- The form of a character is one piece. -/
theorem pieces_encodeChar (c : Char) (rest : Bytes) :
    pieces (String.utf8EncodeChar c ++ rest) = .scalar c :: pieces rest := by
  have hbounds := toNat_bounds c
  generalize hv : c.val.toNat = v at hbounds
  unfold String.utf8EncodeChar
  simp only [hv]
  by_cases h1 : v ≤ 0x7F
  · have hascii : UInt8.ofNat v < 0x80 := by
      rw [UInt8.lt_iff_toNat_lt, UInt8.toNat_ofNat']
      exact Nat.lt_of_le_of_lt (Nat.mod_le _ _) (Nat.lt_succ_of_le h1)
    rw [if_pos h1, List.singleton_append, pieces, if_pos hascii, ofNat_eq_of_toNat]
    rw [UInt8.toNat_ofNat', hv]
    omega
  rw [if_neg h1]
  by_cases h2 : v ≤ 0x7FF
  · rw [if_pos h2, List.cons_append, List.singleton_append, pieces_two, ofNat_eq_of_toNat] <;>
      simp only [payload, UInt8.toNat_ofNat', hv] <;> omega
  rw [if_neg h2]
  by_cases h3 : v ≤ 0xFFFF
  · rw [if_pos h3, List.cons_append, List.cons_append, List.singleton_append, pieces_three,
      ofNat_eq_of_toNat] <;> simp only [payload, UInt8.toNat_ofNat', hv] <;> omega
  · rw [if_neg h3, List.cons_append, List.cons_append, List.cons_append, List.singleton_append,
      pieces_four, ofNat_eq_of_toNat] <;> simp only [payload, UInt8.toNat_ofNat', hv] <;> omega

/-- Every number of a scalar is that of a character. -/
theorem toNat_ofNat_of_valid {n : Nat} (h : n < 0xD800 ∨ 0xDFFF < n ∧ n < 0x110000) :
    (Char.ofNat n).val.toNat = n := by
  unfold Char.ofNat
  rw [dif_pos h]
  rfl

/-- The bytes of a character, by its number. -/
theorem encodeChar_ofNat {n : Nat} (h : n < 0xD800 ∨ 0xDFFF < n ∧ n < 0x110000) :
    String.utf8EncodeChar (Char.ofNat n) =
      if n ≤ 0x7F then [UInt8.ofNat n]
      else if n ≤ 0x7FF then [UInt8.ofNat (n / 64 % 32 + 0xC0), UInt8.ofNat (n % 64 + 0x80)]
      else if n ≤ 0xFFFF then
        [UInt8.ofNat (n / 4096 % 16 + 0xE0), UInt8.ofNat (n / 64 % 64 + 0x80),
          UInt8.ofNat (n % 64 + 0x80)]
      else
        [UInt8.ofNat (n / 262144 % 8 + 0xF0), UInt8.ofNat (n / 4096 % 64 + 0x80),
          UInt8.ofNat (n / 64 % 64 + 0x80), UInt8.ofNat (n % 64 + 0x80)] := by
  unfold String.utf8EncodeChar
  simp only [toNat_ofNat_of_valid h]

/-- A scalar of two bytes is encoded by these two. -/
theorem encodeChar_two {a b : UInt8} (ha : 0xC2 ≤ a.toNat ∧ a.toNat ≤ 0xDF)
    (hb : 0x80 ≤ b.toNat ∧ b.toNat ≤ 0xBF) :
    String.utf8EncodeChar (Char.ofNat (a.toNat % 32 * 64 + payload b)) = [a, b] := by
  unfold payload
  rw [encodeChar_ofNat (by omega), if_neg (by omega), if_pos (by omega)]
  simp only [List.cons.injEq, ← UInt8.toNat_inj, UInt8.toNat_ofNat']
  refine ⟨?_, ?_, trivial⟩ <;> omega

/-- A scalar of three bytes is encoded by these three. -/
theorem encodeChar_three {a b c : UInt8} (ha : 0xE0 ≤ a.toNat ∧ a.toNat ≤ 0xEF)
    (hb : 0x80 ≤ b.toNat ∧ b.toNat ≤ 0xBF) (hlong : a.toNat = 0xE0 → 0xA0 ≤ b.toNat)
    (hscalar : a.toNat = 0xED → b.toNat ≤ 0x9F) (hc : 0x80 ≤ c.toNat ∧ c.toNat ≤ 0xBF) :
    String.utf8EncodeChar (Char.ofNat ((a.toNat % 16 * 64 + payload b) * 64 + payload c)) =
      [a, b, c] := by
  unfold payload
  rw [encodeChar_ofNat (by omega), if_neg (by omega), if_neg (by omega), if_pos (by omega)]
  simp only [List.cons.injEq, ← UInt8.toNat_inj, UInt8.toNat_ofNat']
  refine ⟨?_, ?_, ?_, trivial⟩ <;> omega

/-- A scalar of four bytes is encoded by these four. -/
theorem encodeChar_four {a b c d : UInt8} (ha : 0xF0 ≤ a.toNat ∧ a.toNat ≤ 0xF4)
    (hb : 0x80 ≤ b.toNat ∧ b.toNat ≤ 0xBF) (hlong : a.toNat = 0xF0 → 0x90 ≤ b.toNat)
    (hscalar : a.toNat = 0xF4 → b.toNat ≤ 0x8F) (hc : 0x80 ≤ c.toNat ∧ c.toNat ≤ 0xBF)
    (hd : 0x80 ≤ d.toNat ∧ d.toNat ≤ 0xBF) :
    String.utf8EncodeChar
        (Char.ofNat (((a.toNat % 8 * 64 + payload b) * 64 + payload c) * 64 + payload d)) =
      [a, b, c, d] := by
  unfold payload
  rw [encodeChar_ofNat (by omega), if_neg (by omega), if_neg (by omega), if_neg (by omega)]
  simp only [List.cons.injEq, ← UInt8.toNat_inj, UInt8.toNat_ofNat']
  refine ⟨?_, ?_, ?_, ?_, trivial⟩ <;> omega

/-! ## Texts -/

/-- The pieces of a form are its characters. -/
theorem pieces_encode (cs : List Char) :
    pieces (cs.flatMap String.utf8EncodeChar) = cs.map .scalar := by
  induction cs with
  | nil => rfl
  | cons c rest ih => rw [List.flatMap_cons, pieces_encodeChar, ih, List.map_cons]

theorem gather_scalars (cs : List Char) (index : Nat) :
    gather index (cs.map .scalar) = .ok cs := by
  induction cs generalizing index with
  | nil => rfl
  | cons c rest ih =>
      rw [List.map_cons, gather, ih]
      rfl

/-- **The form of a text is read back.** -/
theorem decode?_encode (s : String) : decode? (encode s) = some s := by
  rw [decode?, decode, encode, pieces_encode, gather_scalars]
  exact congrArg some (String.ofList_toList)

/-- Broken bytes make no text. -/
theorem gather_broken {index : Nat} {bytes : Bytes} {cut : Bool} {rest : List Piece}
    {cs : List Char} (h : gather index (.broken bytes cut :: rest) = .ok cs) : False := by
  cases h

/-- A text begins with its first scalar. -/
theorem gather_scalar {index : Nat} {c : Char} {rest : List Piece} {cs : List Char}
    (h : gather index (.scalar c :: rest) = .ok cs) :
    ∃ others, cs = c :: others ∧ gather (index + c.utf8Size) rest = .ok others := by
  rw [gather] at h
  cases hrest : gather (index + c.utf8Size) rest with
  | error f =>
      rw [hrest] at h
      cases h
  | ok others =>
      rw [hrest] at h
      exact ⟨others, (Except.ok.inj h).symm, rfl⟩

/-- What was read from pieces has the pieces' bytes as its form. -/
theorem encode_of_gather {bytes : Bytes} {index : Nat} {cs : List Char}
    (h : gather index (pieces bytes) = .ok cs) : cs.flatMap String.utf8EncodeChar = bytes := by
  -- a broken piece ends the reading; the others are the four lengths of a scalar value
  fun_induction pieces bytes generalizing index cs with
  | case1 =>
      obtain rfl := Except.ok.inj h
      rfl
  | case2 a rest hascii ih =>
      obtain ⟨others, rfl, hrest⟩ := gather_scalar h
      have hlow : a.toNat < 0x80 := UInt8.lt_iff_toNat_lt.mp hascii
      rw [List.flatMap_cons, ih hrest, encodeChar_ofNat (by omega), if_pos (by omega),
        UInt8.ofNat_toNat]
      rfl
  | case3 => exact (gather_broken h).elim
  | case4 => exact (gather_broken h).elim
  | case5 => exact (gather_broken h).elim
  | case6 a hascii l hl b rest hb htail ih =>
      obtain ⟨others, rfl, hrest⟩ := gather_scalar h
      simp only [Bool.not_eq_true', Bool.not_eq_false, Bool.and_eq_true, decide_eq_true_eq,
        UInt8.le_iff_toNat_le, beq_iff_eq] at hb htail
      rw [List.flatMap_cons, ih hrest]
      cases leadCase_of_lead hl with
      | two _ ha ha' hlow hhigh =>
          rw [encodeChar_two ⟨ha, ha'⟩ ⟨by omega, by omega⟩]
          rfl
      | three htail' => omega
      | four htail' => omega
  | case7 => exact (gather_broken h).elim
  | case8 => exact (gather_broken h).elim
  | case9 a hascii l hl b hb htail c rest hc htail' ih =>
      obtain ⟨others, rfl, hrest⟩ := gather_scalar h
      simp only [Bool.not_eq_true', Bool.not_eq_false, Bool.and_eq_true, decide_eq_true_eq,
        UInt8.le_iff_toNat_le, beq_iff_eq, isTail] at hb hc htail'
      rw [List.flatMap_cons, ih hrest]
      cases leadCase_of_lead hl with
      | two htail => omega
      | three _ ha ha' hlow hhigh =>
          rw [hlow, hhigh] at hb
          rw [encodeChar_three ⟨ha, ha'⟩ ?_ ?_ ?_ hc]
          · rfl
          all_goals split at hb <;> split at hb <;> omega
      | four htail => omega
  | case10 => exact (gather_broken h).elim
  | case11 => exact (gather_broken h).elim
  | case12 a hascii l hl b hb htail c hc htail' d rest hd ih =>
      obtain ⟨others, rfl, hrest⟩ := gather_scalar h
      simp only [Bool.not_eq_true', Bool.not_eq_false, Bool.and_eq_true, decide_eq_true_eq,
        UInt8.le_iff_toNat_le, beq_iff_eq, isTail] at hb hc hd htail htail'
      rw [List.flatMap_cons, ih hrest]
      cases leadCase_of_lead hl with
      | two htail => omega
      | three htail => omega
      | four _ ha ha' hlow hhigh =>
          rw [hlow, hhigh] at hb
          rw [encodeChar_four ⟨ha, ha'⟩ ?_ ?_ ?_ hc hd]
          · rfl
          all_goals split at hb <;> split at hb <;> omega

/-- **A byte string that can be read is the form of what was read.** -/
theorem encode_of_decode? {bytes : Bytes} {s : String} (h : decode? bytes = some s) :
    encode s = bytes := by
  unfold decode? decode at h
  cases hgather : gather 0 (pieces bytes) with
  | error f =>
      rw [hgather] at h
      cases h
  | ok cs =>
      rw [hgather] at h
      obtain rfl : String.ofList cs = s := Option.some.inj h
      rw [encode, String.toList_ofList]
      exact encode_of_gather hgather

/-- A form determines its text. -/
theorem encode_inj {s t : String} (h : encode s = encode t) : s = t := by
  have hs := decode?_encode s
  rw [h, decode?_encode] at hs
  exact (Option.some.inj hs).symm

/-! ## ASCII bytes -/

/-- An ASCII byte in the form of a character is the character. -/
theorem toNat_of_mem_encodeChar {c : Char} {a : UInt8} (ha : a ∈ String.utf8EncodeChar c)
    (hascii : a.toNat < 0x80) : c.val.toNat = a.toNat := by
  unfold String.utf8EncodeChar at ha
  simp only at ha
  split at ha
  · obtain rfl := List.mem_singleton.mp ha
    rw [UInt8.toNat_ofNat']
    omega
  · exfalso
    split at ha
    · simp only [List.mem_cons, List.not_mem_nil, or_false] at ha
      rcases ha with rfl | rfl <;> rw [UInt8.toNat_ofNat'] at hascii <;> omega
    · split at ha
      · simp only [List.mem_cons, List.not_mem_nil, or_false] at ha
        rcases ha with rfl | rfl | rfl <;> rw [UInt8.toNat_ofNat'] at hascii <;> omega
      · simp only [List.mem_cons, List.not_mem_nil, or_false] at ha
        rcases ha with rfl | rfl | rfl | rfl <;> rw [UInt8.toNat_ofNat'] at hascii <;> omega

/-- An ASCII byte in the form of a text is one of its characters. -/
theorem mem_of_mem_encode {s : String} {c : Char} (hc : c.val.toNat < 0x80)
    (h : UInt8.ofNat c.val.toNat ∈ encode s) : c ∈ s.toList := by
  obtain ⟨d, hd, hmem⟩ := List.mem_flatMap.mp h
  have hascii : (UInt8.ofNat c.val.toNat).toNat = c.val.toNat := by
    rw [UInt8.toNat_ofNat']
    omega
  have hsame := toNat_of_mem_encodeChar hmem (by omega)
  rw [hascii] at hsame
  rwa [← Char.ext (UInt32.toNat_inj.mp hsame)]

/-- A text is read from its form, and from nothing else. -/
theorem decode?_eq_some_iff {bytes : Bytes} {s : String} : decode? bytes = some s ↔ bytes = encode s := by
  constructor
  · intro h
    exact (encode_of_decode? h).symm
  · rintro rfl
    exact decode?_encode s

/-- **Bytes are read as a text exactly if they are its encoding.** -/
theorem decode_eq_ok {bytes : Bytes} {s : String} : decode bytes = .ok s ↔ bytes = encode s := by
  rw [← decode?_eq_some_iff, decode?]
  cases decode bytes with
  | error f => exact ⟨nofun, nofun⟩
  | ok t =>
      exact ⟨fun h => congrArg some (Except.ok.inj h), fun h => congrArg Except.ok (Option.some.inj h)⟩

/-- What cannot be read is the form of no text. -/
theorem encode_ne_of_decode? {bytes : Bytes} (h : decode? bytes = none) (s : String) : encode s ≠ bytes := by
  rintro rfl
  rw [decode?_encode] at h
  cases h

/-- Nothing in a text has to be replaced. -/
theorem lossy_encode (s : String) : lossy (encode s) = s := by
  unfold lossy encode
  rw [pieces_encode, List.map_map]
  simp [Function.comp_def]

/-- An ASCII character of a text is a byte of its form. -/
theorem mem_encode_of_mem {s : String} {c : Char} (hc : c.val.toNat < 0x80) (h : c ∈ s.toList) :
    UInt8.ofNat c.val.toNat ∈ encode s := by
  refine List.mem_flatMap.mpr ⟨c, h, ?_⟩
  unfold String.utf8EncodeChar
  simp only
  rw [if_pos (by omega)]
  exact List.mem_singleton_self _

/-- Texts are encoded one after the other. -/
theorem encode_append (s t : String) : encode (s ++ t) = encode s ++ encode t := by
  rw [encode, String.toList_append, List.flatMap_append]
  rfl

theorem encode_ne_nil {s : String} (h : s.toList ≠ []) : encode s ≠ [] := by
  intro hnil
  have hdecode := decode?_encode s
  rw [hnil] at hdecode
  obtain rfl := Option.some.inj hdecode
  exact h rfl

end Utf8

end LiveUnits
