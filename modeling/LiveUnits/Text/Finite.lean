/-!
# Finitely many texts

There are finitely many texts of bounded length: `exists_texts_upTo` lists them.  What can be named
by a path that the operating system accepts is therefore finite as well.
-/

namespace LiveUnits

/-- Every character, in a list. -/
def allChars : List Char := (List.range 0x110000).map Char.ofNat

theorem mem_allChars (c : Char) : c ∈ allChars := by
  refine List.mem_map.2 ⟨c.toNat, ?_, Char.ofNat_toNat c⟩
  have h := c.valid
  simp only [List.mem_range, Char.toNat]
  rcases h with h | ⟨_, h⟩ <;> omega

/-- The lists of at most `n` characters. -/
theorem exists_lists_upTo (n : Nat) :
    ∃ all : List (List Char), ∀ cs : List Char, cs.length ≤ n → cs ∈ all := by
  induction n with
  | zero =>
    refine ⟨[[]], fun cs h => ?_⟩
    simp [List.length_eq_zero_iff.1 (Nat.le_zero.1 h)]
  | succ n ih =>
    obtain ⟨all, hall⟩ := ih
    refine ⟨[] :: allChars.flatMap fun c => all.map (c :: ·), fun cs h => ?_⟩
    cases cs with
    | nil => simp
    | cons c cs =>
      refine List.mem_cons_of_mem _ (List.mem_flatMap.2 ⟨c, mem_allChars c, ?_⟩)
      exact List.mem_map.2 ⟨cs, hall cs (by simpa using h), rfl⟩

/-- The texts of at most `n` characters. -/
theorem exists_texts_upTo (n : Nat) :
    ∃ all : List String, ∀ s : String, s.toList.length ≤ n → s ∈ all := by
  obtain ⟨all, hall⟩ := exists_lists_upTo n
  refine ⟨all.map String.ofList, fun s h => List.mem_map.2 ⟨s.toList, hall _ h, ?_⟩⟩
  simp

end LiveUnits
