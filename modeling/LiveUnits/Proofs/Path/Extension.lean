import LiveUnits.Proofs.Path.Ending

/-!
# Changing extensions, and paths above

A path gets another extension by cutting what follows the stem of the name that it ends in and appending a
dot and the new extension (`Path.withExtension?`).  A name without a dot has no extension to be cut, so it
only gets longer (`Path.withExtension?_joinBytes`).

A path that ends in a name has a parent, which is spelt like the beginning of it
(`Path.prefix_of_parent?_joinBytes`), and the components of any path above another one are the first ones of
that path (`Path.components_of_mem_ancestors`).
-/

namespace LiveUnits

namespace Path

/-! ## Another extension -/

/-- The path with another extension.  As many bytes as the old extension has are cut off the end first, and
then everything after the stem of the name that the rest ends in; without such a name nothing is appended.
An extension with a separator is refused. -/
def withExtension? (p : Path) (extension : Bytes) : Option Path :=
  if slash ∈ extension then none
  else
    let rest : Path :=
      match p.extension? with
      | none => p
      | some old => ⟨p.bytes.take (p.bytes.length - old.length)⟩
    if rest.fileName? = none ∨ extension = [] then some rest.cutAtStem
    else some ⟨rest.cutAtStem.bytes ++ fullStop :: extension⟩

/-- A name without a dot has no extension. -/
theorem splitExtension_of_not_mem {n : Name} (h : fullStop ∉ n) : splitExtension n = (n, none) := by
  unfold splitExtension splitLast
  rw [if_neg h]

/-- **A name without a dot gets longer** by a dot and the extension. -/
theorem withExtension?_joinBytes (p : Path) {n : Name} (hn : PlainName n) (hdot : fullStop ∉ n)
    {extension : Bytes} (hne : extension ≠ []) (hslash : slash ∉ extension) :
    (p.joinBytes n).withExtension? extension =
      some ⟨(p.joinBytes n).bytes ++ fullStop :: extension⟩ := by
  have hname := p.fileName?_joinBytes hn
  have hsplit := splitExtension_of_not_mem hdot
  have hextension : (p.joinBytes n).extension? = none := by
    unfold extension?
    rw [hname, Option.bind_some, hsplit]
  have hnamed : ¬ ((p.joinBytes n).fileName? = none ∨ extension = []) := by
    rw [hname, not_or]
    exact ⟨Option.some_ne_none n, hne⟩
  unfold withExtension?
  rw [if_neg hslash, hextension]
  simp only
  rw [if_neg hnamed, p.cutAtStem_joinBytes hn, hsplit]

/-! ## Paths above -/

/-- A path that ends in a name has a parent. -/
theorem isSome_parent?_joinBytes (p : Path) {n : Name} (hn : PlainName n) :
    (p.joinBytes n).parent?.isSome = true := by
  have hlast : (p.joinBytes n).components.getLast? = some (.name n) := by
    rw [p.components_joinBytes hn, List.getLast?_concat]
  unfold parent?
  rw [hlast]
  rfl

/-- The parent of a path that ends in a name is spelt like the beginning of what the name is joined to. -/
theorem prefix_of_parent?_joinBytes (p : Path) {q : Path} {n : Name} (hn : PlainName n)
    (h : (p.joinBytes n).parent? = some q) (hne : q.bytes ≠ []) : q.bytes <+: p.bytes := by
  rcases parent?_cases h with hnil | ⟨hroot, habsolute⟩ | ⟨-, more, hmore⟩
  · exact absurd hnil hne
  · rw [p.isAbsolute_joinBytes hn] at habsolute
    obtain ⟨bytes⟩ := p
    obtain ⟨rest, rfl⟩ := List.head?_eq_some_iff.mp (beq_iff_eq.mp habsolute)
    exact hroot ▸ ⟨rest, rfl⟩
  · rw [p.joinBytes_eq] at hmore
    -- no separator is in the name, so the one after the parent is before it
    obtain ⟨before, hfront⟩ : ∃ before, p.front = q.bytes ++ slash :: before := by
      rcases List.append_eq_append_iff.mp hmore with ⟨tail, -, htail⟩ | ⟨tail, hfront, htail⟩
      · exact absurd (htail ▸ by simp) hn.no_slash
      · cases tail with
        | nil =>
            obtain rfl : slash :: more = n := htail
            exact absurd List.mem_cons_self hn.no_slash
        | cons a before =>
            obtain ⟨rfl, -⟩ := List.cons.inj htail
            exact ⟨before, hfront⟩
    unfold front at hfront
    split at hfront
    · exact hfront ▸ List.prefix_append _ _
    · have hbegins : q.bytes <+: p.bytes ++ [slash] := hfront.symm ▸ List.prefix_append _ _
      refine (List.prefix_concat_iff.mp hbegins).resolve_left fun hall => ?_
      have hlength := congrArg List.length hfront
      rw [hall] at hlength
      simp at hlength

/-- The components of a parent are the first ones of the path. -/
theorem components_of_parent? {p q : Path} (h : p.parent? = some q) : q.components <+: p.components := by
  obtain ⟨qbytes⟩ := q
  obtain ⟨pbytes⟩ := p
  rcases parent?_cases h with hnil | ⟨hroot, habsolute⟩ | ⟨hne, more, hmore⟩
  · obtain rfl : qbytes = [] := hnil
    exact List.nil_prefix
  · obtain rfl : qbytes = [slash] := hroot
    have hhead : head ⟨pbytes⟩ = [.root] := if_pos habsolute
    rw [components_eq ⟨pbytes⟩, hhead]
    exact List.prefix_append [Component.root] _
  · obtain rfl : pbytes = qbytes ++ slash :: more := hmore
    rw [components_eq, components_eq, head_append_slash hne, body_append_slash, ← List.append_assoc]
    exact List.prefix_append _ _

/-- **A path above another one** has the first components of it. -/
theorem components_of_mem_ancestors {p q : Path} (h : q ∈ p.ancestors) :
    q.components <+: p.components := by
  have hupTo (fuel : Nat) (p : Path) (h : q ∈ ancestorsUpTo fuel p) : q.components <+: p.components := by
    induction fuel generalizing p with
    | zero => exact (List.not_mem_nil h).elim
    | succ fuel ih =>
        unfold ancestorsUpTo at h
        rcases List.mem_cons.mp h with rfl | h
        · exact List.prefix_refl _
        · cases hparent : p.parent? with
          | none =>
              rw [hparent] at h
              exact (List.not_mem_nil h).elim
          | some above =>
              rw [hparent] at h
              exact (ih above h).trans (components_of_parent? hparent)
  exact hupTo _ p h

end Path

end LiveUnits
