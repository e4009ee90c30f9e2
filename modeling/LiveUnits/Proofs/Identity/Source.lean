import LiveUnits.Proofs.Identity.Reading
import LiveUnits.Proofs.Path.Ending
import LiveUnits.Proofs.Text.Utf8

/-!
# Which source path spells an identity

A path that goes down through plain names spells at most one identity, and the names can be computed
from it: they are the segments, the last one followed by a dot and the extension
(`Identity.names_of_ofSourcePath`).  So no two such paths spell the same identity
(`Identity.names_inj`).
-/

namespace LiveUnits

namespace Identity

/-! ## Segments as names -/

/-- No separator is in the bytes of a segment. -/
theorem slash_not_mem_encode {s : String} (hs : isSegment s = true) : slash ∉ Utf8.encode s := by
  intro h
  exact not_mem_of_isSegment hs (by decide) (Utf8.mem_of_mem_encode (c := '/') (by decide) h)

theorem fullStop_not_mem_encode {s : String} (hs : isSegment s = true) :
    fullStop ∉ Utf8.encode s := by
  intro h
  exact not_mem_of_isSegment hs (by decide) (Utf8.mem_of_mem_encode (c := '.') (by decide) h)

/-- A segment can be the name of an entry. -/
theorem plain_encode {s : String} (hs : isSegment s = true) : PlainName (Utf8.encode s) where
  ne_nil := Utf8.encode_ne_nil (not_isSegment_empty hs)
  no_slash := slash_not_mem_encode hs
  ne_here := fun h => fullStop_not_mem_encode hs (by rw [h]; exact List.mem_singleton_self _)
  ne_up := fun h => fullStop_not_mem_encode hs (by rw [h]; exact List.mem_cons_self)

/-! ## Reading components -/

/-- A segment has the bytes of the component it was read from. -/
theorem encode_of_segmentOfComponent {p : Path} {n : Name} {s : String}
    (h : segmentOfComponent p (.name n) = .ok s) : Utf8.encode s = n := by
  unfold segmentOfComponent at h
  simp only at h
  split at h
  · next s' hdecode =>
    split at h
    · obtain rfl := Except.ok.inj h
      exact Utf8.encode_of_decode? hdecode
    · cases h
  · cases h

/-- Reading all of a list reads its head and all of the rest. -/
theorem mapM_ok_cons {α β ε : Type} {f : α → Except ε β} {a : α} {as : List α} {bs : List β}
    (h : (a :: as).mapM f = .ok bs) :
    ∃ b rest, bs = b :: rest ∧ f a = .ok b ∧ as.mapM f = .ok rest := by
  rw [List.mapM_cons] at h
  cases hb : f a with
  | error e =>
      rw [hb] at h
      cases h
  | ok b =>
      rw [hb] at h
      cases hrest : as.mapM f with
      | error e =>
          rw [hrest] at h
          cases h
      | ok rest =>
          rw [hrest] at h
          exact ⟨b, rest, (Except.ok.inj h).symm, rfl, rfl⟩

/-- Names that can be read as segments are the forms of what was read. -/
theorem encode_of_mapM {p : Path} {names : List Name} {segments : List String}
    (h : (names.map Path.Component.name).mapM (segmentOfComponent p) = .ok segments) :
    segments.map Utf8.encode = names := by
  induction names generalizing segments with
  | nil =>
      obtain rfl := Except.ok.inj h
      rfl
  | cons n rest ih =>
      obtain ⟨s, others, rfl, hs, hothers⟩ := mapM_ok_cons h
      rw [List.map_cons, encode_of_segmentOfComponent hs, ih hothers]

/-- A component that is no name spells no segment. -/
theorem mapM_up {p : Path} (cs : List Path.Component) {segments : List String}
    (h : (cs ++ [Path.Component.up]).mapM (segmentOfComponent p) = .ok segments) : False := by
  induction cs generalizing segments with
  | nil =>
      obtain ⟨s, -, -, hs, -⟩ := mapM_ok_cons h
      cases hs
  | cons c rest ih =>
      obtain ⟨-, others, -, -, hothers⟩ := mapM_ok_cons h
      exact ih hothers

/-- Two steps succeed only if the first one does. -/
theorem exists_of_bind {α β ε : Type} {x : Except ε α} {f : α → Except ε β} {b : β}
    (h : (x >>= f) = .ok b) : ∃ a, x = .ok a ∧ f a = .ok b := by
  cases x with
  | error e => cases h
  | ok a => exact ⟨a, rfl, h⟩

/-! ## Source paths -/

/-- **The names on a source path can be read off its identity.** -/
theorem names_of_ofSourcePath {names : List Name} (hplain : ∀ n ∈ names, PlainName n)
    {extension : String} {i : Identity}
    (h : ofSourcePath (Path.empty.descend names) extension = .ok i) :
    ∃ front last, i.segments = front ++ [last] ∧
      names = front.map Utf8.encode ++ [Utf8.encode last ++ fullStop :: Utf8.encode extension] := by
  cases names using List.reverseRecOn with
  | nil => cases h
  | append_singleton front n =>
      have hn : PlainName n := hplain n (by simp)
      have hfront : ∀ m ∈ front, PlainName m := fun m hm => hplain m (List.mem_append_left _ hm)
      rw [Path.descend_concat] at h
      unfold ofSourcePath at h
      split at h
      · next hextension =>
        obtain ⟨e, he, hdecode⟩ := Option.bind_eq_some_iff.mp hextension
        unfold Path.extension? at he
        rw [Path.fileName?_joinBytes _ hn, Option.bind_some] at he
        obtain ⟨stem, hsplit⟩ : ∃ stem, Path.splitExtension n = (stem, some e) :=
          ⟨_, Prod.ext rfl he⟩
        obtain ⟨rfl, hstem, hdot⟩ := Path.eq_of_splitExtension hsplit
        obtain ⟨segments, hsegments, hi⟩ := exists_of_bind h
        rw [Path.withoutExtension_joinBytes _ hn hstem hdot] at hsegments
        have hcomponents := Path.empty.components_descend hfront
        by_cases hhere : stem = [fullStop]
        · rw [if_pos hhere, Path.components_joinPart _ (by decide) rfl] at hsegments
          exact (mapM_up _ hsegments).elim
        rw [if_neg hhere] at hsegments
        by_cases hup : stem = [fullStop, fullStop]
        · rw [hup, Path.components_joinPart _ (by decide) rfl] at hsegments
          exact (mapM_up _ hsegments).elim
        have hstem' : PlainName stem := ⟨hstem, Path.plain_stem hn, hhere, hup⟩
        rw [Path.components_joinBytes _ hstem', hcomponents] at hsegments
        have hforms : segments.map Utf8.encode = front ++ [stem] := by
          refine encode_of_mapM (p := (Path.empty.descend front).joinBytes (stem ++ fullStop :: e)) ?_
          rw [List.map_append]
          exact hsegments
        obtain ⟨init, last, rfl, rfl, hlast⟩ := List.map_eq_append_iff.mp hforms
        obtain ⟨s, rfl, rfl⟩ := List.map_eq_singleton_iff.mp hlast
        refine ⟨init, s, segments_of_ofSegments hi, ?_⟩
        rw [Utf8.encode_of_decode? hdecode]
      · cases h

/-- Components are never refused for an extension. -/
theorem mapM_ne_wrongExtension {p q : Path} (cs : List Path.Component) :
    cs.mapM (segmentOfComponent p) ≠ .error (.wrongExtension q) := by
  induction cs with
  | nil =>
      intro h
      cases h
  | cons c rest ih =>
      rw [List.mapM_cons]
      cases hc : segmentOfComponent p c with
      | error e =>
          rintro ⟨⟩
          unfold segmentOfComponent at hc
          cases c with
          | name n =>
              dsimp only at hc
              split at hc
              · split at hc <;> cases hc
              · cases hc
          | root => cases hc
          | here => cases hc
          | up => cases hc
      | ok segment =>
          cases hrest : rest.mapM (segmentOfComponent p) with
          | error e =>
              rintro ⟨⟩
              exact ih hrest
          | ok segments =>
              intro h
              cases h

/-- A path with the extension asked for is never refused for its extension. -/
theorem ofSourcePath_ne_wrongExtension {path q : Path} {extension : String}
    (h : path.extension?.bind Utf8.decode? = some extension) :
    ofSourcePath path extension ≠ .error (.wrongExtension q) := by
  unfold ofSourcePath
  rw [if_pos h]
  cases hsegments : path.withoutExtension.components.mapM (segmentOfComponent path) with
  | error e =>
      rintro ⟨⟩
      exact mapM_ne_wrongExtension _ hsegments
  | ok segments =>
      have hbind : (Except.ok segments >>= fun segments => ofSegments (".".intercalate segments) segments) =
          ofSegments (".".intercalate segments) segments := rfl
      rw [hbind]
      unfold ofSegments
      intro h
      split at h
      · cases h
      · split at h <;> cases h

/-- No two paths through plain names spell the same identity. -/
theorem names_inj {names names' : List Name} (hplain : ∀ n ∈ names, PlainName n)
    (hplain' : ∀ n ∈ names', PlainName n) {extension : String} {i : Identity}
    (h : ofSourcePath (Path.empty.descend names) extension = .ok i)
    (h' : ofSourcePath (Path.empty.descend names') extension = .ok i) : names = names' := by
  obtain ⟨front, last, hsegments, rfl⟩ := names_of_ofSourcePath hplain h
  obtain ⟨front', last', hsegments', rfl⟩ := names_of_ofSourcePath hplain' h'
  obtain ⟨rfl, hlast⟩ := List.append_inj' (hsegments.symm.trans hsegments') rfl
  rw [List.singleton_inj.mp hlast]

end Identity

end LiveUnits
