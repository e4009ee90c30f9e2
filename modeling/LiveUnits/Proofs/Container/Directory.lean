import LiveUnits.Container.Medium
import LiveUnits.Proofs.FileSystem.Walk
import LiveUnits.Proofs.Identity.Artifact

/-!
# What a directory lists

A directory is listed by going down through its entries, and a link to a directory is not entered.  So
a file is listed if directories alone are on the way to it (`FileSystem.mem_listEntries`).

A resource name is made up of its parts (`intercalate_of_resourceParts?`), each of which is a plain name
(`plain_namesOf`).
-/

namespace LiveUnits

namespace FileSystem

variable {fs : FileSystem} {path : Path} {start : String} {entries : List (Name × Node)}
  {resources : List String}

/-- An entry whose name is text is listed before the others. -/
theorem listEntries_cons (path : Path) (start s : String) (x : Node) (rest : List (Name × Node)) :
    fs.listEntries path start ((Utf8.encode s, x) :: rest) =
      (do
        let here ← fs.listEntry (path.joinBytes (Utf8.encode s)) (start ++ s) x
        let others ← fs.listEntries path start rest
        pure (here ++ others)) := by
  rw [listEntries, Utf8.decode?_encode]

/-- An entry whose name is no text is passed over. -/
theorem listEntries_cons_of_none (path : Path) (start : String) {name : Name}
    (h : Utf8.decode? name = none) (x : Node) (rest : List (Name × Node)) :
    fs.listEntries path start ((name, x) :: rest) = fs.listEntries path start rest := by
  rw [listEntries, h]

/-- What the entries of a directory list is what each of them lists. -/
theorem mem_listEntries_iff (h : fs.listEntries path start entries = .ok resources) {r : String} :
    r ∈ resources ↔ ∃ s x here, (Utf8.encode s, x) ∈ entries ∧
      fs.listEntry (path.joinBytes (Utf8.encode s)) (start ++ s) x = .ok here ∧ r ∈ here := by
  induction entries generalizing resources with
  | nil =>
      rw [listEntries] at h
      obtain rfl := Except.ok.inj h
      simp
  | cons entry rest ih =>
      obtain ⟨name, y⟩ := entry
      cases hname : Utf8.decode? name with
      | none =>
          rw [listEntries_cons_of_none path start hname] at h
          rw [ih h]
          simp [Utf8.encode_ne_of_decode? hname]
      | some s =>
          obtain rfl := Utf8.decode?_eq_some_iff.mp hname
          rw [listEntries_cons] at h
          obtain ⟨here, hhere, hrest⟩ := Identity.exists_of_bind h
          obtain ⟨others, hothers, hend⟩ := Identity.exists_of_bind hrest
          obtain rfl := Except.ok.inj hend
          rw [List.mem_append, ih hothers]
          constructor
          · rintro (hr | ⟨t, x, found, hx, hfound, hr⟩)
            · exact ⟨s, y, here, List.mem_cons_self, hhere, hr⟩
            · exact ⟨t, x, found, List.mem_cons_of_mem _ hx, hfound, hr⟩
          · rintro ⟨t, x, found, hx, hfound, hr⟩
            rcases List.mem_cons.mp hx with hsame | hx
            · obtain ⟨hname, rfl⟩ := Prod.mk.inj hsame
              obtain rfl := Utf8.encode_inj hname
              obtain rfl := Except.ok.inj (hhere.symm.trans hfound)
              exact .inl hr
            · exact .inr ⟨t, x, found, hx, hfound, hr⟩

/-- The entries of a directory are listed if each of them is. -/
theorem listEntries_isOk : (∃ resources, fs.listEntries path start entries = .ok resources) ↔
    ∀ s x, (Utf8.encode s, x) ∈ entries →
      ∃ here, fs.listEntry (path.joinBytes (Utf8.encode s)) (start ++ s) x = .ok here := by
  induction entries with
  | nil => simp [listEntries]
  | cons entry rest ih =>
      obtain ⟨name, y⟩ := entry
      cases hname : Utf8.decode? name with
      | none =>
          rw [listEntries_cons_of_none path start hname, ih]
          simp [Utf8.encode_ne_of_decode? hname]
      | some s =>
          obtain rfl := Utf8.decode?_eq_some_iff.mp hname
          rw [listEntries_cons]
          constructor
          · rintro ⟨resources, h⟩ t x hx
            obtain ⟨here, hhere, hrest⟩ := Identity.exists_of_bind h
            obtain ⟨others, hothers, -⟩ := Identity.exists_of_bind hrest
            rcases List.mem_cons.mp hx with hsame | hx
            · obtain ⟨hname, rfl⟩ := Prod.mk.inj hsame
              obtain rfl := Utf8.encode_inj hname
              exact ⟨here, hhere⟩
            · exact ih.mp ⟨others, hothers⟩ t x hx
          · intro h
            obtain ⟨here, hhere⟩ := h s y List.mem_cons_self
            obtain ⟨others, hothers⟩ := ih.mpr fun t x hx => h t x (List.mem_cons_of_mem _ hx)
            exact ⟨here ++ others, by rw [hhere, hothers]; rfl⟩

/-- What is no directory lists itself or nothing. -/
theorem listEntry_leaf {x : Node} (hleaf : x.isDirectory = false) (path : Path) (resource : String) :
    fs.listEntry path resource x = .ok (if fs.isFile path then [resource] else []) := by
  cases x with
  | file contents => rw [listEntry]
  | link target => rw [listEntry]
  | directory entries => cases hleaf

/-- **A file is listed if directories alone are on the way to it.** -/
theorem mem_listEntries {parts : List String} (h : fs.listEntries path start entries = .ok resources)
    (hne : parts ≠ []) {y : Node} (hget : (Node.directory entries).get? (parts.map Utf8.encode) = some y)
    (hleaf : y.isDirectory = false) (hfile : fs.isFile (path.descend (parts.map Utf8.encode)) = true) :
    start ++ "/".intercalate parts ∈ resources := by
  induction parts generalizing path start entries resources with
  | nil => exact absurd rfl hne
  | cons s rest ih =>
      rw [List.map_cons, Node.get?_cons, Node.child?_directory] at hget
      obtain ⟨x, hx, hbelow⟩ := Option.bind_eq_some_iff.mp hget
      obtain ⟨before, after, hsplit, -⟩ := List.lookup_eq_some_iff.mp hx
      have hmem : (Utf8.encode s, x) ∈ entries := by simp [hsplit]
      obtain ⟨listed, hlisted⟩ := listEntries_isOk.mp ⟨resources, h⟩ s x hmem
      refine (mem_listEntries_iff h).mpr ⟨s, x, listed, hmem, hlisted, ?_⟩
      rw [List.map_cons, Path.descend_cons] at hfile
      cases rest with
      | nil =>
          obtain rfl := Option.some.inj hbelow
          have hfile' : fs.isFile (path.joinBytes (Utf8.encode s)) = true := hfile
          rw [listEntry_leaf hleaf, if_pos hfile'] at hlisted
          obtain rfl := Except.ok.inj hlisted
          rw [String.intercalate_singleton]
          exact List.mem_singleton_self _
      | cons t more =>
          cases x with
          | file contents => cases hbelow
          | link target => cases hbelow
          | directory below =>
              unfold listEntry at hlisted
              split at hlisted
              · have hdeeper := ih hlisted (List.cons_ne_nil t more) hbelow hfile
                rwa [String.intercalate_cons_cons, ← String.append_assoc, ← String.append_assoc]
              · cases hlisted

end FileSystem

/-! ## Names and parts -/

/-- Parts without separators are told apart when they have been joined. -/
theorem intercalate_slash_inj {parts others : List String} (hparts : ∀ s ∈ parts, '/' ∉ s.toList)
    (hothers : ∀ s ∈ others, '/' ∉ s.toList) (hne : parts ≠ []) (hne' : others ≠ [])
    (h : "/".intercalate parts = "/".intercalate others) : parts = others := by
  have hsplit {l : List String} (hl : ∀ s ∈ l, '/' ∉ s.toList) (hlne : l ≠ []) :
      splitOn '/' ("/".intercalate l).toList = l.map String.toList := by
    rw [String.toList_intercalate]
    refine splitOn_intercalate (by simpa using hlne) fun part hpart => ?_
    obtain ⟨s, hs, rfl⟩ := List.mem_map.mp hpart
    exact hl s hs
  refine List.map_inj_right (fun _ _ => String.toList_inj.mp) |>.mp ?_
  rw [← hsplit hparts hne, ← hsplit hothers hne', h]

theorem intercalate_append_head (start s : String) (parts : List String) :
    "/".intercalate ((start ++ s) :: parts) = start ++ "/".intercalate (s :: parts) := by
  cases parts with
  | nil => rw [String.intercalate_singleton, String.intercalate_singleton]
  | cons t more => simp only [String.intercalate_cons_cons, String.append_assoc]

/-- The names that the parts of a resource name are. -/
def namesOf (parts : List (List Char)) : List Name := parts.map fun part => Utf8.encode (String.ofList part)

/-- The names of a resource are the bytes of its parts. -/
theorem namesOf_eq (parts : List (List Char)) : namesOf parts = (parts.map String.ofList).map Utf8.encode := by
  rw [List.map_map]
  rfl

/-- The parts of a resource name make it up. -/
theorem intercalate_of_resourceParts? {name : String} {parts : List (List Char)}
    (h : resourceParts? name = some parts) : "/".intercalate (parts.map String.ofList) = name := by
  unfold resourceParts? at h
  simp only at h
  split_ifs at h
  obtain rfl := Option.some.inj h
  rw [← String.toList_inj, String.toList_intercalate, List.map_map]
  have hback : (String.toList ∘ String.ofList : List Char → List Char) = id := by
    funext cs
    exact String.toList_ofList
  rw [hback, List.map_id]
  exact intercalate_splitOn '/' name.toList

/-- A part without separators is plain as a name exactly if it is plain as a part. -/
theorem plainName_iff {cs : List Char} (hslash : '/' ∉ cs) :
    PlainName (Utf8.encode (String.ofList cs)) ↔ isPlainPart cs = true := by
  have hsame (text : String) : Utf8.encode (String.ofList cs) = Utf8.encode text ↔ cs = text.toList := by
    constructor
    · intro h
      rw [← Utf8.encode_inj h, String.toList_ofList]
    · rintro rfl
      rw [String.ofList_toList]
  have hempty : Utf8.encode (String.ofList cs) = [] ↔ cs = [] := hsame ""
  have hhere : Utf8.encode (String.ofList cs) = [fullStop] ↔ cs = ['.'] := hsame "."
  have hup : Utf8.encode (String.ofList cs) = [fullStop, fullStop] ↔ cs = ['.', '.'] := hsame ".."
  have hnone : slash ∉ Utf8.encode (String.ofList cs) := by
    intro hmem
    have hchar := Utf8.mem_of_mem_encode (c := '/') (by decide) hmem
    rw [String.toList_ofList] at hchar
    exact hslash hchar
  unfold isPlainPart
  constructor
  · rintro ⟨hne, -, hne_here, hne_up⟩
    simp [hempty.not.mp hne, hhere.not.mp hne_here, hup.not.mp hne_up]
  · intro h
    simp only [Bool.not_eq_true', Bool.or_eq_false_iff, beq_eq_false_iff_ne] at h
    exact ⟨hempty.not.mpr h.1.1, hnone, hhere.not.mpr h.1.2, hup.not.mpr h.2⟩

/-- The parts of a resource name lead down. -/
theorem plain_namesOf {name : String} {parts : List (List Char)} (h : resourceParts? name = some parts) :
    namesOf parts ≠ [] ∧ ∀ n ∈ namesOf parts, PlainName n := by
  unfold resourceParts? at h
  simp only at h
  split_ifs at h with _ hplain
  obtain rfl := Option.some.inj h
  constructor
  · unfold namesOf splitOn
    exact List.cons_ne_nil _ _
  · intro n hn
    obtain ⟨part, hpart, rfl⟩ := List.mem_map.mp hn
    exact (plainName_iff (not_mem_of_mem_splitOn hpart)).mpr (List.all_eq_true.mp hplain part hpart)

/-- Plain parts without backslashes are the parts of the name they make up. -/
theorem resourceParts?_intercalate {parts : List String} (hne : parts ≠ [])
    (hplain : ∀ s ∈ parts, PlainName (Utf8.encode s)) (hclean : '\\' ∉ ("/".intercalate parts).toList) :
    resourceParts? ("/".intercalate parts) = some (parts.map String.toList) := by
  have hslash : ∀ part ∈ parts.map String.toList, '/' ∉ part := by
    intro part hpart
    obtain ⟨s, hs, rfl⟩ := List.mem_map.mp hpart
    exact fun hmem => (hplain s hs).no_slash (Utf8.mem_encode_of_mem (c := '/') (by decide) hmem)
  have hsplit : splitOn '/' ("/".intercalate parts).toList = parts.map String.toList := by
    rw [String.toList_intercalate]
    exact splitOn_intercalate (by simpa using hne) hslash
  have hall : (parts.map String.toList).all isPlainPart = true := by
    refine List.all_eq_true.mpr fun part hpart => ?_
    refine (plainName_iff (hslash part hpart)).mp ?_
    obtain ⟨s, hs, rfl⟩ := List.mem_map.mp hpart
    rw [String.ofList_toList]
    exact hplain s hs
  have hempty : ("/".intercalate parts).toList ≠ [] := by
    intro hnil
    rw [hnil] at hsplit
    have hfirst : parts.map String.toList = [[]] := hsplit.symm
    rw [hfirst] at hall
    cases hall
  unfold resourceParts?
  simp only [hsplit]
  rw [if_neg (not_or.mpr ⟨hempty, hclean⟩), if_pos hall]

namespace Identity

/-- The parts of the name of an artifact. -/
def artifactParts (n : Identity) (extension : String) : List String :=
  n.segments.dropLast ++ [n.simpleName ++ "." ++ extension]

/-- The parts of the name of an artifact are its names in the file system. -/
theorem encode_artifactParts (n : Identity) (extension : String) :
    (n.artifactParts extension).map Utf8.encode = n.artifactNames extension := by
  unfold artifactParts artifactNames
  rw [List.map_append, List.map_singleton, Utf8.encode_append, Utf8.encode_append, List.append_assoc]
  rfl

/-- The parts of the name of an artifact make its name as a resource. -/
theorem intercalate_artifactParts (n : Identity) (extension : String) :
    "/".intercalate (n.artifactParts extension) = n.resourceName extension := by
  unfold artifactParts resourceName
  conv_rhs => rw [n.segments_eq]
  by_cases hfront : n.segments.dropLast = []
  · rw [hfront, List.nil_append, List.nil_append, String.intercalate_singleton,
      String.intercalate_singleton]
  · rw [String.intercalate_append_of_ne_nil hfront (List.cons_ne_nil _ _),
      String.intercalate_append_of_ne_nil hfront (List.cons_ne_nil _ _),
      String.intercalate_singleton, String.intercalate_singleton]
    simp only [String.append_assoc]

/-- **The name of an artifact has the parts that lead to it**, if the extension holds neither a
separator nor a backslash. -/
theorem resourceParts?_resourceName (n : Identity) {extension : String}
    (hslash : '/' ∉ extension.toList) (hbackslash : '\\' ∉ extension.toList) :
    resourceParts? (n.resourceName extension) =
      some ((n.artifactParts extension).map String.toList) := by
  have hplain : ∀ s ∈ n.artifactParts extension, PlainName (Utf8.encode s) := by
    intro s hs
    refine plain_artifactNames (n := n) hslash _ ?_
    rw [← encode_artifactParts]
    exact List.mem_map_of_mem hs
  have hclean : '\\' ∉ (n.resourceName extension).toList := by
    unfold resourceName
    rw [String.toList_append, String.toList_append, String.toList_intercalate, List.mem_append,
      List.mem_append]
    rintro ((h | h) | h)
    · rcases mem_of_mem_intercalate h with h | ⟨part, hpart, h⟩
      · cases h
      · obtain ⟨s, hs, rfl⟩ := List.mem_map.mp hpart
        exact not_mem_of_isSegment (n.valid s hs) (by decide) h
    · exact absurd (List.mem_singleton.mp h) (by decide)
    · exact hbackslash h
  rw [← intercalate_artifactParts] at hclean ⊢
  exact resourceParts?_intercalate (by simp [artifactParts]) hplain hclean

/-- The parts of the name of an artifact lead to the artifact. -/
theorem resourcePath_artifactParts (n : Identity) (root : Path) (extension : String) :
    FileSystem.resourcePath root ((n.artifactParts extension).map String.toList) =
      root.descend (n.artifactNames extension) := by
  unfold FileSystem.resourcePath
  rw [List.map_map, ← encode_artifactParts]
  congr 1
  exact List.map_congr_left fun s _ => congrArg Utf8.encode String.ofList_toList

/-- A name with a backslash leads nowhere. -/
theorem resourceParts?_of_backslash (n : Identity) {extension : String}
    (h : '\\' ∈ extension.toList) : resourceParts? (n.resourceName extension) = none := by
  unfold resourceParts?
  refine if_pos (.inr ?_)
  unfold resourceName
  rw [String.toList_append]
  exact List.mem_append_right _ h

end Identity

end LiveUnits
