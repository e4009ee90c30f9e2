import LiveUnits.Proofs.FileSystem.Ways

/-!
# Building below a root

Files are put at places below a root, and directories above the places.  If no place is on the way to
another one (`FileSystem.Layout`), nothing that is put there is ever in the way of anything else: on the way
to every place there is nothing but directories, and the place itself is vacant or holds a file
(`FileSystem.Unblocked`), and both operations keep it so.

So making the directories above a place fails only if the spelling of their path is refused
(`FileSystem.Unblocked.builds`), and putting a file there fails only for the same reason or because the
directory above is missing (`FileSystem.Unblocked.fills`).
-/

namespace LiveUnits

theorem Node.isFile_face (x : Node) : x.face.isFile = x.isFile := by
  cases x <;> rfl

/-- Every name makes a path longer. -/
theorem Path.length_le_length_descend (p : Path) {names : List Name} (hplain : ∀ n ∈ names, PlainName n) :
    names.length ≤ (p.descend names).bytes.length := by
  have hlonger := Path.length_descend_le names p
  have hnames := List.length_le_sum_of_one_le (names.map List.length) fun k hk => by
    obtain ⟨n, hn, rfl⟩ := List.mem_map.mp hk
    exact List.length_pos_iff.mpr (hplain n hn).ne_nil
  rw [List.length_map, ← List.length_flatten] at hnames
  omega

namespace FileSystem

variable {fs fs' : FileSystem} {root q : Path} {L : Location} {places : List (List Name)}
  {front names : List Name} {last m : Name}

/-! ## Layouts -/

/-- Places for files below a root.  None of them is on the way to another one. -/
structure Layout (places : List (List Name)) : Prop where
  ne_nil : ∀ names ∈ places, names ≠ []
  plain : ∀ names ∈ places, ∀ n ∈ names, PlainName n
  apart : ∀ names ∈ places, ∀ other ∈ places, names <+: other → names = other

/-- Names that lead to a directory on the way to a place. -/
def Leads (places : List (List Name)) (front : List Name) : Prop :=
  ∃ names ∈ places, front <+: names ∧ front ≠ names

/-- Fewer names lead less far towards the same place. -/
theorem Leads.of_prefix (h : Leads places names) (hbegins : front <+: names) : Leads places front := by
  obtain ⟨other, hmem, hmore, hne⟩ := h
  refine ⟨other, hmem, hbegins.trans hmore, fun hsame => hne ?_⟩
  exact hmore.eq_of_length_le (hsame ▸ hbegins.length_le)

/-- Nothing is in the way of files at places below a root. -/
structure Unblocked (fs : FileSystem) (root : Path) (L : Location) (places : List (List Name)) : Prop where
  /-- The places are below the directory that the root leads to. -/
  base : fs.Base root L
  directory : fs.HasDirectory L
  /-- On the way to a place there is nothing but directories. -/
  opens : ∀ names ∈ places, fs.Open L names
  /-- At a place there is nothing but a file. -/
  files : ∀ names ∈ places, ∀ x, fs.root.get? (L ++ names) = some x → x.isFile = true

section Places

variable (hlayout : Layout places)

include hlayout

/-- What leads to a place is no place. -/
theorem Layout.not_leads (hmem : names ∈ places) : ¬ Leads places names := by
  rintro ⟨other, hother, hbegins, hne⟩
  exact hne (hlayout.apart names hmem other hother hbegins)

/-- Names on the way to a place are plain. -/
theorem Layout.plain_of_leads (h : Leads places front) : ∀ n ∈ front, PlainName n := by
  obtain ⟨names, hmem, hbegins, -⟩ := h
  exact fun n hn => hlayout.plain names hmem n (hbegins.subset hn)

/-- Nothing is in the way in an empty directory. -/
theorem unblocked_of_empty (hbase : fs.Base root L) (hempty : fs.root.get? L = some (.directory [])) :
    fs.Unblocked root L places := by
  have hbelow {more : List Name} (hne : more ≠ []) : fs.root.get? (L ++ more) = none := by
    obtain ⟨n, rest, rfl⟩ := List.exists_cons_of_ne_nil hne
    rw [Node.get?_append, hempty]
    rfl
  refine ⟨hbase, ⟨[], hempty⟩, ?opens, ?files⟩
  case opens =>
    intro names hmem front hfront hends x hx
    by_cases hnil : front = []
    · subst hnil
      rw [List.append_nil, hempty] at hx
      exact Option.some.inj hx ▸ rfl
    · rw [hbelow hnil] at hx
      cases hx
  case files =>
    intro names hmem x hx
    rw [hbelow (hlayout.ne_nil names hmem)] at hx
    cases hx

/-! ## Making directories on the way -/

/-- A directory that is put on the way to a place is in the way of nothing. -/
theorem Unblocked.put_directory (h : fs.Unblocked root L places) (hleads : Leads places (front ++ [m]))
    {entries : List (Name × Node)} (hd : fs.root.get? (L ++ front) = some (.directory entries))
    (hkept : Kept fs (fs.put (L ++ front ++ [m]) (some (.directory [])))) :
    (fs.put (L ++ front ++ [m]) (some (.directory []))).Unblocked root L places := by
  refine ⟨hkept.stays.base h.base, hkept.hasDirectory h.directory, ?opens, ?files⟩
  case opens =>
    intro names hmem init hinit hends x hx
    rcases Node.get?_put_directory hd m hx with ⟨-, rfl⟩ | ⟨y, hy, hface⟩
    · rfl
    · rw [hface, h.opens names hmem init hinit hends y hy]
  case files =>
    intro names hmem x hx
    rcases Node.get?_put_directory hd m hx with ⟨hsame, -⟩ | ⟨y, hy, hface⟩
    · rw [List.append_assoc, List.append_cancel_left_eq] at hsame
      exact absurd (hsame ▸ hleads) (hlayout.not_leads hmem)
    · rw [← x.isFile_face, hface, y.isFile_face]
      exact h.files names hmem y hy

/-- What comes of making a directory on the way to a place. -/
inductive Made (fs : FileSystem) (root : Path) (L : Location) (places : List (List Name))
    (front : List Name) (m : Name) : Change → Prop
  | unspelt {f : Fault} (hf : f.IsSpelling) (h : ¬ Nameable (root.descend (front ++ [m]))) :
      Made fs root L places front m (fs.fail f)
  /-- The directory above has to be made first. -/
  | early (h : fs.root.get? (L ++ front) = none) : Made fs root L places front m (fs.fail .notFound)
  | there (h : fs.HasDirectory (L ++ (front ++ [m])))
      (hfound : fs.isDirectory (root.descend (front ++ [m])) = true) :
      Made fs root L places front m (fs.fail .alreadyExists)
  | new {fs' : FileSystem} (hkept : Kept fs fs') (hunblocked : fs'.Unblocked root L places)
      (h : fs'.HasDirectory (L ++ (front ++ [m]))) : Made fs root L places front m fs'.done

/-- **A directory on the way to a place** is made in the one above, unless it is there. -/
theorem Unblocked.made (h : fs.Unblocked root L places) (hleads : Leads places (front ++ [m])) :
    Made fs root L places front m (fs.makeDirectory (root.descend (front ++ [m]))) := by
  have hplain := hlayout.plain_of_leads hleads
  have hplace : L ++ front ++ [m] = L ++ (front ++ [m]) := List.append_assoc L front [m]
  obtain ⟨names, hmem, hbegins, hends⟩ := id hleads
  have hopen := h.opens names hmem
  have hdirectory {x : Node} (hx : fs.root.get? (L ++ front ++ [m]) = some x) : x.face = .directory [] :=
    hopen (front ++ [m]) hbegins hends x (hplace ▸ hx)
  obtain ⟨outcome, hlocate, hway⟩ := h.base.exists_way h.directory hplain (hopen.upTo hbegins)
    fun target hlink => nomatch hdirectory hlink
  unfold makeDirectory
  rw [hlocate false]
  cases hway with
  | unspelt hf h => exact .unspelt hf h
  | missing h => exact .early h
  | vacant hd hnone =>
      obtain ⟨entries, hd⟩ := hd
      have hkept := (apart_put fs (L ++ front ++ [m]) (some (.directory []))).kept hnone
      exact .new hkept (h.put_directory hlayout hleads hd hkept) ⟨[], hplace ▸ Node.get?_put_self hd m _⟩
  | found hx =>
      obtain ⟨entries, rfl⟩ := Node.eq_directory_of_face (hdirectory hx)
      refine .there ⟨entries, hplace ▸ hx⟩ (isDirectory_eq_true.mpr ⟨L ++ front ++ [m], entries, ?_⟩)
      rw [locate, isTrailing_descend root (by simp) hplain]
      exact hlocate true

omit hlayout

/-- Directories down to the last of some names below a root were made, or the spelling of their path is
refused. -/
structure Builds (fs : FileSystem) (root : Path) (L : Location) (places : List (List Name))
    (names : List Name) (c : Change) : Prop where
  kept : Kept fs c.files
  unblocked : c.files.Unblocked root L places
  fault : ∀ f, c.fault = some f → f.IsSpelling ∧ ¬ Nameable (root.descend names)
  stands : c.fault = none → c.files.HasDirectory (L ++ names)

/-- What was built after other directories were made was built from the start. -/
theorem Builds.after {c : Change} (h : Builds fs' root L places names c) (hkept : Kept fs fs') :
    Builds fs root L places names c :=
  ⟨hkept.trans h.kept, h.unblocked, h.fault, h.stands⟩

/-- The paths below a path that lead through names, one after the other. -/
def ladder (p : Path) : List Name → List Path
  | [] => []
  | n :: rest => p.joinBytes n :: ladder (p.joinBytes n) rest

include hlayout

/-- A directory that is refused ends the making of those below. -/
theorem Unblocked.builds_fail (h : fs.Unblocked root L places) {rest : List Name}
    (hleads : Leads places (front ++ [m] ++ rest)) {f : Fault} (hf : f.IsSpelling)
    (hnames : ¬ Nameable (root.descend (front ++ [m]))) :
    Builds fs root L places (front ++ [m] ++ rest) (fs.fail f) where
  kept := Kept.refl fs
  unblocked := h
  fault _ hfault := by
    refine ⟨Option.some.inj hfault ▸ hf, fun hall => hnames (hall.of_append (by simp) ?_)⟩
    exact hlayout.plain_of_leads hleads
  stands := nofun

/-- **Directories are made downwards**, each of them in the one before. -/
theorem Unblocked.builds_makeAll (h : fs.Unblocked root L places) {rest : List Name}
    (hleads : Leads places (names ++ rest)) (hd : fs.HasDirectory (L ++ names)) :
    Builds fs root L places (names ++ rest)
      (makeMissing.makeAll fs (ladder (root.descend names) rest)) := by
  induction rest generalizing fs names with
  | nil =>
      rw [List.append_nil]
      exact ⟨Kept.refl fs, h, nofun, fun _ => hd⟩
  | cons m rest ih =>
      rw [List.append_cons] at hleads ⊢
      unfold ladder makeMissing.makeAll
      rw [← Path.descend_concat]
      have hmade := h.made hlayout (hleads.of_prefix (List.prefix_append _ rest))
      generalize fs.makeDirectory (root.descend (names ++ [m])) = c at hmade
      cases hmade with
      | unspelt hf hnames =>
          have hfails := h.builds_fail hlayout hleads hf hnames
          rcases hf with rfl | rfl <;> exact hfails
      | early hnone =>
          obtain ⟨entries, hd⟩ := hd
          cases hnone.symm.trans hd
      | there hdirectory hfound =>
          simp only [fail, hfound, decide_true, Bool.and_self, if_true]
          exact ih h hleads hdirectory
      | new hkept hunblocked hdirectory => exact (ih hunblocked hleads hdirectory).after hkept

/-- **The directories that are missing are made**: those above are looked at first, up to one that is there
or can be made. -/
theorem Unblocked.builds_makeMissing (h : fs.Unblocked root L places) {rest : List Name} (hne : names ≠ [])
    (hleads : Leads places (names ++ rest)) {fuel : Nat} (hfuel : names.length < fuel) :
    Builds fs root L places (names ++ rest) (fs.makeMissing
      (Path.ancestorsUpTo fuel (root.descend names)) (ladder (root.descend names) rest)) := by
  induction names using List.reverseRecOn generalizing fuel rest with
  | nil => exact absurd rfl hne
  | append_singleton front m ih =>
      rw [List.length_append, List.length_singleton] at hfuel
      obtain ⟨fuel, rfl⟩ : ∃ k, fuel = k + 1 := ⟨fuel - 1, by omega⟩
      have hstep := hleads.of_prefix (List.prefix_append (front ++ [m]) rest)
      have hplain := hlayout.plain_of_leads hstep
      have hm : PlainName m := hplain m (by simp)
      unfold Path.ancestorsUpTo makeMissing
      rw [if_neg (Path.descend_concat root front m ▸ makeDirectories_goes hm)]
      have hmade := h.made hlayout hstep
      generalize fs.makeDirectory (root.descend (front ++ [m])) = c at hmade
      cases hmade with
      | unspelt hf hnames =>
          have hfails := h.builds_fail hlayout hleads hf hnames
          rcases hf with rfl | rfl <;> exact hfails
      | early hnone =>
          -- the directory above is missing as well, so it is below the one that the root leads to
          obtain ⟨init, k, rfl⟩ : ∃ init k, front = init ++ [k] := by
            refine (List.eq_nil_or_concat' front).resolve_left ?_
            rintro rfl
            obtain ⟨entries, hL⟩ := h.directory
            rw [List.append_nil, hL] at hnone
            cases hnone
          have hk : PlainName k := hplain k (by simp)
          have hparent : (root.descend (init ++ [k] ++ [m])).parent? = some (root.descend (init ++ [k])) := by
            rw [Path.descend_concat, Path.descend_concat, Path.parent?_joinBytes_joinBytes _ hk hm]
          have hmissing : root.descend (init ++ [k] ++ [m]) ::
              ladder (root.descend (init ++ [k] ++ [m])) rest =
                ladder (root.descend (init ++ [k])) (m :: rest) := by
            rw [ladder, Path.descend_concat _ (init ++ [k])]
          simp only [fail]
          rw [hparent, hmissing, ← List.append_cons]
          exact ih (by simp) (List.append_cons _ m rest ▸ hleads) (by omega)
      | there hdirectory hfound =>
          simp only [fail, hfound, decide_true, Bool.and_self, if_true]
          exact h.builds_makeAll hlayout hleads hdirectory
      | new hkept hunblocked hdirectory =>
          exact (hunblocked.builds_makeAll hlayout hleads hdirectory).after hkept

/-- **The directories above a place are made**, unless the spelling of their path is refused. -/
theorem Unblocked.builds (h : fs.Unblocked root L places) (hmem : front ++ [last] ∈ places)
    (hparent : (root.descend (front ++ [last])).parent? = some q) :
    Builds fs root L places front (fs.makeDirectories q) := by
  have hplain := hlayout.plain _ hmem
  have hlast : PlainName last := hplain last (by simp)
  have hleads : Leads places front := ⟨_, hmem, List.prefix_append front [last], by simp⟩
  rw [Path.descend_concat] at hparent
  rcases List.eq_nil_or_concat' front with rfl | ⟨init, m, rfl⟩
  · rw [h.base.makeDirectories_eq hlast hparent]
    exact ⟨Kept.refl fs, h, nofun, fun _ => (List.append_nil L).symm ▸ h.directory⟩
  · have hm : PlainName m := hplain m (by simp)
    obtain rfl : root.descend (init ++ [m]) = q := by
      rw [Path.descend_concat, Path.parent?_joinBytes_joinBytes _ hm hlast] at hparent
      rw [Path.descend_concat, Option.some.inj hparent]
    have hfuel := root.length_le_length_descend (hlayout.plain_of_leads hleads)
    unfold makeDirectories
    rw [if_neg (Path.descend_concat root init m ▸ makeDirectories_goes hm)]
    rw [← List.append_nil (init ++ [m])] at hleads
    have hmade := h.builds_makeMissing hlayout (by simp) hleads (Nat.lt_succ_of_le hfuel)
    rwa [List.append_nil] at hmade

/-! ## Files at places -/

/-- A file that is put at a place is in the way of nothing. -/
theorem Unblocked.put_file (h : fs.Unblocked root L places) (hmem : front ++ [last] ∈ places)
    {contents : Bytes}
    (hstays : Stays fs (fs.put (L ++ front ++ [last]) (some (.file contents))))
    (hput : (fs.put (L ++ front ++ [last]) (some (.file contents))).root.get? (L ++ front ++ [last]) =
      some (.file contents)) :
    (fs.put (L ++ front ++ [last]) (some (.file contents))).Unblocked root L places := by
  have hplace : L ++ front ++ [last] = L ++ (front ++ [last]) := List.append_assoc L front [last]
  have helsewhere {more : List Name} (hapart : ¬ front ++ [last] <+: more) {x : Node}
      (hx : (fs.put (L ++ front ++ [last]) (some (.file contents))).root.get? (L ++ more) = some x) :
      ∃ y, fs.root.get? (L ++ more) = some y ∧ y.face = x.face := by
    have hface := (apart_put fs (L ++ front ++ [last]) (some (.file contents))).face (L ++ more)
      (by rwa [hplace, List.prefix_append_right_inj])
    rw [hx] at hface
    exact Option.map_eq_some_iff.mp hface.symm
  refine ⟨hstays.base h.base, hstays.hasDirectory h.directory, ?opens, ?files⟩
  case opens =>
    intro other hother init hinit hends x hx
    have hapart : ¬ front ++ [last] <+: init := fun hbegins =>
      hlayout.not_leads hmem (Leads.of_prefix ⟨other, hother, hinit, hends⟩ hbegins)
    obtain ⟨y, hy, hface⟩ := helsewhere hapart hx
    rw [← hface, h.opens other hother init hinit hends y hy]
  case files =>
    intro other hother x hx
    by_cases hbegins : front ++ [last] <+: other
    · obtain rfl := hlayout.apart _ hmem other hother hbegins
      rw [← hplace, hput] at hx
      exact Option.some.inj hx ▸ rfl
    · obtain ⟨y, hy, hface⟩ := helsewhere hbegins hx
      rw [← x.isFile_face, ← hface, y.isFile_face]
      exact h.files other hother y hy

/-- A file was put at a place, or the spelling of its path is refused, or the directory above is missing. -/
structure Fills (fs : FileSystem) (root : Path) (L : Location) (places : List (List Name))
    (front : List Name) (last : Name) (contents : Bytes) (c : Change) : Prop where
  stays : Stays fs c.files
  unblocked : c.files.Unblocked root L places
  fault : ∀ f, c.fault = some f → f.IsSpelling ∧ ¬ Nameable (root.descend (front ++ [last])) ∨
    f = .notFound ∧ fs.root.get? (L ++ front) = none
  stands : c.fault = none → c.files.root.get? (L ++ front ++ [last]) = some (.file contents)

/-- **Files are written at places**, unless the spelling of their path is refused or the directory above is
missing. -/
theorem Unblocked.fills (h : fs.Unblocked root L places) (hmem : front ++ [last] ∈ places)
    (contents : Bytes) :
    Fills fs root L places front last contents (fs.write (root.descend (front ++ [last])) contents) := by
  have hplain := hlayout.plain _ hmem
  have hfile {x : Node} (hx : fs.root.get? (L ++ front ++ [last]) = some x) : x.isFile = true :=
    h.files _ hmem x (by rwa [← List.append_assoc])
  obtain ⟨outcome, hlocate, hway⟩ := h.base.exists_way h.directory hplain (h.opens _ hmem)
    fun target hlink => nomatch hfile hlink
  have htrailing := isTrailing_descend root (by simp) hplain
  have hfails {f : Fault} (hf : f.IsSpelling ∧ ¬ Nameable (root.descend (front ++ [last])) ∨
      f = .notFound ∧ fs.root.get? (L ++ front) = none) :
      Fills fs root L places front last contents (fs.fail f) :=
    ⟨Stays.refl fs, h, fun _ hfault => Option.some.inj hfault ▸ hf, nofun⟩
  have hput (hd : fs.HasDirectory (L ++ front)) : Fills fs root L places front last contents
      (fs.put (L ++ front ++ [last]) (some (.file contents))).done := by
    obtain ⟨entries, hd⟩ := hd
    have hstays : Stays fs (fs.put (L ++ front ++ [last]) (some (.file contents))) :=
      stays_put_file fun x hx => hfile hx
    have hthere := Node.get?_put_self hd last (.file contents)
    exact ⟨hstays, h.put_file hlayout hmem hstays hthere, nofun, fun _ => hthere⟩
  unfold write
  rw [locate, htrailing, hlocate true]
  cases hway with
  | unspelt hf hnames => exact hfails (.inl ⟨hf, hnames⟩)
  | missing hnone => exact hfails (.inr ⟨rfl, hnone⟩)
  | vacant hd hnone => exact hput hd
  | @found x hx =>
      have hx' := hfile hx
      cases x with
      | file bytes => exact hput (hasDirectory_above hx)
      | link target => cases hx'
      | directory entries => cases hx'

end Places

end FileSystem

end LiveUnits
