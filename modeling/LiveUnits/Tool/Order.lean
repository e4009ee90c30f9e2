import LiveUnits.Tool.Lines

/-!
# Tools for ordered lines

Sorting lines by keys, and treating lines that follow each other and are the same.  A sort keeps the
order of lines that cannot be told apart; lines whose keys are the same are ordered by all they hold,
unless that is not wanted.
-/

namespace LiveUnits.Tool

open Shell

/-- How the texts of keys are compared. -/
structure KeyStyle where
  letters : List Char := []

namespace KeyStyle

/-- Whether a letter is among those that were given. -/
def has (s : KeyStyle) (c : Char) : Bool := s.letters.contains c

end KeyStyle

/-- A key: from which field and character to which. -/
structure SortKey where
  /-- The fields before the first one. -/
  startField : Nat
  /-- The characters before the first one. -/
  startChar : Nat
  /-- The fields before the last one, unless the key goes to the end of the line. -/
  endField : Option Nat
  /-- The characters of the last field that count; zero for all. -/
  endChar : Nat
  style : KeyStyle
  /-- Whether blanks at the front do not count. -/
  skipsBlanks : Bool := false
  /-- Whether blanks do not count where the key ends. -/
  skipsEndBlanks : Bool := false

/-- Whether a character divides fields. -/
def isBlank (c : Char) : Bool := c == ' ' || c == '\t' || c == '\n'

/-- The number of characters before some field; `whole` tells whether the mark after the last field that
is skipped belongs to it.  The second argument is how many fields are skipped. -/
def fieldsLength (mark : Option Char) (withMark : Nat → Bool) : Nat → Raw → Nat
  | 0, _ => 0
  | n + 1, r =>
    if r.isEmpty then 0
    else
      let taken := match mark with
        | some m =>
          let f := (r.takeWhile (· != m)).length
          if f < r.length && withMark n then f + 1 else f
        | none =>
          let b := (r.takeWhile isBlank).length
          b + ((r.drop b).takeWhile fun c => !isBlank c).length
      taken + fieldsLength mark withMark n (r.drop taken)

/-- The part of a line that a key takes. -/
def SortKey.of (k : SortKey) (mark : Option Char) (l : Raw) : Raw :=
  let begin_ := fieldsLength mark (fun _ => true) k.startField l
  let begin_ := if k.skipsBlanks then begin_ + ((l.drop begin_).takeWhile isBlank).length else begin_
  let begin_ := min l.length (begin_ + k.startChar)
  let end_ := match k.endField with
    | none => l.length
    | some f =>
      if k.endChar = 0 then fieldsLength mark (fun n => n != 0) (f + 1) l
      else
        let at_ := fieldsLength mark (fun _ => true) f l
        let at_ := if k.skipsEndBlanks then at_ + ((l.drop at_).takeWhile isBlank).length else at_
        min l.length (at_ + k.endChar)
  (l.take end_).drop begin_

/-! ## Comparing -/

/-- The number at the front of a text, times ten to a power that no fraction exceeds. -/
def plainNumber (r : Raw) : Bool × Raw × Raw :=
  let r := r.dropWhile isBlank
  let (negative, r) := match r with
    | '-' :: rest => (true, rest)
    | rest => (false, rest)
  let front := r.takeWhile Char.isDigit
  let fraction := match r.drop front.length with
    | '.' :: rest => rest.takeWhile Char.isDigit
    | _ => []
  (negative, front.dropWhile (· == '0'), (fraction.reverse.dropWhile (· == '0')).reverse)

/-- The order of two numbers without signs. -/
def compareMagnitudes (a b : Raw × Raw) : Ordering :=
  (compare a.1.length b.1.length).then ((compare (number a.1) (number b.1)).then (compareLex a.2 b.2))
where
  /-- The order of two fractions. -/
  compareLex : Raw → Raw → Ordering
    | [], [] => .eq
    | [], _ => .lt
    | _, [] => .gt
    | x :: xs, y :: ys => (compare x.toNat y.toNat).then (compareLex xs ys)

/-- The order of the numbers at the front of two texts. -/
def compareNumbers (x y : Raw) : Ordering :=
  let (m, a) := plainNumber x
  let (n, b) := plainNumber y
  let isZero (a : Raw × Raw) : Bool := a.1.isEmpty && a.2.isEmpty
  let m := m && !isZero a
  let n := n && !isZero b
  match m, n with
  | true, true => compareMagnitudes b a
  | false, false => compareMagnitudes a b
  | true, false => .lt
  | false, true => .gt

/-- The order of two texts by the numbers of their characters. -/
def compareRaw (x y : Raw) : Ordering := if x == y then .eq else if x < y then .lt else .gt

/-- The place of the unit after a number. -/
def unitOrder (r : Raw) : Nat :=
  let body := (r.dropWhile isBlank).dropWhile fun c => c.isDigit || c == '.' || c == '-'
  match body.head? with
  | some c => ((("KMGTPEZY".toList).findIdx? (· == c.toUpper)).map (· + 1)).getD 0
  | none => 0

/-- The place of a month in the year. -/
def monthOrder (r : Raw) : Nat :=
  let name := ((r.dropWhile isBlank).take 3).map Char.toUpper
  ((["JAN", "FEB", "MAR", "APR", "MAY", "JUN", "JUL", "AUG", "SEP", "OCT", "NOV", "DEC"].findIdx?
    fun m => m.toList == name).map (· + 1)).getD 0

/-- The place of a character among versions. -/
def versionWeight (c : Char) : Nat :=
  if c == '~' then 0 else if c.isDigit then 1 else if c.isAlpha then c.toNat + 1 else c.toNat + 257

/-- The order of two texts in which numbers count as such; the first argument bounds the steps. -/
def compareVersions : Nat → Raw → Raw → Ordering
  | 0, _, _ => .eq
  | fuel + 1, x, y =>
    if x.isEmpty && y.isEmpty then .eq
    else
      let weight (r : Raw) : Nat := (r.head?.map versionWeight).getD 1
      let isDigitAt (r : Raw) : Bool := (r.head?.map Char.isDigit).getD false
      if (!x.isEmpty && !isDigitAt x) || (!y.isEmpty && !isDigitAt y) then
        (compare (if isDigitAt x then 1 else weight x) (if isDigitAt y then 1 else weight y)).then
          (compareVersions fuel (x.drop 1) (y.drop 1))
      else
        let a := x.takeWhile Char.isDigit
        let b := y.takeWhile Char.isDigit
        (compare (number a) (number b)).then (compareVersions fuel (x.drop a.length) (y.drop b.length))

/-- The order of two keys. -/
def KeyStyle.compare (s : KeyStyle) (x y : Raw) : Ordering :=
  let tidy (r : Raw) : Raw :=
    let r := if s.has 'd' then r.filter fun c => isBlank c || c.isAlphanum else r
    let r := if s.has 'i' then r.filter fun c => c == ' ' || isGraphic c else r
    if s.has 'f' then r.map Char.toUpper else r
  let order :=
    if s.has 'n' then compareNumbers x y
    else if s.has 'g' then
      let a := readDecimal x
      let b := readDecimal y
      if a.found && b.found then
        if a.value < b.value then .lt else if b.value < a.value then .gt else .eq
      else Ord.compare a.found b.found
    else if s.has 'h' then (Ord.compare (unitOrder x) (unitOrder y)).then (compareNumbers x y)
    else if s.has 'M' then Ord.compare (monthOrder x) (monthOrder y)
    else if s.has 'V' then compareVersions (x.length + y.length + 2) x y
    else compareRaw (tidy x) (tidy y)
  if s.has 'r' then order.swap else order

/-! ## Reading keys -/

/-- A number in a key, or a complaint. -/
def keyNumber (c : Call) (r whole : Raw) (what : Raw) : Work (Nat × Raw) := do
  let ds := r.takeWhile Char.isDigit
  if ds.isEmpty then
    die [c.name, ": invalid number ", what, ": invalid count at start of ", quote whole] 2
  pure (number ds, r.drop ds.length)

/-- The letters that a key may have. -/
def keyLetters : Raw := "bdfghinMRrV"

/-- The key that a text spells. -/
def readKey (c : Call) (r : Raw) : Work SortKey := do
  let (f, after) ← keyNumber c r r "at field start"
  if f = 0 then die [c.name, ": field number is zero: invalid field specification ", quote r] 2
  let (ch, after) ← match after with
    | '.' :: rest => do
      let (n, after) ← keyNumber c rest rest "after '.'"
      if n = 0 then die [c.name, ": character offset is zero: invalid field specification ", quote r] 2
      pure (n - 1, after)
    | after => pure (0, after)
  let first := after.takeWhile keyLetters.contains
  match after.drop first.length with
  | [] =>
    pure { startField := f - 1, startChar := ch, endField := none, endChar := 0, style := ⟨first⟩,
           skipsBlanks := first.contains 'b' }
  | ',' :: rest =>
    let (g, after) ← keyNumber c rest rest "after ','"
    if g = 0 then die [c.name, ": field number is zero: invalid field specification ", quote r] 2
    let (end_, after) ← match after with
      | '.' :: rest => keyNumber c rest rest "after '.'"
      | after => pure (0, after)
    let second := after.takeWhile keyLetters.contains
    if second.length < after.length then
      die [c.name, ": stray character in field spec: invalid field specification ", quote r] 2
    pure { startField := f - 1, startChar := ch, endField := some (g - 1), endChar := end_,
           style := ⟨first ++ second⟩, skipsBlanks := first.contains 'b'
           skipsEndBlanks := second.contains 'b' }
  | _ => die [c.name, ": stray character in field spec: invalid field specification ", quote r] 2

/-! ## The tools -/

/-- The tool `sort`. -/
def sort : Program := fun c => do
  let a ← ({ plain := "bcCdfghimMnrRsuVz", valued := "koStT", code := 2
             long := [("numeric-sort", 'n', none), ("reverse", 'r', none), ("unique", 'u', none),
               ("key", 'k', some true), ("field-separator", 't', some true), ("output", 'o', some true),
               ("ignore-case", 'f', none), ("stable", 's', none), ("check", 'c', some false),
               ("ignore-leading-blanks", 'b', none), ("dictionary-order", 'd', none),
               ("general-numeric-sort", 'g', none), ("human-numeric-sort", 'h', none),
               ("month-sort", 'M', none), ("version-sort", 'V', none), ("merge", 'm', none)] } :
    Options).read c
  let mark ← match a.last? 't' with
    | none => pure none
    | some [m] => pure (some m)
    | some ['\\', '0'] => pure (some '\x00')
    | some [] => die [c.name, ": empty tab"] 2
    | some r => die [c.name, ": multi-character tab ", quote r] 2
  let global : KeyStyle := ⟨(a.options.map (·.1)).filter keyLetters.contains⟩
  let keys ← (a.all 'k').mapM (readKey c)
  let keys := keys.map fun k =>
    if k.style.letters.isEmpty then
      { k with style := global, skipsBlanks := global.has 'b', skipsEndBlanks := global.has 'b' }
    else k
  let whole : SortKey :=
    { startField := 0, startChar := 0, endField := none, endChar := 0, style := global
      skipsBlanks := global.has 'b' }
  let used := if keys.isEmpty then [whole] else keys
  let byKeys (x y : Raw) : Ordering :=
    used.foldl (fun o k => o.then (k.style.compare (k.of mark x) (k.of mark y))) .eq
  let order (x y : Raw) : Ordering :=
    let o := byKeys x y
    if o != .eq || a.has 'u' || a.has 's' then o
    else
      let last := compareRaw x y
      if global.has 'r' then last.swap else last
  if a.hasAny "cC" then
    match a.operands with
    | _ :: extra :: _ => die [c.name, ": extra operand ", quote extra, " not allowed with -c"] 2
    | _ => pure ()
    let r := a.operands.head?.getD ['-']
    match ← readFile c r with
    | .error f => die [c.name, ": cannot read: ", quoteIfNeeded r, ": ", phrase f] 2
    | .ok text =>
      let ls := lines text
      match ((ls.zip (ls.drop 1)).zipIdx.find? fun ((x, y), _) =>
          let o := order x y
          o == .gt || (o == .eq && a.has 'u')) with
      | none => pure ()
      | some ((_, y), i) =>
        if a.has 'c' then warn [c.name, ": ", r, ":", digits (i + 2), ": disorder: ", y]
        noteStatus 1
  else
    let operands := if a.operands.isEmpty then [['-']] else a.operands
    let texts ← operands.mapM fun r => do
      match ← readFile c r with
      | .ok text => pure (lines text)
      | .error .isDirectory => die [c.name, ": read failed: ", quoteIfNeeded r, ": Is a directory"] 2
      | .error f => die [c.name, ": cannot read: ", quoteIfNeeded r, ": ", phrase f] 2
    let sorted := texts.flatten.mergeSort fun x y => order x y != .gt
    let kept := if a.has 'u' then
        (sorted.foldl (fun (done : List Raw) l =>
          match done with
          | last :: _ => if byKeys last l == .eq then done else l :: done
          | [] => [l]) []).reverse
      else sorted
    match a.last? 'o' with
    | none => print (unlines kept)
    | some r =>
      match ← changeFiles (writeFile r (unlines kept)) with
      | none => pure ()
      | some f => die [c.name, ": open failed: ", quoteIfNeeded r, ": ", phrase f] 2

/-- Lines that follow each other and are the same, with the first of them. -/
def sameLines (same : Raw → Raw → Bool) (ls : List Raw) : List (List Raw) := ls.splitBy same

/-- The tool `uniq`. -/
def uniq : Program := fun c => do
  let a ← ({ plain := "cdDuiz", valued := "fsw"
             long := [("count", 'c', none), ("repeated", 'd', none), ("unique", 'u', none),
               ("ignore-case", 'i', none), ("skip-fields", 'f', some true), ("skip-chars", 's', some true),
               ("check-chars", 'w', some true)] } : Options).read c
  let amount (l : Char) : Work (Option Nat) := do
    match a.last? l with
    | none => pure none
    | some r =>
      match naturalOf r with
      | some n => pure (some n)
      | none =>
        die [c.name, ": ", quoteIfNeeded r, ": invalid number of ",
          if l == 'f' then "fields to skip" else if l == 's' then "bytes to skip" else "bytes to compare"]
  let skippedFields := (← amount 'f').getD 0
  let skippedChars := (← amount 's').getD 0
  let most ← amount 'w'
  let key (l : Raw) : Raw :=
    let r := l.drop (fieldsLength none (fun _ => true) skippedFields l)
    let r := r.drop skippedChars
    let r := most.elim r fun n => r.take n
    if a.has 'i' then r.map Char.toLower else r
  let (source, target) ← match a.operands with
    | [] => pure (['-'], none)
    | [x] => pure (x, none)
    | [x, y] => pure (x, some y)
    | _ :: _ :: extra :: _ => excess c extra
  match ← readFile c source with
  | .error .isDirectory => die [c.name, ": error reading ", quote source, ": Is a directory"]
  | .error f => die [c.name, ": ", quoteIfNeeded source, ": ", phrase f]
  | .ok text =>
    let groups := sameLines (fun x y => key x == key y) (lines text)
    let chosen := groups.filter fun g =>
      (!a.hasAny "dD" || g.length > 1) && (!a.has 'u' || g.length = 1)
    let shown := chosen.flatMap fun g =>
      if a.has 'D' then unlines g
      else
        line [if a.has 'c' then padded 7 (digits g.length) ++ [' '] else [], g.head?.getD []]
    match target with
    | none => print shown
    | some r =>
      match ← changeFiles (writeFile r shown) with
      | none => pure ()
      | some f => die [c.name, ": ", quoteIfNeeded r, ": ", phrase f]

/-- The tool `join`, for lines that are ordered by their fields. -/
def join : Program := fun c => do
  let a ← ({ plain := "iz", valued := "12javtoe" } : Options).read c
  match a.operands with
  | [x, y] =>
    let get (r : Raw) : Work (List Raw) := do
      match ← readFile c r with
      | .ok text => pure (lines text)
      | .error f => die [c.name, ": ", quoteIfNeeded r, ": ", phrase f]
    let mark := (a.last? 't').bind List.head?
    let fieldsOf (l : Raw) : List Raw :=
      match mark with
      | some m => splitOn m l
      | none => wordsOf isBlank l
    let place (l : Char) : Nat := (((a.last? l <|> a.last? 'j').bind naturalOf).getD 1) - 1
    let joint : Raw := [mark.getD ' ']
    let xs := (← get x).map fieldsOf
    let ys := (← get y).map fieldsOf
    let key (n : Nat) (fs : List Raw) : Raw := fs[n]?.getD []
    let (m, n) := (place '1', place '2')
    let others (n : Nat) (fs : List Raw) : List Raw := fs.eraseIdx n
    let shows (l : Char) (k : Raw) : Bool := (a.all l).contains k
    let row (fs : List Raw) : Work Unit := print (line [joint.intercalate fs])
    for f in xs do
      let found := ys.filter fun g => key n g == key m f
      if found.isEmpty then
        if shows 'a' ['1'] || shows 'v' ['1'] then row (key m f :: others m f)
      else if (a.all 'v').isEmpty then
        for g in found do
          row (key m f :: others m f ++ others n g)
    for g in ys do
      if (shows 'a' ['2'] || shows 'v' ['2']) && !(xs.any fun f => key m f == key n g) then
        row (key n g :: others n g)
  | [] => lacking c "operand"
  | [x] => die [c.name, ": missing operand after ", quote x, advice c]
  | _ :: _ :: extra :: _ => excess c extra

end LiveUnits.Tool
