import LiveUnits.Text.Split
import LiveUnits.Tool.Basic
import LiveUnits.Shell.Escape

/-!
# Tools for lines

Showing, counting, cutting and joining the lines of texts.
-/

namespace LiveUnits.Tool

open Shell

/-! ## Whole texts -/

/-- A character as it is shown where it could not be seen. -/
def visible (c : Char) : Raw :=
  let n := c.toNat
  if n ≥ 128 then
    let m := n - 128
    'M' :: '-' :: (if m < 32 then ['^', Char.ofNat (m + 64)] else if m = 127 then ['^', '?']
      else [Char.ofNat m])
  else if n < 32 then ['^', Char.ofNat (n + 64)]
  else if n = 127 then ['^', '?']
  else [c]

/-- A number on the left of a line. -/
def padded (width : Nat) (r : Raw) : Raw := List.replicate (width - r.length) ' ' ++ r

/-- A line as `cat` shows it. -/
def showLine (a : Arguments) (l : Raw) : Raw :=
  l.flatMap fun c =>
    if c == '\t' then (if a.hasAny "TtA" then ['^', 'I'] else [c])
    else if a.hasAny "vetA" then visible c
    else [c]

/-- The tool `cat`. -/
def cat : Program := fun c => do
  let a ← ({ plain := "nbsETvAetu"
             long := [("number", 'n', none), ("number-nonblank", 'b', none), ("squeeze-blank", 's', none),
               ("show-ends", 'E', none), ("show-tabs", 'T', none), ("show-nonprinting", 'v', none),
               ("show-all", 'A', none)] } : Options).read c
  let mut count := 0
  let mut blanksBefore := 0
  for r in (if a.operands.isEmpty then [['-']] else a.operands) do
    match ← readFile c r with
    | .error f => refuseFile c r f
    | .ok text =>
      if a.options.isEmpty then printNow text
      else
        let hasEnd := endsLine text
        let ls := lines text
        for (l, i) in ls.zipIdx do
          blanksBefore := if l.isEmpty then blanksBefore + 1 else 0
          if !(a.has 's' && blanksBefore > 1) then
            let numbered := if a.has 'b' then !l.isEmpty else a.has 'n'
            if numbered then count := count + 1
            let isEnded := hasEnd || i + 1 < ls.length
            printNow ((if numbered then padded 6 (digits count) ++ ['\t'] else []) ++ showLine a l ++
              (if isEnded then (if a.hasAny "EeA" then ['$', '\n'] else ['\n']) else []))

/-- The tool `tac`. -/
def tac : Program := fun c => do
  let a ← ({ plain := "br", valued := "s" } : Options).read c
  for (_, text) in (← gather c a.operands fun r f =>
      if f == .isDirectory then blame [c.name, ": ", quoteIfNeeded r, ": read error: Invalid argument"]
      else blame [c.name, ": failed to open ", quote r, " for reading: ", phrase f]) do
    let ls := lines text
    let ended := ls.zipIdx.map fun (l, i) => if endsLine text || i + 1 < ls.length then l ++ ['\n'] else l
    print ended.reverse.flatten

/-- The tool `rev`. -/
def rev : Program := fun c => do
  let a ← ({ plain := "0" } : Options).read c
  for (_, text) in (← gather c a.operands fun r f =>
      if f == .isDirectory then pure () else blame [c.name, ": cannot open ", r, ": ", phrase f]) do
    let ls := lines text
    print (ls.zipIdx.flatMap fun (l, i) =>
      l.reverse ++ if endsLine text || i + 1 < ls.length then ['\n'] else [])

/-- The first lines of a text. -/
def firstLines : Nat → Raw → Raw
  | _, [] => []
  | 0, _ => []
  | n + 1, c :: rest => c :: firstLines (if c == '\n' then n else n + 1) rest

/-- The number of lines of a text, the last one of which may lack its end. -/
def lineCount (r : Raw) : Nat := r.count '\n' + (if endsLine r || r.isEmpty then 0 else 1)

/-- How much `head` and `tail` leave. -/
structure Amount where
  /-- Whether bytes count, and not lines. -/
  inBytes : Bool := false
  /-- How many. -/
  number : Nat := 10
  /-- Whether they count from the other end. -/
  fromOther : Bool := false

/-- The old way of giving a number as an option: `-5` for `-n 5`. -/
def modernize (args : List Raw) : List Raw :=
  match args with
  | ('-' :: d :: rest) :: others =>
    if d.isDigit then
      let ds := (d :: rest).takeWhile Char.isDigit
      let letters := (d :: rest).drop ds.length
      if letters.all "cqv".toList.contains then
        (if letters.contains 'c' then ['-', 'c'] else ['-', 'n']) :: ds ::
          (letters.filter (· != 'c')).map (fun l => ['-', l]) ++ others
      else args
    else args
  | _ => args

/-- The amount among the options of `head` and `tail`. -/
def amountOf (c : Call) (a : Arguments) (sign : Char) : Work Amount := do
  match (a.options.filter fun o => o.1 == 'n' || o.1 == 'c').getLast? with
  | none => pure {}
  | some (l, r) =>
    let (fromOther, body) := match r with
      | s :: rest => if s == sign then (true, rest) else if s == '-' || s == '+' then (false, rest) else (false, r)
      | [] => (false, [])
    match sizeOf body with
    | some n => pure { inBytes := l == 'c', number := n, fromOther }
    | none => die [c.name, ": invalid number of ", if l == 'c' then "bytes" else "lines", ": ", quote r]

/-- Shows a part of every file, under its name if there are several. -/
def showParts (c : Call) (a : Arguments) (cut : Raw → Raw) : Work Unit := do
  let operands := if a.operands.isEmpty then [['-']] else a.operands
  let titled := (operands.length > 1 || a.has 'v') && !a.has 'q'
  let mut isFirst := true
  let title (isFirst : Bool) (r : Raw) : Raw :=
    if titled then
      (if isFirst then [] else ['\n']) ++ line ["==> ", if r == ['-'] then "standard input" else r, " <=="]
    else []
  for r in operands do
    match ← readFile c r with
    | .ok text =>
      print (title isFirst r ++ cut text)
      isFirst := false
    | .error .isDirectory =>
      print (title isFirst r)
      isFirst := false
      blame [c.name, ": error reading ", quote r, ": Is a directory"]
    | .error f => blame [c.name, ": cannot open ", quote r, " for reading: ", phrase f]

/-- The options of `head` and `tail`. -/
def partOptions : Options :=
  { plain := "qvzfF", valued := "ncs"
    long := [("lines", 'n', some true), ("bytes", 'c', some true), ("quiet", 'q', none),
      ("silent", 'q', none), ("verbose", 'v', none), ("follow", 'f', some false)] }

/-- The tool `head`.  What it does not need of its input it leaves, if it can go back. -/
def head : Program := fun c => do
  let a ← partOptions.readFrom c (c.arguments.length + 4) (modernize c.arguments)
  let n ← amountOf c a '-'
  let cut (r : Raw) : Raw :=
    match n.inBytes, n.fromOther with
    | true, false => r.take n.number
    | true, true => r.take (r.length - n.number)
    | false, false => firstLines n.number r
    | false, true => firstLines (lineCount r - n.number) r
  showParts c a cut
  if c.canSeek && a.operands.isEmpty then
    modify fun p => { p with used := (cut c.input).length }

/-- The tool `tail`. -/
def tail : Program := fun c => do
  let args := match c.arguments with
    | ('+' :: n) :: rest => if isNumber n then ['-', 'n'] :: ('+' :: n) :: rest else c.arguments
    | args => modernize args
  let a ← partOptions.readFrom c (c.arguments.length + 4) args
  let n ← amountOf c a '+'
  showParts c a fun r =>
    match n.inBytes, n.fromOther with
    | true, false => r.drop (r.length - n.number)
    | true, true => r.drop (n.number - 1)
    | false, false => r.drop (firstLines (lineCount r - n.number) r).length
    | false, true => r.drop (firstLines (n.number - 1) r).length

/-- The words of a text. -/
def wordsOf (p : Char → Bool) (r : Raw) : List Raw :=
  (r.foldr (fun c (ws : List Raw) =>
    if p c then [] :: ws
    else
      match ws with
      | w :: rest => (c :: w) :: rest
      | [] => [[c]]) [[]]).filter (!·.isEmpty)

/-- The number of columns that a line takes. -/
def displayWidth (l : Raw) : Nat :=
  l.foldl (fun n c => if c == '\t' then n / 8 * 8 + 8 else if isGraphic c || c == ' ' then n + 1 else n) 0

/-- The tool `wc`. -/
def wc : Program := fun c => do
  let a ← ({ plain := "lwcmL"
             long := [("lines", 'l', none), ("words", 'w', none), ("bytes", 'c', none), ("chars", 'm', none),
               ("max-line-length", 'L', none)] } : Options).read c
  let chosen (l : Char) : Bool := a.has l || (a.options.isEmpty && "lwc".toList.contains l)
  let counts (r : Raw) : List Nat :=
    (if chosen 'l' then [r.count '\n'] else []) ++
    (if chosen 'w' then [(wordsOf isSpace r).length] else []) ++
    (if chosen 'm' then [r.length] else []) ++
    (if chosen 'c' then [r.length] else []) ++
    (if chosen 'L' then [((lines r).map displayWidth).foldl max 0] else [])
  let fs ← files
  let operands := if a.operands.isEmpty then [['-']] else a.operands
  let isPlain (r : Raw) : Bool := if r == ['-'] then c.canSeek else fs.isFile (pathOf r)
  let exists_ (r : Raw) : Bool := r == ['-'] || (fs.node (pathOf r)).toOption.isSome || isVoid r
  let total := ((operands.filter isPlain).map fun r =>
    if r == ['-'] then c.input.length else (((contents fs r).toOption).getD []).length).foldl (· + ·) 0
  let width :=
    if operands.length = 1 && (counts []).length = 1 then 1
    else max (digits total).length (if operands.any fun r => exists_ r && !isPlain r then 7 else 1)
  let row (ns : List Nat) (name : Raw) : Raw :=
    line [[' '].intercalate (ns.map fun n => padded width (digits n)), if name.isEmpty then [] else ' ' :: name]
  let mut sums := (counts []).map fun _ => 0
  for r in operands do
    match ← readFile c r with
    | .ok text =>
      let ns := counts text
      sums := sums.zipWith (· + ·) ns
      print (row ns (if a.operands.isEmpty then [] else r))
    | .error f =>
      refuseFile c r f
      if f == .isDirectory then print (row (sums.map fun _ => 0) r)
  if operands.length > 1 then print (row sums "total")

/-- Writes what is given as output and to files. -/
def tee : Program := fun c => do
  let a ← ({ plain := "aip", long := [("append", 'a', none)] } : Options).read c
  let text ← readInput c
  for r in a.operands do
    let old := ((contents (← files) r).toOption).getD []
    match ← changeFiles (writeFile r (if a.has 'a' then old ++ text else text)) with
    | none => pure ()
    | some f => blame [c.name, ": ", quoteIfNeeded r, ": ", phrase f]
  printNow text

/-! ## Numbers and widths -/

/-- The tool `nl`. -/
def nl : Program := fun c => do
  let a ← ({ plain := "p", valued := "bdfhilnsvw"
             long := [("body-numbering", 'b', some true), ("number-width", 'w', some true),
               ("number-separator", 's', some true), ("starting-line-number", 'v', some true),
               ("line-increment", 'i', some true), ("number-format", 'n', some true)] } : Options).read c
  let width := ((a.last? 'w').bind naturalOf).getD 6
  let gap := (a.last? 's').getD ['\t']
  let step := ((a.last? 'i').map fun r => (readWhole false r).value).getD 1
  let style := (a.last? 'b').getD ['t']
  let mut n : Int := ((a.last? 'v').map fun r => (readWhole false r).value).getD 1
  for (_, text) in (← gather c a.operands (refuseFile c)) do
    for l in lines text do
      if style == ['a'] || (style == ['t'] && !l.isEmpty) then
        let ds := signed n
        let shown := match (a.last? 'n').map Raw.string with
          | some "ln" => ds ++ List.replicate (width - ds.length) ' '
          | some "rz" => List.replicate (width - ds.length) '0' ++ ds
          | _ => padded width ds
        print (line [shown, gap, l])
        n := n + step
      else print (line [List.replicate (width + gap.length) ' ', l])

/-- Breaks a line into pieces of some width, after a blank if that is asked for and there is one.  The
first argument bounds the number of pieces. -/
def foldLine (width : Nat) (atBlanks : Bool) : Nat → Raw → List Raw
  | 0, l => [l]
  | fuel + 1, l =>
    if l.length ≤ width then [l]
    else
      let front := l.take width
      let kept := (front.reverse.dropWhile fun c => c != ' ' && c != '\t').reverse
      let cut := if atBlanks && !kept.isEmpty then kept else front
      cut :: foldLine width atBlanks fuel (l.drop cut.length)

/-- The tool `fold`. -/
def fold : Program := fun c => do
  let a ← ({ plain := "bs", valued := "w"
             long := [("width", 'w', some true), ("spaces", 's', none), ("bytes", 'b', none)] } :
    Options).readFrom c (c.arguments.length + 2) (match c.arguments with
      | ('-' :: d :: ds) :: rest => if isNumber (d :: ds) then ['-', 'w'] :: (d :: ds) :: rest else c.arguments
      | args => args)
  let width ← match a.last? 'w' with
    | none => pure 80
    | some r =>
      match naturalOf r with
      | some 0 => die [c.name, ": invalid number of columns: ", quote r, ": Numerical result out of range"]
      | some n => pure n
      | none => die [c.name, ": invalid number of columns: ", quote r]
  for (_, text) in (← gather c a.operands (refuseFile c)) do
    let ls := lines text
    print (ls.zipIdx.flatMap fun (l, i) =>
      ['\n'].intercalate (foldLine width (a.has 's') (l.length + 1) l) ++
        if endsLine text || i + 1 < ls.length then ['\n'] else [])

/-- A line with blanks in place of tabulators. -/
def expandTabs (size : Nat) (l : Raw) : Raw :=
  (l.foldl (fun (done : Raw × Nat) c =>
    if c == '\t' then
      let n := size - done.2 % size
      (List.replicate n ' ' ++ done.1, done.2 + n)
    else (c :: done.1, done.2 + 1)) ([], 0)).1.reverse

/-- The tool `expand`. -/
def expand : Program := fun c => do
  let a ← ({ plain := "i", valued := "t", long := [("tabs", 't', some true)] } : Options).read c
  let size := max 1 (((a.last? 't').bind naturalOf).getD 8)
  for (_, text) in (← gather c a.operands (refuseFile c)) do
    let ls := lines text
    print (ls.zipIdx.flatMap fun (l, i) =>
      expandTabs size l ++ if endsLine text || i + 1 < ls.length then ['\n'] else [])

/-! ## Columns -/

/-- A range of places, the last of which may be missing. -/
abbrev Range := Nat × Option Nat

/-- Whether a place is in one of some ranges. -/
def inRanges (rs : List Range) (n : Nat) : Bool :=
  rs.any fun (low, high) => low ≤ n && high.all (n ≤ ·)

/-- The ranges that a list spells. -/
def readRanges (c : Call) (inFields : Bool) (r : Raw) : Work (List Range) := do
  let refuse (parts : List Raw) : Work (List Range) := die ([c.name, ": "] ++ parts ++ [advice c])
  let what : Raw := if inFields then "field" else "byte/character position"
  let many : Raw := if inFields then "fields are" else "byte/character positions are"
  let place (r : Raw) (missing : Nat) : Work Nat := do
    if r.isEmpty then return missing
    match naturalOf r with
    | some 0 => die [c.name, ": ", many, " numbered from 1", advice c]
    | some n => pure n
    | none => die [c.name, ": invalid ", what, " value ", quote r, advice c]
  (splitOn ',' r).foldlM (fun found item => do
    let front := item.takeWhile (· != '-')
    if front.length < item.length then
      let back := item.drop (front.length + 1)
      if front.isEmpty && back.isEmpty then refuse ["invalid range with no endpoint: -"]
      else
        let low ← place front 1
        let high ← place back 0
        if !back.isEmpty && high < low then refuse ["invalid decreasing range"]
        else pure (found ++ [(low, if back.isEmpty then none else some high)])
    else if item.isEmpty then refuse [many, " numbered from 1"]
    else
      let n ← place item 0
      pure (found ++ [(n, some n)])) []

/-- The tool `cut`. -/
def cut : Program := fun c => do
  let a ← ({ plain := "nszC", valued := "bcfdO"
             long := [("bytes", 'b', some true), ("characters", 'c', some true), ("fields", 'f', some true),
               ("delimiter", 'd', some true), ("only-delimited", 's', none), ("complement", 'C', none),
               ("output-delimiter", 'O', some true)] } : Options).read c
  let refuse (text : Raw) : Work Unit := die [c.name, ": ", text, advice c]
  match a.options.filter fun o => "bcf".toList.contains o.1 with
  | [] => refuse "you must specify a list of bytes, characters, or fields"
  | [(kind, list)] =>
    let inFields := kind == 'f'
    let delimiter := (a.last? 'd').getD ['\t']
    if delimiter.length > 1 then refuse "the delimiter must be a single character"
    if !inFields && a.has 'd' then
      refuse "an input delimiter may be specified only when operating on fields"
    if !inFields && a.has 's' then
      refuse "suppressing non-delimited lines makes sense\n\tonly when operating on fields"
    let ranges ← readRanges c inFields list
    let chosen (i : Nat) : Bool := inRanges ranges (i + 1) != a.has 'C'
    let mark := delimiter.head?.getD '\x00'
    let pick (l : Raw) : Option Raw :=
      if inFields then
        if !l.contains mark then (if a.has 's' then none else some l)
        else
          let kept := (splitOn mark l).zipIdx.filterMap fun (f, i) => if chosen i then some f else none
          some (((a.last? 'O').getD [mark]).intercalate kept)
      else
        match a.last? 'O' with
        | none => some (l.zipIdx.filterMap fun (x, i) => if chosen i then some x else none)
        | some joint =>
          let pieces := l.zipIdx.splitBy fun x y => chosen x.2 == chosen y.2
          some (joint.intercalate ((pieces.filter fun p => p.head?.any fun x => chosen x.2).map
            fun p => p.map (·.1)))
    for (_, text) in (← gather c a.operands (refuseFile c)) do
      print (unlines ((lines text).filterMap pick))
  | _ => refuse "only one list may be specified"

/-- The escapes of a list of characters that divide. -/
def unescapeList : Raw → List Raw
  | '\\' :: 'n' :: rest => ['\n'] :: unescapeList rest
  | '\\' :: 't' :: rest => ['\t'] :: unescapeList rest
  | '\\' :: '0' :: rest => [] :: unescapeList rest
  | '\\' :: c :: rest => [c] :: unescapeList rest
  | c :: rest => [c] :: unescapeList rest
  | [] => []

/-- Joins texts, each with the next one of some marks between them. -/
def joinWith (marks : List Raw) (rs : List Raw) : Raw :=
  (rs.zipIdx.flatMap fun (r, i) =>
    (if i = 0 then [] else marks[(i - 1) % marks.length]?.getD []) ++ r)

/-- The tool `paste`. -/
def paste : Program := fun c => do
  let a ← ({ plain := "sz", valued := "d"
             long := [("delimiters", 'd', some true), ("serial", 's', none)] } : Options).read c
  let marks := match unescapeList ((a.last? 'd').getD ['\t']) with
    | [] => [[]]
    | ms => ms
  let operands := if a.operands.isEmpty then [['-']] else a.operands
  let dashes := operands.count ['-']
  let input ← if operands.contains ['-'] then (do return lines (← readInput c)) else pure []
  let mut columns : List (List Raw) := []
  let mut seen := 0
  for r in operands do
    if r == ['-'] then
      let place := seen
      let own := if a.has 's' then (if place = 0 then input else [])
        else (input.zipIdx.filter fun x => x.2 % dashes == place).map (·.1)
      columns := columns ++ [own]
      seen := seen + 1
    else
      match contents (← files) r with
      | .ok text => columns := columns ++ [lines text]
      | .error .isDirectory =>
        blame [c.name, ": ", quoteIfNeeded r, ": Is a directory"]
        columns := columns ++ [[]]
      | .error f => die [c.name, ": ", quoteIfNeeded r, ": ", phrase f]
  if a.has 's' then print (unlines (columns.map (joinWith marks)))
  else
    let height := (columns.map List.length).foldl max 0
    print (unlines ((List.range height).map fun i =>
      joinWith marks (columns.map fun column => column[i]?.getD [])))

/-- Takes two ordered lists of lines apart: which are in the first, in the second, or in both.  The first
argument bounds the number of steps. -/
def compareLines : Nat → List Raw → List Raw → List (Nat × Raw)
  | 0, _, _ => []
  | _, [], ys => ys.map fun y => (2, y)
  | _, xs, [] => xs.map fun x => (1, x)
  | fuel + 1, x :: xs, y :: ys =>
    if x == y then (3, x) :: compareLines fuel xs ys
    else if x < y then (1, x) :: compareLines fuel xs (y :: ys)
    else (2, y) :: compareLines fuel (x :: xs) ys

/-- The tool `comm`. -/
def comm : Program := fun c => do
  let a ← ({ plain := "123z", long := [("output-delimiter", 'O', some true)] } : Options).read c
  match a.operands with
  | [x, y] =>
    let get (r : Raw) : Work (List Raw) := do
      match ← readFile c r with
      | .ok text => pure (lines text)
      | .error f => die [c.name, ": ", quoteIfNeeded r, ": ", phrase f]
    let xs ← get x
    let ys ← get y
    let mark := (a.last? 'O').getD ['\t']
    let indent (n : Nat) : Raw :=
      (if n ≥ 2 && !a.has '1' then mark else []) ++ (if n ≥ 3 && !a.has '2' then mark else [])
    for (n, l) in compareLines (xs.length + ys.length + 1) xs ys do
      if !a.has (Char.ofNat ('0'.toNat + n)) then print (line [indent n, l])
  | [] => lacking c "operand"
  | [x] => die [c.name, ": missing operand after ", quote x, advice c]
  | _ :: _ :: extra :: _ => excess c extra

/-! ## Characters -/

/-- An item of a set of characters for `tr`. -/
inductive SetItem where
  /-- Characters. -/
  | these (r : Raw)
  | named (name : Raw)
  /-- A character again and again; zero means as often as there is room. -/
  | many (c : Char) (n : Nat)

/-- A character at the front of a set, perhaps escaped. -/
def setChar : Raw → Option (Char × Raw)
  | '\\' :: rest =>
    match escape? rest with
    | some found => some found
    | none =>
      match rest with
      | c :: after => some (c, after)
      | [] => some ('\\', [])
  | c :: rest => some (c, rest)
  | [] => none

/-- A bracketed item at the front of a set, after its bracket. -/
def bracketed? (r : Raw) : Option (SetItem × Raw) :=
  match r with
  | ':' :: rest =>
    let name := rest.takeWhile Char.isAlpha
    match rest.drop name.length with
    | ':' :: ']' :: after => some (.named name, after)
    | _ => none
  | '=' :: x :: '=' :: ']' :: after => some (.these [x], after)
  | r =>
    match setChar r with
    | some (x, '*' :: rest) =>
      let ds := rest.takeWhile Char.isDigit
      match rest.drop ds.length with
      | ']' :: after =>
        some (.many x (if ds.head? == some '0' then numberIn 8 ds else number ds), after)
      | _ => none
    | _ => none

/-- The items of a set; the first argument bounds their number. -/
def setItems : Nat → Raw → Except Raw (List SetItem)
  | 0, _ => .ok []
  | _, [] => .ok []
  | fuel + 1, c :: rest =>
    match if c == '[' then bracketed? rest else none with
    | some (item, after) => return item :: (← setItems fuel after)
    | none =>
      match setChar (c :: rest) with
      | none => .ok []
      | some (low, '-' :: after@(_ :: _)) =>
        match setChar after with
        | some (high, out) =>
          if high < low then
            .error ("range-endpoints of '".toList ++ [low, '-', high] ++
              "' are in reverse collating sequence order".toList)
          else
            return .these ((List.range' low.toNat (high.toNat + 1 - low.toNat)).map Char.ofNat) ::
              (← setItems fuel out)
        | none => .ok []
      | some (x, after) => return .these [x] :: (← setItems fuel after)

/-- All characters there are. -/
def everyChar : Raw := (List.range 256).map Char.ofNat

/-- The characters of items that have to fill some room. -/
def fillSet (room : Nat) (items : List SetItem) : Raw :=
  let fixed := items.foldl (fun n i => n + match i with
    | .these r => r.length
    | .named name => ((characterClass? name).map fun p => (everyChar.filter p).length).getD 0
    | .many _ n => n) 0
  items.flatMap fun
    | .these r => r
    | .named name => ((characterClass? name).map fun p => everyChar.filter p).getD []
    | .many x n => List.replicate (if n = 0 then room - fixed else n) x

/-- Leaves one of some characters that follow each other. -/
def squeeze (p : Char → Bool) : Raw → Raw
  | a :: b :: rest => if a == b && p a then squeeze p (b :: rest) else a :: squeeze p (b :: rest)
  | r => r

/-- The tool `tr`. -/
def tr : Program := fun c => do
  let a ← ({ plain := "cCdst", strict := true
             long := [("complement", 'c', none), ("delete", 'd', none), ("squeeze-repeats", 's', none),
               ("truncate-set1", 't', none)] } : Options).read c
  let set (r : Raw) : Work (List SetItem) := do
    match setItems (r.length + 1) r with
    | .ok items =>
      for i in items do
        match i with
        | .named name =>
          if (characterClass? name).isNone then
            die [c.name, ": invalid character class ", quote name]
        | _ => pure ()
      pure items
    | .error message => die [c.name, ": ", message]
  let complemented := a.hasAny "cC"
  let first (items : List SetItem) : Raw :=
    let r := fillSet 0 items
    if complemented then everyChar.filter (!r.contains ·) else r
  let deletes := a.has 'd'
  let squeezes := a.has 's'
  match a.operands with
  | [] => lacking c "operand"
  | [x] =>
    if !deletes && !squeezes then
      die [c.name, ": missing operand after ", quote x, "\nTwo strings must be given when translating.",
        advice c]
    else if deletes && squeezes then
      die [c.name, ": missing operand after ", quote x,
        "\nTwo strings must be given when both deleting and squeezing repeats.", advice c]
    let r := first (← set x)
    let text ← readInput c
    print (if deletes then text.filter (!r.contains ·) else squeeze r.contains text)
  | [x, y] =>
    if deletes && !squeezes then
      die [c.name, ": extra operand ", quote y,
        "\nOnly one string may be given when deleting without squeezing repeats.", advice c]
    let from_ := first (← set x)
    let items ← set y
    let images := fillSet from_.length items
    let text ← readInput c
    if deletes then
      print (squeeze images.contains (text.filter (!from_.contains ·)))
    else
      if images.isEmpty && !a.has 't' then
        die [c.name, ": when not truncating set1, string2 must be non-empty"]
      let last := if a.has 't' then none else images.getLast?
      let table := (everyChar.map fun z =>
        match (from_.zipIdx.reverse.find? fun p => p.1 == z) with
        | some (_, i) => (images[i]? <|> last).getD z
        | none => z).toArray
      let changed := text.map fun z => table[z.toNat]?.getD z
      print (if squeezes then squeeze images.contains changed else changed)
  | _ :: _ :: extra :: _ => excess c extra

/-! ## Comparing -/

/-- The tool `cmp`. -/
def cmp : Program := fun c => do
  let a ← ({ plain := "slb", valued := "n", code := 2
             long := [("silent", 's', none), ("quiet", 's', none), ("verbose", 'l', none)] } :
    Options).read c
  let get (r : Raw) : Work Raw := do
    match ← readFile c r with
    | .ok text => pure (((a.last? 'n').bind sizeOf).elim text fun n => text.take n)
    | .error f => die [c.name, ": ", quoteIfNeeded r, ": ", phrase f] 2
  match a.operands with
  | [] => die [c.name, ": missing operand after ", quote c.name, "\n", c.name,
      ": Try '", c.name, " --help' for more information."] 2
  | x :: others =>
    let y := others.head?.getD ['-']
    let r ← get x
    let s ← get y
    if r != s then
      noteStatus 1
      let pairs := r.zip s
      let same := (pairs.takeWhile fun (u, v) => u == v).length
      let short := if r.length < s.length then x else y
      let isCut := r.length != s.length
      let finish : Work Unit := do
        if isCut then
          if r.isEmpty || s.isEmpty then warn [c.name, ": EOF on ", quoteIfNeeded short, " which is empty"]
          else
            let n := min r.length s.length
            let front := r.take n
            if a.has 'l' then warn [c.name, ": EOF on ", quoteIfNeeded short, " after byte ", digits n]
            else
              warn [c.name, ": EOF on ", quoteIfNeeded short, " after byte ", digits n,
                if endsLine front then ", line " else ", in line ",
                digits (front.count '\n' + if endsLine front then 0 else 1)]
      if a.has 's' then pure ()
      else if a.has 'l' then
        let octal3 (z : Char) : Raw := padded 3 (Nat.toDigits 8 z.toNat)
        let width := (digits (min r.length s.length)).length
        for ((u, v), i) in pairs.zipIdx do
          if u != v then print (line [padded width (digits (i + 1)), " ", octal3 u, " ", octal3 v])
        finish
      else if same < pairs.length then
        print (line [x, " ", y, " differ: char ", digits (same + 1), ", line ",
          digits ((r.take same).count '\n' + 1)])
      else finish

/-- The edges of the shortest way from one list of lines to another one: the lengths of the longest
common parts of what is left of both. -/
def commonLengths (xs ys : Array Raw) : Array (Array Nat) :=
  (List.range (xs.size + 1)).foldl (fun table back =>
    let i := xs.size - back
    let below := table[i + 1]?.getD #[]
    let row := (List.range (ys.size + 1)).foldl (fun (row : Array Nat) back =>
      let j := ys.size - back
      let n :=
        if i = xs.size || j = ys.size then 0
        else if xs[i]? == ys[j]? then (below[j + 1]?).getD 0 + 1
        else max ((below[j]?).getD 0) ((row[j + 1]?).getD 0)
      row.set! j n) (Array.replicate (ys.size + 1) 0)
    table.set! i row) (Array.replicate (xs.size + 1) #[])

/-- The pieces in which two lists of lines differ: from where to where in each.  The first argument
bounds the number of steps. -/
def differences (xs ys : Array Raw) (table : Array (Array Nat)) :
    Nat → Nat → Nat → List (Nat × Nat × Nat × Nat)
  | 0, _, _ => []
  | fuel + 1, i, j =>
    if i ≥ xs.size && j ≥ ys.size then []
    else if i < xs.size && j < ys.size && xs[i]? == ys[j]? then differences xs ys table fuel (i + 1) (j + 1)
    else
      let (i', j') := run fuel i j
      (i, i', j, j') :: differences xs ys table fuel i' j'
where
  /-- The end of a piece that differs. -/
  run : Nat → Nat → Nat → Nat × Nat
    | 0, i, j => (i, j)
    | fuel + 1, i, j =>
      if i < xs.size && j < ys.size && xs[i]? == ys[j]? then (i, j)
      else if i < xs.size &&
          (j ≥ ys.size || ((table[i]?.getD #[])[j + 1]?).getD 0 ≤ ((table[i + 1]?.getD #[])[j]?).getD 0) then
        run fuel (i + 1) j
      else if j < ys.size then run fuel i (j + 1)
      else (i, j)

/-- A range of lines as `diff` shows it. -/
def rangeText (i i' : Nat) : Raw :=
  if i' ≤ i then digits i else if i' = i + 1 then digits i' else digits (i + 1) ++ ',' :: digits i'

/-- The tool `diff`, with its plainest output. -/
def diff : Program := fun c => do
  let a ← ({ plain := "qsibwBraN", valued := "", code := 2
             long := [("brief", 'q', none), ("report-identical-files", 's', none),
               ("ignore-case", 'i', none), ("ignore-all-space", 'w', none)] } : Options).read c
  match a.operands with
  | [x, y] =>
    let get (r : Raw) : Work (Option Raw) := do
      match ← readFile c r with
      | .ok text => pure (some text)
      | .error f =>
        warn [c.name, ": ", quoteIfNeeded r, ": ", phrase f]
        noteStatus 2
        pure none
    let r? ← get x
    let s? ← get y
    match r?, s? with
    | some r, some s =>
      let fold (l : Raw) : Raw :=
        let l := if a.has 'i' then l.map Char.toLower else l
        if a.has 'w' then l.filter (!isSpace ·)
        else if a.has 'b' then
          [' '].intercalate (wordsOf isSpace l) else l
      let xs := (lines r).toArray
      let ys := (lines s).toArray
      let ended (t : Raw) (ls : Array Raw) : Array Raw :=
        if endsLine t || t.isEmpty then ls.map fold else (ls.map fold).modify (ls.size - 1) (· ++ ['\x00'])
      let us := ended r xs
      let vs := ended s ys
      if us == vs then
        if a.has 's' then print (line ["Files ", x, " and ", y, " are identical"])
      else
        noteStatus 1
        if a.has 'q' then print (line ["Files ", x, " and ", y, " differ"])
        else
          let show_ (front : Raw) (ls : Array Raw) (t : Raw) (i i' : Nat) : Raw :=
            (List.range' i (i' - i)).flatMap fun k =>
              line [front, ls[k]?.getD []] ++
                if k + 1 = ls.size && !endsLine t then ("\\ No newline at end of file\n" : Raw) else []
          for (i, i', j, j') in differences us vs (commonLengths us vs) (2 * (us.size + vs.size) + 4) 0 0 do
            let letter : Raw := if i' ≤ i then "a" else if j' ≤ j then "d" else "c"
            print (line [rangeText i i', letter, rangeText j j'])
            print (show_ "< " xs r i i')
            if letter == ['c'] then print "---\n"
            print (show_ "> " ys s j j')
    | _, _ => pure ()
  | [] => die [c.name, ": missing operand after ", quote c.name, "\n", c.name,
      ": Try '", c.name, " --help' for more information."] 2
  | [x] => die [c.name, ": missing operand after ", quote x, "\n", c.name,
      ": Try '", c.name, " --help' for more information."] 2
  | _ :: _ :: extra :: _ => die [c.name, ": extra operand ", quote extra, "\n", c.name,
      ": Try '", c.name, " --help' for more information."] 2

/-! ## Bytes -/

/-- How `od` shows a piece of what it reads. -/
structure DumpFormat where
  /-- What kind of value is shown. -/
  kind : Char
  /-- How many bytes make a value. -/
  size : Nat

/-- The number of characters of a value. -/
def DumpFormat.width (f : DumpFormat) : Nat :=
  match f.kind with
  | 'c' | 'a' => 3
  | 'x' => 2 * f.size
  | 'o' => (8 * f.size + 2) / 3
  | 'u' => match f.size with
    | 1 => 3
    | 2 => 5
    | 4 => 10
    | _ => 20
  | _ => match f.size with
    | 1 => 4
    | 2 => 6
    | 4 => 11
    | _ => 20

/-- The name of a character that cannot be seen. -/
def dumpName (c : Char) : Raw :=
  match escapeName? c with
  | some l => ['\\', l]
  | none =>
    if c == ' ' || isGraphic c then [c]
    else
      let ds := Nat.toDigits 8 c.toNat
      List.replicate (3 - ds.length) '0' ++ ds
where
  escapeName? : Char → Option Char
    | '\x00' => some '0'
    | '\x07' => some 'a'
    | '\x08' => some 'b'
    | '\t' => some 't'
    | '\n' => some 'n'
    | '\x0b' => some 'v'
    | '\x0c' => some 'f'
    | '\r' => some 'r'
    | _ => none

/-- A value as it is shown. -/
def DumpFormat.show (f : DumpFormat) (piece : Raw) : Raw :=
  let n := (piece ++ List.replicate (f.size - piece.length) '\x00').foldr (fun c n => n * 256 + c.toNat) 0
  let zeros (r : Raw) : Raw := List.replicate (f.width - r.length) '0' ++ r
  let names := ["nul", "soh", "stx", "etx", "eot", "enq", "ack", "bel", "bs", "ht", "nl", "vt", "ff", "cr",
    "so", "si", "dle", "dc1", "dc2", "dc3", "dc4", "nak", "syn", "etb", "can", "em", "sub", "esc", "fs",
    "gs", "rs", "us", "sp"]
  padded f.width (match f.kind with
    | 'c' => dumpName (Char.ofNat n)
    | 'a' =>
      let m := n % 128
      if m = 127 then "del" else ((names[m]?).map String.toList).getD [Char.ofNat m]
    | 'x' => zeros (Nat.toDigits 16 n)
    | 'o' => zeros (Nat.toDigits 8 n)
    | 'u' => digits n
    | _ => signed (Int.bmod n (Nat.pow 2 (8 * f.size))))

/-- Cuts a text into pieces of one length; the first argument bounds their number. -/
def chunks (size : Nat) : Nat → Raw → List Raw
  | 0, _ => []
  | _, [] => []
  | fuel + 1, r => r.take size :: chunks size fuel (r.drop size)

/-- The formats that a type spells. -/
def dumpFormats : Nat → Raw → Option (List DumpFormat)
  | _, [] => some []
  | 0, _ => none
  | fuel + 1, k :: rest =>
    if k == 'a' || k == 'c' then (dumpFormats fuel rest).map (⟨k, 1⟩ :: ·)
    else if "doux".toList.contains k then
      let ds := rest.takeWhile Char.isDigit
      let after := rest.drop ds.length
      let (size, after) := match ds, after with
        | [], 'C' :: r => (1, r)
        | [], 'S' :: r => (2, r)
        | [], 'I' :: r => (4, r)
        | [], 'L' :: r => (8, r)
        | [], r => (4, r)
        | ds, r => (number ds, r)
      if [1, 2, 4, 8].contains size then (dumpFormats fuel after).map (⟨k, size⟩ :: ·) else none
    else none

/-- The tool `od`. -/
def od : Program := fun c => do
  let a ← ({ plain := "bcdoxsv", valued := "AtNjw"
             long := [("format", 't', some true), ("address-radix", 'A', some true),
               ("read-bytes", 'N', some true), ("skip-bytes", 'j', some true), ("width", 'w', some false),
               ("output-duplicates", 'v', none)] } : Options).read c
  let formats ← a.options.foldlM (fun (found : List DumpFormat) (l, r) => do
    match l with
    | 'b' => pure (found ++ [⟨'o', 1⟩])
    | 'c' => pure (found ++ [⟨'c', 1⟩])
    | 'd' => pure (found ++ [⟨'u', 2⟩])
    | 'o' => pure (found ++ [⟨'o', 2⟩])
    | 'x' => pure (found ++ [⟨'x', 2⟩])
    | 's' => pure (found ++ [⟨'d', 2⟩])
    | 't' =>
      match dumpFormats (r.length + 1) r with
      | some fs => pure (found ++ fs)
      | none => die [c.name, ": invalid type string ", quote r]
    | _ => pure found) []
  let formats := if formats.isEmpty then [(⟨'o', 2⟩ : DumpFormat)] else formats
  let texts ← gather c a.operands (refuseFile c)
  let text := texts.flatMap (·.2)
  let start := ((a.last? 'j').bind sizeOf).getD 0
  let text := text.drop start
  let text := ((a.last? 'N').bind sizeOf).elim text fun n => text.take n
  let width := max 1 (((a.last? 'w').bind sizeOf).getD 16)
  let radix := ((a.last? 'A').bind List.head?).getD 'o'
  let address (n : Nat) : Raw :=
    let ds := match radix with
      | 'x' => Nat.toDigits 16 n
      | 'd' => digits n
      | _ => Nat.toDigits 8 n
    if radix == 'n' then [] else List.replicate ((if radix == 'x' then 6 else 7) - ds.length) '0' ++ ds
  let slot := (formats.map fun f => (f.width + 1 + f.size - 1) / f.size).foldl max 0
  let row (f : DumpFormat) (piece : Raw) : Raw :=
    let cell := if formats.length = 1 then f.width + 1 else slot * f.size
    (chunks f.size (piece.length + 1) piece).flatMap fun p => padded cell (f.show p)
  let indent := List.replicate (address 0).length ' '
  let rows := (chunks width (text.length + 1) text).zipIdx
  let mut previous : Raw := []
  let mut starred := false
  for (piece, i) in rows do
    if piece == previous && piece.length == width && !a.has 'v' then
      if !starred then print "*\n"
      starred := true
    else
      starred := false
      for (f, k) in formats.zipIdx do
        print (line [if k = 0 then address (start + i * width) else indent, row f piece])
    previous := piece
  if radix != 'n' then print (line [address (start + text.length)])

end LiveUnits.Tool
