import LiveUnits.Text.Split
import LiveUnits.Tool.Basic
import LiveUnits.Tool.Regular

/-!
# Searching

The lines of files that regular expressions match, with lines around them, their numbers, or only what
matches.
-/

namespace LiveUnits.Tool

open Shell

/-- How lines are chosen and shown. -/
structure Search where
  /-- The options. -/
  given : Arguments
  /-- What is searched for, if it can be found at all. -/
  target : Option Regular
  /-- How many lines around a chosen one are shown: before it, and after it. -/
  around : Option Nat × Option Nat := (none, none)
  /-- How many lines of a file are chosen at most. -/
  most : Option Nat := none
  /-- Whether lines are shown with the names of their files. -/
  named : Bool := false

namespace Search

/-- Whether lines around the chosen ones are shown. -/
def showsAround (s : Search) : Bool := s.around.1.isSome || s.around.2.isSome

/-- Whether a line is chosen. -/
def chooses (s : Search) (l : Raw) : Bool := (s.target.any (·.isIn l)) != s.given.has 'v'

/-- The pieces of a line that match, each with its place, and none of them empty.  The first argument
bounds their number. -/
def pieces (e : Regular) (text : Array Char) : Nat → Nat → List (Nat × Raw)
  | 0, _ => []
  | fuel + 1, i =>
    match e.find? text i with
    | none => []
    | some m =>
      if m.stop == m.start then (if m.stop < text.size then pieces e text fuel (m.stop + 1) else [])
      else (m.start, m.text text) :: pieces e text fuel m.stop

/-- What stands before a line: the name of its file, its number and its place, with a mark after each. -/
def front (s : Search) (name : Raw) (mark : Char) (number place : Nat) : Raw :=
  (if s.named then name ++ [mark] else []) ++
  (if s.given.has 'n' then digits number ++ [mark] else []) ++
  (if s.given.has 'b' then digits place ++ [mark] else [])

/-- A chosen line as it is shown. -/
def showChosen (s : Search) (name : Raw) (number place : Nat) (l : Raw) : Raw :=
  if s.given.has 'o' then
    match s.target with
    | some e =>
      if s.given.has 'v' then []
      else (pieces e l.toArray (l.length + 1) 0).flatMap fun (i, r) =>
        line [s.front name ':' number (place + i), r]
    | none => []
  else line [s.front name ':' number place, l]

/-- What is known while lines are shown. -/
structure Shown where
  /-- What is shown, the last piece first. -/
  out : List Raw := []
  /-- How many lines were chosen. -/
  count : Nat := 0
  /-- How many lines after the last chosen one are still to be shown. -/
  trail : Nat := 0
  /-- The lines before that have not been shown, the last one first, with their numbers and places. -/
  waiting : List (Nat × Nat × Raw) := []
  /-- Whether a line between was not shown. -/
  gap : Bool := false
  /-- Whether anything was shown. -/
  used : Bool := false

/-- Shows one line, if it has to be shown. -/
def step (s : Search) (name : Raw) (p : Shown) (at_ : Nat × Nat × Raw) : Shown :=
  let (number, place, l) := at_
  let showOther (x : Nat × Nat × Raw) : Raw :=
    if s.given.has 'o' then [] else line [s.front name '-' x.1 x.2.1, x.2.2]
  if s.most.all (p.count < ·) && s.chooses l then
    let before := p.waiting.take (s.around.1.getD 0)
    let isApart := p.gap || before.length < p.waiting.length
    let divider : Raw := if s.showsAround && p.used && isApart then "--\n" else []
    { out := s.showChosen name number place l :: (before.map showOther ++ divider :: p.out)
      count := p.count + 1, trail := s.around.2.getD 0, used := true }
  else if 0 < p.trail then
    { p with out := showOther at_ :: p.out, trail := p.trail - 1 }
  else { p with waiting := at_ :: p.waiting.take (s.around.1.getD 0), gap := p.gap || !p.waiting.isEmpty }

/-- The lines of a text with their numbers and places. -/
def placed : Nat → Nat → List Raw → List (Nat × Nat × Raw)
  | _, _, [] => []
  | number, place, l :: rest => (number, place, l) :: placed (number + 1) (place + l.length + 1) rest

/-- Shows the lines of a text.  `used` tells that lines of other texts were shown before. -/
def showLines (s : Search) (name text : Raw) (used : Bool) : Shown :=
  (placed 1 0 (lines text)).foldl (s.step name) { used, gap := used }

end Search

/-- The line about the use of `grep`. -/
def searchUsage : Raw := "Usage: grep [OPTION]... PATTERNS [FILE]..."

/-- The options of `grep`. -/
def searchOptions : Options :=
  { plain := "EFGPHIRTUVabchiLlnoqrsvwxyzZ", valued := "ABCDdefm", code := 2, usage := searchUsage
    long := [("extended-regexp", 'E', none), ("fixed-strings", 'F', none), ("basic-regexp", 'G', none),
      ("perl-regexp", 'P', none), ("regexp", 'e', some true), ("file", 'f', some true),
      ("ignore-case", 'i', none), ("invert-match", 'v', none), ("word-regexp", 'w', none),
      ("line-regexp", 'x', none), ("count", 'c', none), ("files-without-match", 'L', none),
      ("files-with-matches", 'l', none), ("max-count", 'm', some true), ("only-matching", 'o', none),
      ("quiet", 'q', none), ("silent", 'q', none), ("no-messages", 's', none), ("byte-offset", 'b', none),
      ("with-filename", 'H', none), ("no-filename", 'h', none), ("line-number", 'n', none),
      ("after-context", 'A', some true), ("before-context", 'B', some true), ("context", 'C', some true),
      ("text", 'a', none), ("recursive", 'r', none), ("dereference-recursive", 'R', none),
      ("include", '+', some true), ("exclude", '-', some true), ("color", 'k', some false),
      ("colour", 'k', some false), ("null-data", 'z', none), ("null", 'Z', none)] }

/-- What a warning calls an operator at the front of an expression, if there is one. -/
def leadingOperator? (r : Raw) : Option Raw :=
  match r with
  | '*' :: _ => some ['*']
  | '+' :: _ => some ['+']
  | '?' :: _ => some ['?']
  | '\x7b' :: rest => if (Regular.interval? "\x7d" rest).isSome then some "\x7b...\x7d" else none
  | _ => none

/-- The operators of an extended expression that have nothing to act on.  The first argument bounds the
length of the expression. -/
def idleOperators : Nat → Bool → Raw → List Raw
  | 0, _, _ => []
  | _, _, [] => []
  | fuel + 1, isFirst, c :: rest =>
    match if isFirst then leadingOperator? (c :: rest) else none with
    | some o => o :: idleOperators fuel true rest
    | none =>
      match c with
      | '\\' => idleOperators fuel false (rest.drop 1)
      | '[' =>
        let body := rest.drop (if Regular.starts "^]" rest then 2 else 1)
        idleOperators fuel false ((body.dropWhile (· != ']')).drop 1)
      | _ => idleOperators fuel (c == '(' || c == '|' || (isFirst && c == '^')) rest

/-- What the options search for. -/
def searchTarget (c : Call) (a : Arguments) (texts : List Raw) : Work (Option Regular) := do
  let kinds := a.options.filter fun o => "EFGP".toList.contains o.1
  let kind := match kinds.getLast? with
    | some (k, _) => k
    | none => if c.name.getLast? == some 'p' && Regular.starts "egrep" (lastName c.name) then 'E'
      else if Regular.starts "fgrep" (lastName c.name) then 'F' else 'G'
  let extended := kind == 'E' || kind == 'P'
  let d : Regular.Dialect := { extended, foldsCase := a.hasAny "iy" }
  let expressions ← texts.mapM fun r => do
    if kind == 'F' then pure (Regular.literal d r)
    else
      match Regular.ofText d r with
      | .ok (e, _) =>
        if kind == 'E' then
          for o in idleOperators (r.length + 1) true r do
            warn [c.name, ": warning: ", o, " at start of expression"]
        pure e
      | .error message => die [c.name, ": ", message] 2
  let whole (e : Regular) : Regular :=
    if a.has 'x' then
      .sequence (.place fun x _ => x.isNone) (.sequence e (.place fun _ y => y.isNone))
    else if a.has 'w' then
      .sequence (.place fun x _ => !x.any isNameChar) (.sequence e (.place fun _ y => !y.any isNameChar))
    else e
  match expressions.map whole with
  | [] => pure none
  | e :: rest => pure (some (rest.foldl .choice e))

/-- The files in a directory and below it, by the paths that lead to them. -/
def filesBelow (fs : FileSystem) (directory : Raw) : List Raw :=
  match fs.node (pathOf directory) with
  | .ok x => (x.descendants.filter fun e => e.2.isFile).map fun (l, _) =>
      l.foldl (fun r name => under r (raw name)) directory
  | .error _ => []

/-- Whether a file is one of those to be searched in directories. -/
def isIncluded (a : Arguments) (r : Raw) : Bool :=
  let hits (p : Raw) : Bool := Pattern.matchesAll (p.map (·, true)) (lastName r)
  let included := a.all '+'
  (included.isEmpty || included.any hits) && !(a.all '-').any hits

/-- The files that are to be searched, each with the name under which it is shown, and whether any of
them were found in a directory. -/
def searchPlaces (a : Arguments) (fs : FileSystem) : List (Raw × Raw) × Bool :=
  let goesDown := a.hasAny "rR"
  if a.operands.isEmpty then
    if goesDown then
      (((filesBelow fs ['.']).filter (isIncluded a)).map fun r => (r, r.drop 2), true)
    else ([(['-'], "(standard input)")], false)
  else
    let here := a.operands.map fun r =>
      if goesDown && fs.isDirectory (pathOf r) then
        ((filesBelow fs r).filter (isIncluded a)).map fun s => (s, s)
      else [(r, if r == ['-'] then "(standard input)" else r)]
    (here.flatten, goesDown && a.operands.any fun r => fs.isDirectory (pathOf r))

/-- The number that an option gives, if it is given. -/
def countOption (c : Call) (r : Option Raw) (message : String) : Work (Option Nat) := do
  match r with
  | none => pure none
  | some r =>
    match naturalOf r with
    | some n => pure (some n)
    | none => die [c.name, ": ", if message == "invalid max count" then [] else r ++ ": ", message] 2

/-- A number that stands alone as an option: so many lines around are shown. -/
def spellOutContext (args : List Raw) : List Raw :=
  args.flatMap fun a =>
    match a with
    | '-' :: ds => if isNumber ds then [['-', 'C'], ds] else [a]
    | a => [a]

/-- The tool `grep`. -/
def grep : Program := fun c => do
  let a ← searchOptions.readFrom c (2 * c.arguments.length + 1) (spellOutContext c.arguments)
  let fs ← files
  let fromFiles ← (a.all 'f').mapM fun r => do
    match ← readFile c r with
    | .ok text => pure (lines text)
    | .error f => die [c.name, ": ", r, ": ", phrase f] 2
  let given := a.all 'e'
  let (texts, a) ← if given.isEmpty && (a.all 'f').isEmpty then
      match a.operands with
      | [] => die [searchUsage, advice c] 2
      | r :: rest => pure (splitOn '\n' r, { a with operands := rest })
    else pure (given.flatMap (splitOn '\n') ++ fromFiles.flatten, a)
  let contextOf (l : Char) : Work (Option Nat) := do
    let n ← countOption c (a.last? l) "invalid context length argument"
    let both ← countOption c (a.last? 'C') "invalid context length argument"
    pure (n <|> both)
  let most ← countOption c (a.last? 'm') "invalid max count"
  let around := (← contextOf 'B', ← contextOf 'A')
  let target ← searchTarget c a texts
  let (places, isDeep) := searchPlaces a fs
  let named := match (a.options.filter fun o => o.1 == 'H' || o.1 == 'h').getLast? with
    | some (l, _) => l == 'H'
    | none => isDeep || a.operands.length > 1
  let s : Search := { given := a, target, around, most, named }
  let isSilent := a.has 'q'
  let listed := a.hasAny "lL"
  let mut found := false
  let mut failed := false
  let mut used := false
  for (r, name) in places do
    match ← readFile c r with
    | .error f =>
      failed := true
      if !a.has 's' then warn [c.name, ": ", r, ": ", phrase f]
    | .ok text =>
      let shown := s.showLines name text used
      let hit := 0 < shown.count
      found := found || hit
      if isSilent && hit then quit 0
      else if isSilent then pure ()
      else if listed then
        if hit == a.has 'l' then print (line [name])
        else pure ()
      else if a.has 'c' then print (line [if s.named then name ++ [':'] else [], digits shown.count])
      else if text.contains '\x00' && !a.has 'a' then
        if hit then warn [c.name, ": ", name, ": binary file matches"]
        else pure ()
      else
        print shown.out.reverse.flatten
        used := shown.used
  quit (if failed then 2 else if found then 0 else 1)

end LiveUnits.Tool
