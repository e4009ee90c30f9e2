import LiveUnits.Tool.Basic
import LiveUnits.Tool.Edit

/-!
# Editing lines

Carries scripts out: every line is read into a buffer, the commands that choose it act on the buffer, and
then the buffer is written, together with the texts that wait for the end of the line.
-/

namespace LiveUnits.Tool

open Shell

namespace Edit

/-- A line of the input. -/
structure Entry where
  /-- The line. -/
  text : Raw
  isEnded : Bool
  file : Raw
  /-- Whether the numbers of lines begin again here. -/
  isFirst : Bool
  /-- Whether it is the last line. -/
  isLast : Bool

/-- What was written to a file. -/
structure Sheet where
  /-- The file; none for the output. -/
  name : Option Raw
  /-- What was written, the last piece first. -/
  written : List Raw := []
  /-- Whether the last line lacks its end. -/
  lacksEnd : Bool := false

/-- What waits for the end of a line. -/
inductive Waiting where
  | text (r : Raw)
  | file (name : Raw)

/-- How lines are edited. -/
structure Setting where
  commands : Array Command
  /-- Whether lines are written only on request. -/
  isQuiet : Bool
  /-- Whether files are changed. -/
  inPlace : Bool
  /-- What ends a line. -/
  mark : Char
  /-- How many characters `l` puts on a line. -/
  lineLength : Nat

/-- What is known while lines are edited. -/
structure State where
  /-- The lines that have not been read. -/
  ahead : List Entry
  /-- The line that was read last. -/
  current : Entry := ⟨[], true, ['-'], true, true⟩
  number : Nat := 0
  /-- The buffer on which commands act. -/
  buffer : Raw := []
  /-- The other buffer. -/
  hold : Raw := []
  /-- What waits for the end of the line, the last one first. -/
  waiting : List Waiting := []
  /-- Whether a substitution has been made since the line was read. -/
  changed : Bool := false
  /-- The commands whose ranges are open, with the last lines of the ranges if these are known. -/
  opened : List (Nat × Option Nat)
  /-- The last expression that was used. -/
  last : Option (Regular × Nat) := none
  /-- What was written. -/
  sheets : List Sheet := []
  /-- How many lines of files have been read, for `R`. -/
  reading : List (Raw × Nat) := []

/-- Work on lines. -/
abbrev Editing := StateT State Work

/-- How the commands for a line end. -/
inductive Outcome where
  /-- With the last command. -/
  | done
  /-- The line is not written. -/
  | deleted
  /-- The commands begin again without another line. -/
  | again
  /-- The work ends, with an exit code. -/
  | quit (status : Nat) (prints : Bool)
  /-- The commands never end. -/
  | endless

/-! ## Writing -/

/-- What was written, with another piece. -/
def Sheet.add (s : Sheet) (r : Raw) (isEnded : Bool) : Sheet :=
  { s with written := r :: (if s.lacksEnd then ['\n'] :: s.written else s.written), lacksEnd := !isEnded }

/-- Writes to a file or as output. -/
def write (name : Option Raw) (r : Raw) (isEnded : Bool) : Editing Unit := modify fun st =>
  if st.sheets.any (·.name == name) then
    { st with sheets := st.sheets.map fun s => if s.name == name then s.add r isEnded else s }
  else { st with sheets := st.sheets ++ [({ name } : Sheet).add r isEnded] }

/-- Where lines are written. -/
def target (s : Setting) : Editing (Option Raw) := do
  let st ← get
  pure (if s.inPlace then some st.current.file else none)

def writeText (s : Setting) (r : Raw) : Editing Unit := do
  write (← target s) r true

/-- Writes a line to a file or as output. -/
def writeLineTo (s : Setting) (name : Option Raw) (r : Raw) (isEnded : Bool) : Editing Unit :=
  write name (if isEnded then r ++ [s.mark] else r) isEnded

def writeBuffer (s : Setting) : Editing Unit := do
  let st ← get
  writeLineTo s (← target s) st.buffer st.current.isEnded

/-- Writes what waits for the end of the line. -/
def writeWaiting (s : Setting) : Editing Unit := do
  let st ← get
  for w in st.waiting.reverse do
    match w with
    | .text r => writeText s r
    | .file name =>
      match contents (← files) name with
      | .ok r => writeText s r
      | .error _ => pure ()
  modify fun st => { st with waiting := [] }

/-! ## Lines -/

/-- Reads the next line behind what is in front of it; answers whether there is one. -/
def readLine (s : Setting) (front : Raw) : Editing Bool := do
  match (← get).ahead with
  | [] => pure false
  | e :: rest =>
    writeWaiting s
    modify fun st => { st with
      ahead := rest, current := e, buffer := front ++ e.text, changed := false
      number := if e.isFirst then 1 else st.number + 1 }
    pure true

/-- The regular expression that is meant. -/
def regularOf (e : Expression) : Editing (Regular × Nat) := do
  match e.regular with
  | some r =>
    modify fun st => { st with last := some r }
    pure r
  | none =>
    match (← get).last with
    | some r => pure r
    | none => die ["sed: -e expression #1, char 0: no previous regular expression"]

/-- Whether an address chooses the line. -/
def chooses (a : Address) : Editing Bool := do
  let st ← get
  match a with
  | .line n => pure (st.number == n)
  | .every first step => pure (first ≤ st.number && (st.number - first) % step == 0)
  | .last => pure st.current.isLast
  | .matching e =>
    let (r, _) ← regularOf e
    pure (r.isIn st.buffer)

/-- Notes that a range is open up to some line, or that it is not. -/
def setOpened (i : Nat) (stop : Option (Option Nat)) : Editing Unit := modify fun st =>
  let others := st.opened.filter (·.1 != i)
  { st with
    opened := match stop with
      | some n => (i, n) :: others
      | none => others }

/-- Whether a command acts on the line. -/
def acts (i : Nat) (c : Command) : Editing Bool := do
  let n := (← get).number
  let inside ← match c.lines with
    | none => pure true
    | some (a, none) => chooses a
    | some (a, some b) =>
      match (← get).opened.lookup i with
      | some (some stop) =>
        if stop ≤ n then setOpened i none
        pure (n ≤ stop)
      | some none =>
        match b with
        | .at e => if ← chooses e then setOpened i none
        | _ => pure ()
        pure true
      | none =>
        if ← chooses a then
          let upTo (stop : Nat) : Editing Unit := if n < stop then setOpened i (some (some stop)) else pure ()
          match b with
          | .at (.line stop) => upTo stop
          | .after m => upTo (n + m)
          | .multiple m => upTo (if m = 0 then n else (n + m - 1) / m * m)
          | .at _ => setOpened i (some none)
          pure true
        else pure false
  pure (inside != c.inverted)

/-! ## Commands -/

/-- A text as `l` shows it, in pieces that are not divided. -/
def visiblePieces (r : Raw) : List Raw :=
  r.map fun c =>
    match c with
    | '\\' => ['\\', '\\']
    | '\x07' => ['\\', 'a']
    | '\x08' => ['\\', 'b']
    | '\x0c' => ['\\', 'f']
    | '\n' => ['\\', 'n']
    | '\r' => ['\\', 'r']
    | '\t' => ['\\', 't']
    | '\x0b' => ['\\', 'v']
    | c =>
      if isGraphic c || c == ' ' then [c]
      else
        let ds := Nat.toDigits 8 c.toNat
        '\\' :: List.replicate (3 - ds.length) '0' ++ ds

/-- A text as `l` shows it, on lines of some length. -/
def visibleText (width : Nat) (r : Raw) : Raw :=
  let (out, _) := (visiblePieces r).foldl (fun (out, column) p =>
    if 1 < width && width - 1 < column + p.length then (out ++ ['\\', '\n'] ++ p, p.length)
    else (out ++ p, column + p.length)) (([], 0) : Raw × Nat)
  out ++ ['$', '\n']

/-- How the case of what follows changes: for all of it, and for its first character. -/
abbrev CaseState := Option Char × Option Char

/-- A character in the case that is asked for. -/
def cased (s : CaseState) (c : Char) : Char :=
  match s.2.orElse fun _ => s.1 with
  | some 'u' | some 'U' => c.toUpper
  | some 'l' | some 'L' => c.toLower
  | _ => c

/-- What pieces make of a match; the result ends with the last character. -/
def replacement (ps : List Piece) (m : Match) (text : Array Char) : Raw :=
  let put (s : Raw × CaseState) (r : Raw) : Raw × CaseState :=
    r.foldl (fun (out, k) c => (cased k c :: out, (k.1, none))) s
  (ps.foldl (fun (s : Raw × CaseState) p =>
    match p with
    | .char c => put s [c]
    | .group 0 => put s (m.text text)
    | .group n => put s (m.group text n)
    | .case 'E' => (s.1, (none, none))
    | .case c => (s.1, if c.isUpper then (some c, none) else (s.2.1, some c))) ([], (none, none))).1.reverse

/-- A text with its matches replaced, the last character first, and whether there were any.  `count` is
how many matches there were before; `blocked` is a place where an empty match does not count. -/
def replaceFrom (s : Substitution) (e : Regular) (text : Array Char) :
    Nat → Nat → Nat → Option Nat → Raw → Raw × Bool
  | 0, _, _, _, out => (out, false)
  | fuel + 1, i, count, blocked, out =>
    let keep (a b : Nat) (out : Raw) : Raw := (text.extract a b).toList.reverse ++ out
    match e.find? text i with
    | none => (keep i text.size out, false)
    | some m =>
      let out := keep i m.start out
      let isEmpty := m.stop == m.start
      let forward (count : Nat) (out : Raw) : Raw × Bool :=
        if isEmpty then
          if m.stop < text.size then
            replaceFrom s e text fuel (m.stop + 1) count none (keep m.stop (m.stop + 1) out)
          else (out, false)
        else replaceFrom s e text fuel m.stop count (some m.stop) out
      if isEmpty && blocked == some m.start then forward count out
      else if count + 1 < s.first then forward (count + 1) (keep m.start m.stop out)
      else
        let out := (replacement s.pieces m text).reverse ++ out
        if s.all then ((forward (count + 1) out).1, true)
        else (keep m.stop text.size out, true)

/-- Makes a substitution. -/
def substitute (s : Setting) (u : Substitution) : Editing Unit := do
  let (e, _) ← regularOf u.target
  let text := (← get).buffer.toArray
  let (out, hit) := replaceFrom u e text (text.size + 2) 0 0 none []
  if hit then
    modify fun st => { st with buffer := out.reverse, changed := true }
    if u.prints then writeBuffer s
    match u.file with
    | some name => do
      let st ← get
      writeLineTo s (some name) st.buffer st.current.isEnded
    | none => pure ()

/-- The place of the brace that closes commands; `depth` counts the braces that are open. -/
def closing (cs : Array Command) : Nat → Nat → Nat → Nat
  | 0, i, _ => i
  | fuel + 1, i, depth =>
    match cs[i]? with
    | none => i
    | some c =>
      match c.deed with
      | .block => closing cs fuel (i + 1) (depth + 1)
      | _ =>
        if c.label == some ['\x7d'] then
          (if depth = 0 then i else closing cs fuel (i + 1) (depth - 1))
        else closing cs fuel (i + 1) depth

/-- Carries out a command that is nothing but a letter; the result tells how the commands end, if they
do. -/
def plain (s : Setting) (c : Char) : Editing (Option Outcome) := do
  let st ← get
  let front := st.buffer.takeWhile (· != '\n')
  match c with
  | 'd' => pure (some .deleted)
  | 'D' =>
    if st.buffer.contains '\n' then
      set { st with buffer := st.buffer.drop (front.length + 1) }
      pure (some .again)
    else pure (some .deleted)
  | 'F' => do
    writeText s (st.current.file ++ ['\n'])
    pure none
  | 'g' => do
    set { st with buffer := st.hold }
    pure none
  | 'G' => do
    set { st with buffer := st.buffer ++ '\n' :: st.hold }
    pure none
  | 'h' => do
    set { st with hold := st.buffer }
    pure none
  | 'H' => do
    set { st with hold := st.hold ++ '\n' :: st.buffer }
    pure none
  | 'n' =>
    if st.ahead.isEmpty then pure (some .done)
    else do
      if !s.isQuiet then writeBuffer s
      let _ ← readLine s []
      pure none
  | 'N' =>
    if st.ahead.isEmpty then pure (some .done)
    else do
      let _ ← readLine s (st.buffer ++ ['\n'])
      pure none
  | 'p' => do
    writeBuffer s
    pure none
  | 'P' => do
    writeLineTo s (← target s) front (front.length < st.buffer.length || st.current.isEnded)
    pure none
  | 'x' => do
    set { st with buffer := st.hold, hold := st.buffer }
    pure none
  | 'z' => do
    set { st with buffer := [] }
    pure none
  | '=' => do
    writeText s (digits st.number ++ ['\n'])
    pure none
  | _ => pure none

/-- Reads or writes a file. -/
def useFile (s : Setting) (c : Char) (name : Raw) : Editing Unit := do
  let st ← get
  match c with
  | 'r' => set { st with waiting := .file name :: st.waiting }
  | 'R' =>
    let n := (st.reading.lookup name).getD 0
    let ls := lines (((contents (← files) name).toOption).getD [])
    match ls[n]? with
    | some l => set { st with
        waiting := .text (l ++ ['\n']) :: st.waiting, reading := (name, n + 1) :: st.reading }
    | none => pure ()
  | 'W' => writeLineTo s (some name) (st.buffer.takeWhile (· != '\n')) true
  | _ => writeLineTo s (some name) st.buffer st.current.isEnded

/-- Carries out the commands for a line, from one of them on. -/
def execute (s : Setting) : Nat → Nat → Editing Outcome
  | 0, _ => pure .endless
  | fuel + 1, i => do
    match s.commands[i]? with
    | none => pure .done
    | some c =>
      let jumpTo (label : Raw) : Nat :=
        if label.isEmpty then s.commands.size
        else (s.commands.findIdx? fun c => c.label == some (':' :: label)).getD s.commands.size
      let inside ← acts i c
      match c.deed with
      | .block => execute s fuel (if inside then i + 1 else closing s.commands s.commands.size (i + 1) 0 + 1)
      | deed =>
        if !inside then execute s fuel (i + 1)
        else
          match deed with
          | .block | .nothing => execute s fuel (i + 1)
          | .plain l =>
            match ← plain s l with
            | some outcome => pure outcome
            | none => execute s fuel (i + 1)
          | .text 'a' r =>
            modify fun st => { st with waiting := .text r :: st.waiting }
            execute s fuel (i + 1)
          | .text 'i' r =>
            writeText s r
            execute s fuel (i + 1)
          | .text _ r =>
            if ((← get).opened.lookup i).isNone || c.inverted then writeText s r
            pure .deleted
          | .jump 'b' l => execute s fuel (jumpTo l)
          | .jump l label =>
            let changed := (← get).changed
            modify fun st => { st with changed := if l == 't' then false else st.changed && l != 'T' }
            execute s fuel (if changed == (l == 't') then jumpTo label else i + 1)
          | .file l name =>
            useFile s l name
            execute s fuel (i + 1)
          | .number 'q' n => pure (.quit (n.getD 0) true)
          | .number 'Q' n => pure (.quit (n.getD 0) false)
          | .number _ n =>
            writeText s (visibleText (n.getD s.lineLength) (← get).buffer)
            execute s fuel (i + 1)
          | .substitute u =>
            substitute s u
            execute s fuel (i + 1)
          | .translate pairs =>
            modify fun st => { st with buffer := st.buffer.map fun c => (pairs.lookup c).getD c }
            execute s fuel (i + 1)

/-- How many commands are carried out for a line at most. -/
def stepLimit : Nat := 200000

/-- Edits line after line; `keeps` tells that the buffer already holds what is edited.  The result is the
exit code, unless the work never ends. -/
def cycles (s : Setting) : Nat → Bool → Editing (Option Nat)
  | 0, _ => pure none
  | fuel + 1, keeps => do
    let isThere ← if keeps then pure true else readLine s []
    if !isThere then
      writeWaiting s
      pure (some 0)
    else
      match ← execute s stepLimit 0 with
      | .done =>
        if !s.isQuiet then writeBuffer s
        cycles s fuel false
      | .deleted => cycles s fuel false
      | .again =>
        writeWaiting s
        cycles s fuel true
      | .quit status prints =>
        if prints then
          if !s.isQuiet then writeBuffer s
          writeWaiting s
        pure (some status)
      | .endless => pure none

/-! ## The tool -/

/-- The lines of a text as entries; `isOnly` tells that nothing follows the text that belongs to it. -/
def entries (mark : Char) (file r : Raw) (separate : Bool) : List Entry :=
  let all := splitOn mark r
  let hasEnd := all.getLast? == some []
  let ls := if hasEnd then all.dropLast else all
  ls.zipIdx.map fun (l, i) =>
    let isEnd := i + 1 == ls.length
    ⟨l, hasEnd || !isEnd, file, separate && i == 0, separate && isEnd⟩

/-- The entries of several texts, the last of which is the last line of all. -/
def marked (es : List Entry) : List Entry :=
  es.zipIdx.map fun (e, i) => if i + 1 == es.length then { e with isLast := true } else e

/-- A piece of a script: where it comes from, and what it is. -/
structure Chunk where
  /-- The file, unless it is an argument. -/
  file : Option Raw
  text : Raw

/-- The whole text of some pieces of a script. -/
def joinChunks (cs : List Chunk) : Raw := ['\n'].intercalate (cs.map (·.text))

/-- What a message says about a place in a script. -/
def placeText : Nat → Nat → List Chunk → Raw
  | _, _, [] => []
  | n, count, c :: rest =>
    if n ≤ c.text.length || rest.isEmpty then
      match c.file with
      | some f => "file " ++ f ++ " line " ++ digits ((c.text.take (n - 1)).count '\n' + 1) ++ ": "
      | none => "-e expression #" ++ digits count ++ ", char " ++ digits n ++ ": "
    else placeText (n - c.text.length - 1) (if c.file.isSome then count else count + 1) rest

/-- The name under which a file is kept before it is changed. -/
def backupName (file suffix : Raw) : Raw :=
  if suffix.contains '*' then
    let base := lastName file
    let name := suffix.flatMap fun c => if c == '*' then base else [c]
    if name.contains '/' then name else file.take (file.length - base.length) ++ name
  else file ++ suffix

/-- Changes files at the end of the work. -/
def settle (c : Call) (s : Setting) (suffix : Raw) (changed : List Raw) (sheets : List Sheet) : Work Unit := do
  let isFileOf (sheet : Sheet) : Bool := s.inPlace && sheet.name.any changed.contains
  for sheet in sheets do
    let text := sheet.written.reverse.flatten
    match sheet.name with
    | none => print text
    | some name =>
      if name == ("/dev/stdout" : Raw) then print text
      else if name == ("/dev/stderr" : Raw) then
        modify fun p => { p with written := (true, text) :: p.written }
      else
        if isFileOf sheet && !suffix.isEmpty then
          let before := ((contents (← files) name).toOption).getD []
          let _ ← changeFiles (writeFile (backupName name suffix) before)
        match ← changeFiles (writeFile name text) with
        | some f => die [c.name, ": couldn't open file ", name, ": ", phrase f] 4
        | none => pure ()

/-- The files that a script writes. -/
def writtenFiles (cs : List Command) : List Raw :=
  cs.filterMap fun c =>
    match c.deed with
    | .file l name => if l == 'w' || l == 'W' then some name else none
    | .substitute u => u.file
    | _ => none

end Edit

/-- The option for changing files, which may be given something only in the same argument, in a form that
is easy to read. -/
def spellOutInPlace (args : List Raw) : List Raw :=
  args.flatMap fun a =>
    match a with
    | '-' :: '-' :: _ => [a]
    | '-' :: letters =>
      let front := letters.takeWhile "nrEszub".toList.contains
      match letters.drop front.length with
      | 'i' :: suffix =>
        (if front.isEmpty then [] else ['-' :: front]) ++ ["--in-place=" ++ suffix]
      | _ => [a]
    | a => [a]

/-- The tool `sed`. -/
def sed : Program := fun c => do
  let o : Options :=
    { plain := "nrEszub", valued := "efl", usage := "Usage: sed [OPTION]... \x7bscript-only-if-no-other-script\x7d [input-file]..."
      long := [("quiet", 'n', none), ("silent", 'n', none), ("expression", 'e', some true),
        ("file", 'f', some true), ("regexp-extended", 'E', none), ("in-place", 'i', some false),
        ("separate", 's', none), ("null-data", 'z', none), ("unbuffered", 'u', none),
        ("line-length", 'l', some true), ("posix", 'p', none), ("debug", 'd', none)] }
  let args := spellOutInPlace c.arguments
  let a ← o.readFrom c (args.length + 1) args
  let given ← (a.options.filter fun x => x.1 == 'e' || x.1 == 'f').mapM fun (l, r) => do
    if l == 'e' then pure ({ file := none, text := r } : Edit.Chunk)
    else
      match ← readFile c r with
      | .ok text => pure { file := some r, text := if endsLine text then text.dropLast else text }
      | .error f => die [c.name, ": couldn't open file ", r, ": ", phrase f] 4
  let (chunks, operands) ← match given, a.operands with
    | [], [] => die [o.usage]
    | [], r :: rest => pure ([({ file := none, text := r } : Edit.Chunk)], rest)
    | given, rest => pure (given, rest)
  let script := Edit.joinChunks chunks
  let commands ← match Edit.ofText (a.hasAny "rE") script with
    | .ok cs => pure cs
    | .error m =>
      let place := match m.place with
        | none => []
        | some 0 => "-e expression #" ++ digits (max 1 (chunks.filter (·.file.isNone)).length) ++ ", char 0: "
        | some n => Edit.placeText n 1 chunks
      die [c.name, ": ", place, m.message] m.status
  let inPlace := a.has 'i'
  let separate := inPlace || a.has 's'
  let mark := if a.has 'z' then '\x00' else '\n'
  let mut entries : List Edit.Entry := []
  let mut read : List Raw := []
  let mut failure := 0
  for r in (if operands.isEmpty then [['-']] else operands) do
    if failure < 4 then
      match ← readFile c r with
      | .ok text =>
        entries := entries ++ Edit.entries mark r text separate
        read := read ++ [r]
      | .error .isDirectory =>
        if inPlace then warn [c.name, ": couldn't edit ", r, ": not a regular file"]
        else warn [c.name, ": read error on ", r, ": Is a directory"]
        failure := if inPlace then max failure 4 else 4
      | .error f =>
        warn [c.name, ": can't read ", r, ": ", phrase f]
        failure := max failure 2
  let isQuiet := a.has 'n' || Regular.starts "#n\n" script || script == ['#', 'n']
  let s : Edit.Setting :=
    { commands := commands.toArray, isQuiet, inPlace, mark
      lineLength := (((a.last? 'l').bind naturalOf)).getD 70 }
  let opened := (commands.zipIdx.filter fun x => x.1.startsOpen).map fun x => (x.2, (none : Option Nat))
  let sheets := (Edit.writtenFiles commands).eraseDups.map (fun r => ({ name := some r } : Edit.Sheet)) ++
    (if inPlace then read.map fun r => { name := some r } else [])
  let start : Edit.State := { ahead := Edit.marked entries, opened, sheets }
  let (status, st) ← (Edit.cycles s (2 * entries.length + Edit.stepLimit) false).run start
  Edit.settle c s ((a.last? 'i').getD []) read st.sheets
  match status with
  | some 0 => quit failure
  | some n => quit n
  | none => modify fun p => { p with endless := true }

end LiveUnits.Tool
