import LiveUnits.FileSystem.Change
import LiveUnits.Shell.Field
import LiveUnits.Shell.Numeral

/-!
# Tools

The programs that small compilers are put together from.  A tool gets its arguments and its input; it
writes output and errors, changes files, and leaves an exit code.  What a tool writes as output is held
back until it ends, so that its errors come first, unless it passes its output on at once.
-/

namespace LiveUnits.Tool

open Shell

/-- A call of a tool. -/
structure Call where
  /-- The name by which it was called. -/
  name : Raw
  arguments : List Raw
  /-- What it can read. -/
  input : Raw := []
  /-- Whether it can go back in what it reads. -/
  canSeek : Bool := false
  /-- The variables that it gets to know. -/
  environment : List (Raw × Raw) := []

/-- What a tool has done so far. -/
structure Progress where
  /-- The exit code. -/
  status : Nat := 0
  /-- What was written as output, the last piece first. -/
  out : List Raw := []
  /-- What was written, output and errors as they came, the last piece first. -/
  written : List (Bool × Raw) := []
  files : FileSystem
  /-- The permissions of files that have been chosen, by place. -/
  modes : List (Raw × Nat) := []
  /-- How much of the input was read. -/
  used : Nat := 0
  /-- The nanoseconds that went by. -/
  elapsed : Nat := 0
  /-- Whether the output never ends; then what was written is the beginning of it. -/
  endless : Bool := false
  /-- The signal that ended the tool. -/
  signal : Option Nat := none

/-- The work of a tool, which may end early. -/
abbrev Work := ExceptT Unit (StateM Progress)

/-- A tool. -/
abbrev Program := Call → Work Unit

/-- What a tool has done in the end. -/
def run (t : Program) (c : Call) (p : Progress) : Progress :=
  let p := (t c p).2
  { p with written := (p.out.map fun r => (false, r)) ++ p.written, out := [] }

/-! ## Writing -/

/-- Writes output, which is held back. -/
def print (r : Raw) : Work Unit := modify fun p => { p with out := r :: p.out }

/-- Writes output at once, after what has been held back. -/
def printNow (r : Raw) : Work Unit := modify fun p =>
  { p with out := [], written := (false, r) :: (p.out.map fun r => (false, r)) ++ p.written }

/-- Writes a line of errors. -/
def warn (parts : List Raw) : Work Unit := modify fun p =>
  { p with written := (true, line parts) :: p.written }

/-- Notes an exit code, unless there is a greater one. -/
def noteStatus (n : Nat) : Work Unit := modify fun p => { p with status := max p.status n }

/-- Ends the work with an exit code. -/
def quit {α : Type} (status : Nat) : Work α := do
  modify fun p => { p with status }
  throw ()

/-- Complains, and goes on. -/
def blame (parts : List Raw) : Work Unit := do
  warn parts
  noteStatus 1

/-- Complains, and ends. -/
def die {α : Type} (parts : List Raw) (status : Nat := 1) : Work α := do
  warn parts
  quit status

/-- What a fault says. -/
def phrase (f : Fault) : Raw := rawText f.phrase

/-! ## Quotation marks -/

/-- Whether a character has to be quoted for the shell. -/
def isDelicate (c : Char) : Bool := " \t\n\x27\"\\$\x60!&()*;<=>?[^|".toList.contains c

/-- A text in the quotation marks of messages. -/
def quote (r : Raw) : Raw :=
  if r.contains '\x27' then
    if r.any "\"$\x60\\!".toList.contains then
      '\x27' :: (r.flatMap fun c => if c == '\x27' then "\x27\\\x27\x27".toList else [c]) ++ ['\x27']
    else '"' :: r ++ ['"']
  else '\x27' :: r ++ ['\x27']

/-- A text in quotation marks if it needs them. -/
def quoteIfNeeded (r : Raw) : Raw :=
  if r.isEmpty || r.any isDelicate || r.head? == some '#' || r.head? == some '~' then quote r else r

/-- The advice that ends a message about arguments. -/
def advice (c : Call) : Raw := "\nTry '".toList ++ c.name ++ " --help' for more information.".toList

/-! ## Options -/

/-- The options and the other arguments of a call. -/
structure Arguments where
  /-- The options, by letter, with what they are given. -/
  options : List (Char × Raw)
  /-- The other arguments. -/
  operands : List Raw

namespace Arguments

/-- Whether an option was given. -/
def has (a : Arguments) (c : Char) : Bool := a.options.any (·.1 == c)

/-- Whether any of some options was given. -/
def hasAny (a : Arguments) (cs : String) : Bool := cs.toList.any a.has

/-- What an option was given last. -/
def last? (a : Arguments) (c : Char) : Option Raw :=
  ((a.options.filter (·.1 == c)).getLast?).map (·.2)

/-- All that an option was given. -/
def all (a : Arguments) (c : Char) : List Raw :=
  a.options.filterMap fun (d, r) => if d == c then some r else none

end Arguments

structure Options where
  /-- The letters of options that stand alone. -/
  plain : String := ""
  /-- The letters of options that are given something. -/
  valued : String := ""
  /-- The long names: the letter of the same option, and whether it may, must or cannot be given
  something. -/
  long : List (String × Char × Option Bool) := []
  /-- Whether options end where another argument stands. -/
  strict : Bool := false
  /-- The exit code if something is wrong with the arguments. -/
  code : Nat := 1
  /-- A line about the arguments that stands before the advice. -/
  usage : Raw := []

namespace Options

/-- Complains about the arguments. -/
def misuse {α : Type} (o : Options) (c : Call) (parts : List Raw) : Work α :=
  die ([c.name, ": "] ++ parts ++ [if o.usage.isEmpty then [] else '\n' :: o.usage, advice c]) o.code

/-- The letters after a dash, with what follows in the next argument.  The result is the options, and
whether the next argument has been used. -/
def letters (o : Options) (c : Call) : Raw → Option Raw → Work (List (Char × Raw) × Bool)
  | [], _ => pure ([], false)
  | l :: rest, next =>
    if o.valued.toList.contains l then
      if !rest.isEmpty then pure ([(l, rest)], false)
      else
        match next with
        | some r => pure ([(l, r)], true)
        | none => o.misuse c ["option requires an argument -- '", [l], "'"]
    else if o.plain.toList.contains l then do
      let (others, used) ← letters o c rest next
      pure ((l, []) :: others, used)
    else o.misuse c ["invalid option -- '", [l], "'"]

/-- The option with a long name, which may be cut short. -/
def longOption (o : Options) (c : Call) (r : Raw) (next : Option Raw) :
    Work ((Char × Raw) × Bool) := do
  let name := r.takeWhile (· != '=')
  let value := r.drop (name.length + 1)
  let isGiven := name.length < r.length
  let exact := o.long.filter fun l => l.1.toList == name
  let found := if exact.isEmpty then o.long.filter fun l => name.isPrefixOf l.1.toList else exact
  let letters := (found.map (·.2.1)).eraseDups
  match found, letters with
  | (full, l, takes) :: _, [_] =>
    match takes with
    | some true =>
      if isGiven then pure ((l, value), false)
      else
        match next with
        | some v => pure ((l, v), true)
        | none => o.misuse c ["option '--", full, "' requires an argument"]
    | some false => pure ((l, value), false)
    | none =>
      if isGiven then o.misuse c ["option '--", full, "' doesn't allow an argument"]
      else pure ((l, []), false)
  | [], _ => o.misuse c ["unrecognized option '--", r, "'"]
  | _, _ =>
    o.misuse c ["option '--", r, "' is ambiguous; possibilities:",
      found.flatMap fun l => " '--".toList ++ l.1.toList ++ ['\x27']]

/-- Reads arguments; the first argument bounds their number. -/
def readFrom (o : Options) (c : Call) : Nat → List Raw → Work Arguments
  | 0, _ => pure ⟨[], []⟩
  | _, [] => pure ⟨[], []⟩
  | fuel + 1, a :: rest =>
    match a with
    | ['-', '-'] => pure ⟨[], rest⟩
    | '-' :: '-' :: name => do
      let (option, used) ← o.longOption c name rest.head?
      let others ← readFrom o c fuel (if used then rest.drop 1 else rest)
      pure { others with options := option :: others.options }
    | '-' :: l :: ls => do
      let (options, used) ← o.letters c (l :: ls) rest.head?
      let others ← readFrom o c fuel (if used then rest.drop 1 else rest)
      pure { others with options := options ++ others.options }
    | a =>
      if o.strict then pure ⟨[], a :: rest⟩
      else do
        let others ← readFrom o c fuel rest
        pure { others with operands := a :: others.operands }

/-- The options and the other arguments of a call. -/
def read (o : Options) (c : Call) : Work Arguments := o.readFrom c (c.arguments.length + 1) c.arguments

end Options

/-- Complains that arguments are missing. -/
def lacking {α : Type} (c : Call) (what : String) : Work α :=
  die [c.name, ": missing ", what, advice c]

/-- Complains about an argument that is too much. -/
def excess {α : Type} (c : Call) (operand : Raw) : Work α :=
  die [c.name, ": extra operand ", quote operand, advice c]

/-! ## Files -/

def files : Work FileSystem := return (← get).files

/-- Changes the files, and tells what went wrong. -/
def changeFiles (f : FileSystem → Change) : Work (Option Fault) := do
  let p ← get
  let change := f p.files
  set { p with files := change.files }
  pure change.fault

/-- The file that swallows everything and holds nothing. -/
def isVoid (r : Raw) : Bool := r == "/dev/null".toList

def contents (fs : FileSystem) (r : Raw) : Except Fault Raw :=
  if isVoid r then .ok []
  else if r == "/dev/zero".toList then .ok (List.replicate plenty '\x00')
  else (fs.read (pathOf r)).map raw

def writeFile (r contents : Raw) (fs : FileSystem) : Change :=
  if isVoid r then fs.done else fs.write (pathOf r) (bytes contents)

def readInput (c : Call) : Work Raw := do
  let used := (← get).used
  modify fun p => { p with used := c.input.length }
  pure (c.input.drop used)

/-- The contents of a file, or the input for a dash. -/
def readFile (c : Call) (r : Raw) : Work (Except Fault Raw) := do
  if r == ['-'] then return .ok (← readInput c)
  else return contents (← files) r

/-- The contents of files, one after the other, or the input if there are none.  `refuse` says what is
wrong with a file. -/
def gather (c : Call) (operands : List Raw) (refuse : Raw → Fault → Work Unit) : Work (List (Raw × Raw)) :=
  (if operands.isEmpty then [['-']] else operands).foldlM (fun found r => do
    match ← readFile c r with
    | .ok contents => pure (found ++ [(r, contents)])
    | .error f =>
      refuse r f
      pure found) []

/-- Complains about a file in the plainest way. -/
def refuseFile (c : Call) (r : Raw) (f : Fault) : Work Unit :=
  blame [c.name, ": ", quoteIfNeeded r, ": ", phrase f]

/-- The last name of a path. -/
def lastName (r : Raw) : Raw :=
  let trimmed := (r.reverse.dropWhile (· == '/')).reverse
  if trimmed.isEmpty then (if r.isEmpty then [] else ['/'])
  else (trimmed.reverse.takeWhile (· != '/')).reverse

def under (directory name : Raw) : Raw :=
  if directory.getLast? == some '/' then directory ++ name else directory ++ '/' :: name

/-- The place from the top of the tree of a file or link. -/
def placeOf (fs : FileSystem) (r : Raw) : Raw :=
  match fs.locate false (pathOf r) with
  | .ok (.found l _) => '/' :: ['/'].intercalate (l.map raw)
  | _ => r

/-- A whole number among the arguments, not negative. -/
def naturalOf (r : Raw) : Option Nat := if isNumber r then some (number r) else none

/-- The factor of a suffix of a size. -/
def sizeFactor : Raw → Option Nat
  | [] => some 1
  | ['b'] => some 512
  | ['K'] | ['k'] | ['K', 'i', 'B'] => some 1024
  | ['M'] | ['M', 'i', 'B'] => some (Nat.pow 1024 2)
  | ['G'] | ['G', 'i', 'B'] => some (Nat.pow 1024 3)
  | ['k', 'B'] | ['K', 'B'] => some 1000
  | ['M', 'B'] => some (Nat.pow 1000 2)
  | ['G', 'B'] => some (Nat.pow 1000 3)
  | _ => none

/-- A size among the arguments: a number, perhaps with a suffix. -/
def sizeOf (r : Raw) : Option Nat :=
  let ds := r.takeWhile Char.isDigit
  if ds.isEmpty then none else (sizeFactor (r.drop ds.length)).map fun f => number ds * f

end LiveUnits.Tool
