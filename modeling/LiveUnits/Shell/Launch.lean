import LiveUnits.Shell.Process
import LiveUnits.Shell.Redirection

/-!
# Programs

A program takes over the process in which it is carried out.  Tools do their work at once; some programs
start others, among them the shell itself, and a file may name the program that reads it.
-/

namespace LiveUnits.Shell

/-! ## Tools -/

/-- How long it takes to start a program, in nanoseconds. -/
def startTime : Nat := 500000

/-- Writes what a tool has written, in order; answers whether all of it could be written. -/
def writeAll : List (Bool × Raw) → Act Bool
  | [] => pure true
  | (isError, r) :: rest => do
    let st ← get
    let stream := if isError then 2 else 1
    let isWritten := r.isEmpty || st.accepts stream
    if isWritten then set (st.writeStream stream r)
    if !isError && (← get).isBroken 1 then throw (.dies 13)
    let others ← writeAll rest
    pure ((isError || isWritten) && others)

/-- Carries out a tool. -/
def runTool (name : Raw) (t : Tool.Program) (arguments : List Raw) : Act Unit := do
  let st ← get
  let canSeek := match (st.handle? 0).bind (st.handles[·]?) with
    | some { medium := .file _, .. } => true
    | _ => false
  let p := Tool.run t { name, arguments, input := st.inputOf 0, canSeek, environment := st.environment }
    { files := st.files, modes := st.modes }
  let st := { st with files := p.files, modes := p.modes }
  set (if p.used = 0 then st else st.consumeInput 0 p.used)
  let isWritten ← writeAll p.written.reverse
  if p.endless then throw .expires
  delay (p.elapsed + startTime)
  if let some signal := p.signal then throw (.dies signal)
  if isWritten then done p.status
  else
    warn (line [name, ": write error: Bad file descriptor"])
    done (max 1 p.status)

/-- The options and other arguments of a program, unless something is wrong with them. -/
def argumentsOf (o : Tool.Options) (name : Raw) (arguments : List Raw) : Act (Option Tool.Arguments) := do
  let st ← get
  let (result, p) := o.read { name, arguments } { files := st.files }
  let _ ← writeAll p.written.reverse
  match result with
  | .ok a => pure (some a)
  | .error _ =>
    done p.status
    pure none

/-! ## The shell -/

/-- The variables that every shell has. -/
def ownVariables : List (Raw × Raw) :=
  [("IFS", blanks), ("OPTIND", ['1']), ("PS1", "# "), ("PS2", "> "), ("PS4", "+ ")]

/-- The state in which a shell with some name begins. -/
def State.renewed (name : Raw) (st : State) : State :=
  let known := st.bindings.filter fun v => v.2.exported && (ownVariables.lookup v.1).isNone
  let own := ("PPID".toList, digits st.parent) :: ownVariables
  let scope : Scope :=
    { directory := st.directory, streams := st.streams, name, self := st.self, process := st.self
      parent := st.parent, arguments := [], traps := st.traps, mask := st.mask, line := 0
      bindings := (own.map fun (name, value) => (name, { value := some value })) ++
        known.map fun (name, v) => (name, { v with fixed := false }) }
  { st with toScope := scope }

/-- The script that a shell reads, given by arguments after its options, with the name of the shell and
the arguments of the script. -/
def scriptOf (isGiven : Bool) (operands : List Raw) : Act (Raw × Raw × List Raw) := do
  let st ← get
  let fromInput (arguments : List Raw) : Act (Raw × Raw × List Raw) := do
    let script := st.inputOf 0
    set (st.consumeInput 0 script.length)
    modify (·.setOption true 's')
    pure (script, st.name, arguments)
  match operands with
  | [] => if isGiven then fail ["-c requires an argument"] else fromInput []
  | first :: rest =>
    if isGiven then pure (first, rest.head?.getD st.name, rest.drop 1)
    else if st.has 's' then fromInput operands
    else
      match st.openFile .read first with
      | .error message => fail [message]
      | .ok (h, opened) => pure (opened.readFrom h, first, rest)

/-- Carries out the shell. -/
def runShell (run : Runner) (name : Raw) (args : List Raw) : Act Unit := do
  modify (State.renewed name)
  let (operands, isGiven) ← switchOptions true (args.length + 1) args
  let (script, name, arguments) ← scriptOf isGiven operands
  modify fun st => { st with name, arguments, line := 1 }
  let _ ← runSource run {} (script.length + 1) false { rest := script }

/-! ## Files -/

/-- The program that a file names to read it, perhaps with an argument. -/
def interpreter? (contents : Raw) : Option (Raw × List Raw) :=
  match contents with
  | '#' :: '!' :: rest =>
    let l := (rest.takeWhile (· != '\n')).dropWhile blanks.contains
    let name := l.takeWhile fun c => !blanks.contains c
    let argument := strip blanks.contains (l.drop name.length)
    if name.isEmpty then none else some (name, if argument.isEmpty then [] else [argument])
  | _ => none

/-- Carries out a file. -/
def runFile (run : Runner) (path : Raw) (args : List Raw) : Act Unit := do
  let st ← get
  match interpreter? ((st.contents? (st.placeOf path)).getD []) with
  | none => runShell run "/bin/sh" (path :: args)
  | some (name, more) =>
    match st.programAt name with
    | .ok p => run.program name p (more ++ path :: args)
    | .error refusal =>
      complain [path, ": ", refusal.text]
      done refusal.status

/-! ## Programs that start programs -/

/-- Carries out a program found by its name; `blame` says what is wrong if there is none. -/
def execute (run : Runner) (blame : Raw → Raw → List Raw) (words : List Raw) : Act Unit := do
  match words with
  | [] => pure ()
  | name :: args =>
    let st ← get
    match st.program st.searchPath name with
    | .ok (_, p) => run.program name p args
    | .error refusal =>
      let reason : Raw := match refusal with
        | .missing => "No such file or directory"
        | .denied => "Permission denied"
      warn (line (blame name reason))
      done refusal.status

/-- Complains about a command that a program cannot start. -/
def failedToRun (front name reason : Raw) : List Raw :=
  [front, ": failed to run command ", Tool.quote name, ": ", reason]

/-- The program `env`. -/
def runEnv (run : Runner) (name : Raw) (args : List Raw) : Act Unit := do
  let options : Tool.Options :=
    { plain := "iv0", valued := "uCS", strict := true, code := 125
      long := [("ignore-environment", 'i', none), ("null", '0', none), ("unset", 'u', some true),
        ("chdir", 'C', some true)] }
  match ← argumentsOf options name args with
  | none => pure ()
  | some a =>
    let isBare := a.operands.head? == some ['-']
    if a.has 'i' || isBare then modify fun st => { st with bindings := st.bindings.filter (!·.2.exported) }
    for r in a.all 'u' do modify (·.setVariable r none)
    let operands := if isBare then a.operands.drop 1 else a.operands
    let given := operands.takeWhile (·.contains '=')
    for r in given do
      let key := r.takeWhile (· != '=')
      let value := some (r.drop (key.length + 1))
      modify (·.setVariable key (some { value, exported := true }))
    match operands.drop given.length with
    | [] =>
      for (key, value) in (← get).environment do say (line [key, "=", value])
      done 0
    | words => execute run (fun r reason => [name, ": ", Tool.quote r, ": ", reason]) words

/-- The program `timeout`. -/
def runTimeout (run : Runner) (name : Raw) (args : List Raw) : Act Unit := do
  let options : Tool.Options :=
    { plain := "fpv", valued := "sk", strict := true, code := 125
      long := [("foreground", 'f', none), ("preserve-status", 'p', none), ("verbose", 'v', none),
        ("signal", 's', some true), ("kill-after", 'k', some true)] }
  match ← argumentsOf options name args with
  | none => pure ()
  | some a =>
    match a.operands with
    | [] | [_] =>
      warn (line [name, ": missing operand", Tool.advice { name, arguments := args }])
      done 125
    | limit :: words =>
      match Tool.interval? limit with
      | none =>
        warn (line [name, ": invalid time interval ", Tool.quote limit, Tool.advice { name, arguments := args }])
        done 125
      | some n =>
        let st ← get
        let last := st.elapsed + n
        let isNearer := n != 0 && !isUp st.limit last
        let change (st : State) : State := if isNearer then { st with limit := some last } else st
        let outcome ← inProcess run change (execute run (failedToRun name) words)
        modify fun after => { after with limit := st.limit }
        match outcome with
        | .code n => done n
        | .signal n => done (128 + n)
        | .expired =>
          if !isNearer then throw .expires
          modify fun after => { after with elapsed := last }
          let signal := ((a.last? 's').bind (Signal.ofText? 1)).getD 15
          if signal = 9 then throw (.dies 9)
          done (if a.has 'p' then 128 + signal else 124)

/-- The program `nohup`. -/
def runNohup (run : Runner) (name : Raw) (args : List Raw) : Act Unit := do
  match ← argumentsOf { strict := true, code := 125 } name args with
  | none => pure ()
  | some a =>
    if a.operands.isEmpty then
      warn (line [name, ": missing operand", Tool.advice { name, arguments := args }])
      done 125
    else execute run (failedToRun name) a.operands

/-- The program `nice`. -/
def runNice (run : Runner) (name : Raw) (args : List Raw) : Act Unit := do
  match ← argumentsOf { valued := "n", strict := true, code := 125, long := [("adjustment", 'n', some true)] }
      name args with
  | none => pure ()
  | some a =>
    if a.operands.isEmpty then
      say "0\n"
      done 0
    else execute run (fun r reason => [name, ": ", Tool.quote r, ": ", reason]) a.operands

/-- The program `which`. -/
def runWhich (args : List Raw) : Act Unit := do
  let st ← get
  let mut status := 0
  for name in args do
    if name.head? != some '-' then
      match st.program st.searchPath name with
      | .ok (path, _) => say (line [path])
      | .error _ => status := 1
  done status

/-- The program `test`. -/
def runTest (name : Raw) (args : List Raw) : Act Unit := do
  if name == ['['] && args.getLast? != some [']'] then
    warn "[: missing ']'\n"
    done 2
  else
    match Test.holds (← get) isKnown (if name == ['['] then args.dropLast else args) with
    | .ok answer => done (if answer then 0 else 1)
    | .error message =>
      warn (line [name, ": ", message])
      done 2

/-! ## Arguments from the input -/

/-- The words of a text, in the way of `xargs`: divided by blanks, with quotation marks and backslashes.
The last argument is the word that has been begun, its last character first. -/
def wordsOf (quote : Option Char) : Raw → Option Raw → List Raw
  | [], word => (word.map List.reverse).toList
  | '\\' :: c :: rest, word =>
    if quote.isSome then wordsOf quote (c :: rest) (some ('\\' :: word.getD []))
    else wordsOf none rest (some (c :: word.getD []))
  | c :: rest, word =>
    if quote == some c then wordsOf none rest (some (word.getD []))
    else if quote.isNone && (c == '"' || c == '\x27') then wordsOf (some c) rest (some (word.getD []))
    else if quote.isNone && blanks.contains c then (word.map List.reverse).toList ++ wordsOf none rest none
    else wordsOf quote rest (some (c :: word.getD []))

/-- Cuts a list into pieces of some length; the first argument bounds their number. -/
def pieces {α : Type} (size : Nat) : Nat → List α → List (List α)
  | 0, _ => []
  | _, [] => []
  | fuel + 1, xs => xs.take size :: pieces size fuel (xs.drop size)

/-- Carries out commands one after the other, and collects their exit codes in the way of `xargs`. -/
def runCommands (run : Runner) (name : Raw) (shows : Bool) : List (List Raw) → Nat → Act Unit
  | [], status => done status
  | words :: rest, status => do
    if shows then warn (line [[' '].intercalate (words.map Tool.quoteIfNeeded)])
    let quiet (st : State) : State :=
      let (void, st) := st.openHandle { medium := .void }
      st.point 0 void
    let program := words.head?.getD []
    let blame (r reason : Raw) : List Raw := [name, ": ", r, ": ", reason]
    match ← inProcess run quiet (execute run blame words) with
    | .expired => throw .expires
    | .signal n =>
      warn (line [name, ": ", program, ": terminated by signal ", digits n])
      done 125
    | .code 0 => runCommands run name shows rest status
    | .code 126 => done 126
    | .code 127 => done 127
    | .code 255 =>
      warn (line [name, ": ", program, ": exited with status 255; aborting"])
      done 124
    | .code _ => runCommands run name shows rest 123

/-- The program `xargs`. -/
def runXargs (run : Runner) (name : Raw) (args : List Raw) : Act Unit := do
  let options : Tool.Options :=
    { plain := "0rtxp", valued := "aEIdLnPs", strict := true
      long := [("null", '0', none), ("no-run-if-empty", 'r', none), ("verbose", 't', none),
        ("max-args", 'n', some true), ("max-procs", 'P', some true), ("delimiter", 'd', some true),
        ("max-lines", 'L', some true), ("replace", 'I', some true), ("arg-file", 'a', some true)] }
  match ← argumentsOf options name args with
  | none => pure ()
  | some a =>
    let st ← get
    let input := match a.last? 'a' with
      | some file => (st.contents? (st.placeOf file)).getD []
      | none => st.inputOf 0
    if (a.last? 'a').isNone then set (st.consumeInput 0 input.length)
    let words := if a.operands.isEmpty then ["echo".toList] else a.operands
    let dividedBy (c : Char) : List Raw :=
      let all := splitOn c input
      if all.getLast? == some [] then all.dropLast else all
    let delimiter := ((a.last? 'd').bind fun r => if r == ['\\', 'n'] then some '\n' else r.head?)
    match a.last? 'I' with
    | some mark =>
      let items := ((lines input).map fun l => l.dropWhile fun c => c == ' ' || c == '\t').filter (!·.isEmpty)
      runCommands run name (a.has 't') (items.map fun item => words.map (substitute mark item)) 0
    | none =>
      let items := if a.has '0' then dividedBy '\x00' else match delimiter with
        | some c => dividedBy c
        | none => wordsOf none input none
      let size := ((a.last? 'n').bind Tool.naturalOf).getD (items.length + 1)
      let groups := match (a.last? 'L').bind Tool.naturalOf with
        | some n => (pieces n (input.length + 1) (lines input)).map fun ls => wordsOf none (unlines ls) none
        | none => pieces (max size 1) (items.length + 1) items
      let groups := if groups.isEmpty && !a.has 'r' then [[]] else groups
      runCommands run name (a.has 't') (groups.map fun group => words ++ group) 0

end LiveUnits.Shell
