import LiveUnits.Shell.Declaration
import LiveUnits.Shell.Directory
import LiveUnits.Shell.Find
import LiveUnits.Shell.Launch

/-!
# Running commands

Commands run over the files until they end, until they have used up their time, or until a bound on the
depth of their evaluation is reached, which counts as using up all time there is.
-/

namespace LiveUnits.Shell

/-- Does something; what stops it is part of the result. -/
def attempt {α : Type} (body : Act α) : Act (Except Interrupt α) := fun st =>
  let (result, st) := body st
  (.ok result, st)

/-! ## Output of commands -/

/-- Waits for the jobs that could still write to an open file. -/
def waitForWriters (run : Runner) (handle : Nat) : Act Unit := do
  let st ← get
  let writers := st.jobs.filter fun j => j.ended.isNone && j.scope.streams.any (·.2 == handle)
  if !writers.isEmpty then waitFor run (writers.map (·.process)) jobBound

/-- What a command writes, without the line ends at the end. -/
def outputOf (run : Runner) (around : Around) (c : Command) : Act Raw := do
  match c with
  | .nothing => pure []
  | c =>
    let (h, st) := (← get).openHandle { medium := .record [] none, reads := false }
    let status := st.status
    set st
    let outcome ← inProcess run (·.point 1 h) (run.command { around with guarded := false } c)
    settle outcome
    waitForWriters run h
    modify fun st => { st with produced := st.status, status }
    let st ← get
    if st.jobs.all (·.ended.isSome) then set { st with handles := st.handles.take h }
    pure (dropLineEnds ((st.recorded h).filter (· != '\x00')))

/-! ## Commands of the shell -/

/-- The command `exit`. -/
def exitBuiltin (around : Around) (args : List Raw) : Act Nat := do
  match args, around.before with
  | r :: _, _ => done (← countOf r)
  | [], some n => done n
  | [], none => pure ()
  throw .ends

/-- The command `return`. -/
def returnBuiltin (args : List Raw) : Act Nat := do
  if let r :: _ := args then done (← countOf r)
  throw .returns

/-- The commands `break` and `continue`. -/
def leaveBuiltin (around : Around) (goesOn : Bool) (args : List Raw) : Act Nat := do
  let n ← match args with
    | [] => pure 1
    | r :: _ => countOf r
  if n = 0 then fail ["Illegal number: ", args.head?.getD []]
  let loops := min n around.loops
  if 0 < loops then
    done 0
    throw (.leaves loops goesOn)
  pure 0

/-- The exit code of what has just been carried out, if anything has. -/
def codeIf (ran : Bool) : Act Nat := do
  let st ← get
  pure (if ran then st.status else 0)

/-- The command `eval`. -/
def evalBuiltin (run : Runner) (around : Around) (args : List Raw) : Act Nat := do
  let script := [' '].intercalate args
  codeIf (← runSource run around (script.length + 1) false { rest := script })

/-- The path of a script that is to be read. -/
def scriptPath (name : Raw) : Act Raw := do
  let st ← get
  if name.contains '/' then pure name
  else
    match (st.searchPath.map (inDirectory · name)).find? fun path => st.kindAt? true path == some .regular with
    | some path => pure path
    | none => fail [name, ": not found"]

/-- The command `.`. -/
def readScriptBuiltin (run : Runner) (around : Around) (args : List Raw) : Act Nat := do
  let (_, operands) ← optionsOf "" args
  match operands with
  | [] => pure 0
  | name :: _ =>
    let path ← scriptPath name
    let st ← get
    match st.openFile .read path with
    | .error message => fail [message]
    | .ok (h, opened) =>
      let script := opened.readFrom h
      set { st with front := path }
      match ← attempt (runSource run { around with guarded := false } (script.length + 1) false { rest := script }) with
      | .ok ran => codeIf ran
      | .error .returns => codeIf true
      | .error e => throw e

/-- The command `exec`. -/
def execBuiltin (run : Runner) (args : List Raw) : Act Nat := do
  let (_, words) ← optionsOf "" args
  match words with
  | [] => pure 0
  | name :: args =>
    let st ← get
    match st.program st.searchPath name with
    | .ok (_, p) =>
      set { st with traps := st.traps.filter (·.2.isEmpty), front := [] }
      match ← attempt (run.program name p args) with
      | .error (.dies n) => throw (.dies n)
      | .error .expires => throw .expires
      | _ => throw .ends
    | .error refusal =>
      complain [name, ": ", refusal.text]
      done (if name.isEmpty then 126 else refusal.status)
      throw .ends

/-- The command `printf`. -/
def printfBuiltin (args : List Raw) : Act Nat := do
  let (_, operands) ← optionsOf "" args
  match operands with
  | [] => fail ["usage: printf format [arg ...]"]
  | format :: rest =>
    let p := Printed.ofFormat escape? format rest
    for x in p.complaints.reverse do complain [x.text]
    say p.text
    if let some x := p.fault then fail [x.text]
    pure p.status

/-- The command `test`. -/
def testBuiltin (name : Raw) (args : List Raw) : Act Nat := do
  if name == ['['] && args.getLast? != some [']'] then fail ["missing ]"]
  match Test.holds (← get) isKnown (if name == ['['] then args.dropLast else args) with
  | .ok answer => pure (if answer then 0 else 1)
  | .error message => fail [message]

/-- A command of the shell. -/
def builtin (run : Runner) (around : Around) (name : Raw) (args : List Raw) : Act Nat :=
  match name.string with
  | ":" | "true" | "jobs" => pure 0
  | "false" => pure 1
  | "." => readScriptBuiltin run around args
  | "[" | "test" => testBuiltin name args
  | "alias" => aliasBuiltin args
  | "bg" | "fg" => resumeBuiltin args
  | "break" => leaveBuiltin around false args
  | "cd" | "chdir" => cdBuiltin args
  | "command" => commandBuiltin args
  | "continue" => leaveBuiltin around true args
  | "echo" => do
    say (echoText args)
    pure 0
  | "eval" => evalBuiltin run around args
  | "exec" => execBuiltin run args
  | "exit" => exitBuiltin around args
  | "export" => exportBuiltin args
  | "getopts" => getoptsBuiltin args
  | "hash" => hashBuiltin args
  | "kill" => killBuiltin run args
  | "local" => localBuiltin args
  | "printf" => printfBuiltin args
  | "pwd" => pwdBuiltin args
  | "read" => readBuiltin args
  | "readonly" => readonlyBuiltin args
  | "return" => returnBuiltin args
  | "set" => setBuiltin args
  | "shift" => shiftBuiltin args
  | "times" => timesBuiltin args
  | "trap" => trapBuiltin args
  | "type" => typeBuiltin args
  | "ulimit" => ulimitBuiltin args
  | "umask" => umaskBuiltin args
  | "unalias" => unaliasBuiltin args
  | "unset" => unsetBuiltin args
  | "wait" => waitBuiltin run args
  | _ => pure 0

/-- Carries out a command of the shell.  Mistakes end the shell only if the command is special. -/
def runBuiltin (run : Runner) (around : Around) (isSpecial : Bool) (name : Raw) (args : List Raw) : Act Unit := do
  let front := (← get).front
  modify fun st => { st with front := name }
  let result ← attempt (builtin run around name args)
  let isWritten ← writeHeld
  if !isWritten then complain [name, ": I/O error"]
  modify fun st => { st with front }
  match result with
  | .ok status => done (if isWritten then status else max 1 status)
  | .error .fails => if isSpecial then throw .fails
  | .error e => throw e

/-! ## Functions and programs -/

/-- How many functions may be carried out within each other. -/
def functionDepth : Nat := 1000

/-- Carries out a function. -/
def runFunction (run : Runner) (around : Around) (body : Command) (args : List Raw) : Act Unit := do
  let st ← get
  if functionDepth ≤ st.depth then fail ["Maximum function recursion depth (1000) reached"]
  set { st with arguments := args, optionPlace := (1, none), depth := st.depth + 1 }
  let result ← attempt (run.command { around with loops := 0 } body)
  modify fun after =>
    { after with arguments := st.arguments, optionPlace := st.optionPlace, depth := st.depth }
  match result with
  | .ok () | .error .returns => pure ()
  | .error e => throw e

/-- Carries out a program in a process of its own. -/
def runProgramNamed (run : Runner) (directories : List Raw) (name : Raw) (args : List Raw) : Act Unit := do
  let st ← get
  match st.program directories name with
  | .ok (_, p) =>
    set (st.track name)
    settle (← inProcess run (fun st => { st with front := [] }) (run.program name p args))
    catchUp run
  | .error refusal =>
    complain [name, ": ", refusal.text]
    done (if name.contains '/' then refusal.status else 127)

/-! ## Simple commands -/

/-- A simple command whose words are known. -/
structure Call where
  /-- All words. -/
  shown : List Raw
  /-- The name and the arguments, without `command` and its options. -/
  words : List Raw
  /-- What the name stands for, if there is one. -/
  meaning : Option Meaning
  /-- Whether mistakes end the shell. -/
  isSpecial : Bool := false
  /-- Whether the program is looked for in the usual directories. -/
  isUsual : Bool := false

/-- The commands whose arguments may be assignments. -/
def declaring : List String := ["alias", "export", "local", "readonly"]

/-- Expands words until there are enough fields; the result is the fields and the words that are left. -/
def expandUntil (output : Command → Act Raw) (n : Nat) (fields : List Raw) :
    List Word → Act (List Raw × List Word)
  | [] => pure (fields, [])
  | w :: rest => do
    if n ≤ fields.length then pure (fields, w :: rest)
    else expandUntil output n (fields ++ (← expandFields output w)) rest

/-- Expands the words that are left; assignments stay whole on request. -/
def expandRest (output : Command → Act Raw) (declares : Bool) : List Word → Act (List Raw)
  | [] => pure []
  | w :: rest => do
    let here ← match if declares then Word.assignment? w else none with
      | some (name, value) => pure [name ++ '=' :: (← expandText output .value value)]
      | none => expandFields output w
    pure (here ++ (← expandRest output declares rest))

/-- The place of the command after `command` and its options, if it is to be carried out, and whether it is
looked for in the usual directories.  The first argument bounds the number of options. -/
def skipCommand (output : Command → Act Raw) :
    Nat → Nat → Bool → List Raw → List Word → Act (Option (Nat × Bool) × List Raw × List Word)
  | 0, _, _, fields, rest => pure (none, fields, rest)
  | fuel + 1, i, isUsual, fields, rest => do
    let (fields, rest) ← expandUntil output (i + 1) fields rest
    match fields[i]? with
    | none => pure (none, fields, rest)
    | some ['-', '-'] =>
      let (fields, rest) ← expandUntil output (i + 2) fields rest
      pure (if i + 1 < fields.length then some (i + 1, isUsual) else none, fields, rest)
    | some ('-' :: l :: ls) =>
      if (l :: ls).all (· == 'p') then skipCommand output fuel (i + 1) true fields rest
      else pure (none, fields, rest)
    | some _ => pure (some (i, isUsual), fields, rest)

/-- Finds out what is to be carried out, and expands the words.  The first argument bounds how often
`command` may stand in front. -/
def resolve (output : Command → Act Raw) :
    Nat → Nat → Option Bool → Bool → List Raw → List Word → Act Call
  | 0, _, _, _, fields, _ => pure { shown := fields, words := [], meaning := none }
  | fuel + 1, i, special, isUsual, fields, rest => do
    let (fields, rest) ← expandUntil output (i + 1) fields rest
    match fields[i]? with
    | none => pure { shown := fields, words := [], meaning := none }
    | some name =>
      let meaning := (← get).meaning special.isNone name
      let isSpecial := special.getD (match meaning with
        | .builtin isSpecial => isSpecial
        | _ => false)
      let complete (fields : List Raw) (rest : List Word) : Act Call := do
        let declares := match meaning with
          | .builtin _ => declaring.contains name.string
          | _ => false
        let shown := fields ++ (← expandRest output declares rest)
        pure { shown, words := shown.drop i, meaning := some meaning, isSpecial, isUsual }
      match meaning with
      | .builtin _ =>
        if name == ("command" : Raw) then
          match ← skipCommand output (rest.length + fields.length + 2) (i + 1) isUsual fields rest with
          | (some (next, isUsual), fields, rest) =>
            resolve output fuel next (some isSpecial) isUsual fields rest
          | (none, fields, rest) => complete fields rest
        else complete fields rest
      | _ => complete fields rest

/-- Makes assignments, which may last as long as the command only; the result is their texts. -/
def makeAssignments (output : Command → Act Raw) (lasts exports : Bool) :
    List (Raw × Word) → Act (List Raw)
  | [] => pure []
  | (name, w) :: rest => do
    let value ← expandText output .value w
    if !lasts then saveVariable name
    assign name value
    if exports then modify fun st => st.setVariable name ((st.known? name).map fun v => { v with exported := true })
    let others ← makeAssignments output lasts exports rest
    pure ((name ++ '=' :: value) :: others)

/-- Shows a command before it is carried out, where errors went before its redirections. -/
def trace (before : List (Nat × Nat)) (texts : List Raw) : Act Unit := do
  let st ← get
  if st.has 'x' then
    if let some h := before.lookup 2 then
      set (st.writeTo h (line [(st.get? "PS4").getD [], [' '].intercalate texts]))

/-- Carries out a command whose words are known. -/
def invoke (run : Runner) (around : Around) (call : Call) : Act Unit := do
  match call.words, call.meaning with
  | name :: args, some (.builtin _) => runBuiltin run around call.isSpecial name args
  | _ :: args, some (.function body) => runFunction run around body args
  | name :: args, some .program =>
    let st ← get
    runProgramNamed run (if call.isUsual then splitOn ':' usualPath else st.searchPath) name args
  | _, _ => done (← get).produced

/-- How long a command of the shell takes, in nanoseconds. -/
def commandTime : Nat := 10000

/-- Carries out a simple command. -/
def runSimple (run : Runner) (around : Around) (assignments : List (Raw × Word)) (words : List Word)
    (redirects : List (Redirect Word)) : Act Unit := do
  let output := outputOf run around
  let call ← resolve output (words.length + 1) 0 none false [] words
  let isExec := call.words.head? == some ("exec" : Raw) && (match call.meaning with
    | some (.builtin _) => true
    | _ => false)
  let lasts := call.meaning.isNone || call.isSpecial
  let body : Act Unit := do
    let targets ← expandTargets output redirects
    let before := (← get).streams
    if ← redirect targets then
      thenAlways (do
        let made ← makeAssignments output lasts (!lasts || (isExec && 1 < call.words.length)) assignments
        trace before (made ++ call.shown)
        invoke run around call)
        fun st => if isExec then st else st.restoreStreams targets before
    else if call.isSpecial then throw .fails
  if lasts then body else withFrame body
  delay commandTime

/-! ## Pipelines -/

/-- Carries out the commands of a pipeline, each of which reads what the one before it has written; `input`
is that.  All of them begin at the same time, and the last of them ends last. -/
def runPipeline (run : Runner) (around : Around) (start : Nat) : Option Raw → List Command → Act Unit
  | _, [] => pure ()
  | input, c :: rest => do
    let st ← get
    let last := st.elapsed
    let (out, st) := st.openHandle { medium := .record [] (some plenty), reads := false }
    let (source, st) := st.openHandle { medium := .text (input.getD []), writes := false }
    set { st with elapsed := start }
    let change (st : State) : State :=
      let st := if input.isSome then st.point 0 source else st
      if rest.isEmpty then st else st.point 1 out
    let outcome ← inProcess run change (run.command around c)
    settle outcome
    if !rest.isEmpty then waitForWriters run out
    modify fun st => { st with elapsed := max last st.elapsed }
    if !rest.isEmpty then runPipeline run around start (some ((← get).recorded out)) rest

/-! ## Loops -/

/-- What becomes of a loop. -/
inductive Turn where
  | next
  /-- It ends. -/
  | over
  /-- Something else ends as well. -/
  | stop (why : Interrupt)

/-- What becomes of a loop when a command in it is done. -/
def turnOf : Except Interrupt Unit → Turn
  | .ok () => .next
  | .error (.leaves 0 _) => .next
  | .error (.leaves 1 true) => .next
  | .error (.leaves 1 false) => .over
  | .error (.leaves (n + 2) goesOn) => .stop (.leaves (n + 1) goesOn)
  | .error e => .stop e

/-- How often a loop may be repeated. -/
def loopBound : Nat := Nat.pow 2 60

/-- Repeats a command as long as a condition holds, or fails.  The first argument bounds the number of
times, `status` is the exit code of the last time. -/
def repeatWhile (run : Runner) (around : Around) (whileTrue : Bool) (condition body : Command) :
    Nat → Nat → State → Except Interrupt Unit × State
  | 0, _, st => (.error .expires, st)
  | fuel + 1, status, st =>
    let inside := { around with loops := around.loops + 1 }
    let (result, st) := run.command { inside with guarded := true } condition st
    match result with
    | .ok () =>
      if (st.status == 0) == whileTrue then
        let (result, st) := run.command inside body st
        match turnOf result with
        | .next => repeatWhile run around whileTrue condition body fuel st.status st
        | .over => (.ok (), st)
        | .stop e => (.error e, st)
      else (.ok (), { st with status })
    | result =>
      match turnOf result with
      | .next => repeatWhile run around whileTrue condition body fuel status st
      | .over => (.ok (), { st with status })
      | .stop e => (.error e, st)

/-- Carries out a command for every value of a variable. -/
def repeatEach (run : Runner) (around : Around) (name : Raw) (body : Command) :
    List Raw → State → Except Interrupt Unit × State
  | [], st => (.ok (), st)
  | value :: rest, st =>
    match assign name value st with
    | (.error e, st) => (.error e, st)
    | (.ok (), st) =>
      let (result, st) := run.command { around with loops := around.loops + 1 } body st
      match turnOf result with
      | .next => repeatEach run around name body rest st
      | .over => (.ok (), st)
      | .stop e => (.error e, st)

/-! ## Choices -/

/-- Whether any of some patterns matches a text. -/
def matchesAny (output : Command → Act Raw) (text : Raw) : List Word → Act Bool
  | [] => pure false
  | w :: rest => do
    let p ← expandPattern output w
    if p.matchesAll text then pure true else matchesAny output text rest

/-- Carries out the first arm of which a pattern matches. -/
def runArm (run : Runner) (around : Around) (text : Raw) : List (List Word × Command) → Act Unit
  | [] => done 0
  | (patterns, body) :: rest => do
    if ← matchesAny (outputOf run around) text patterns then
      match body with
      | .nothing => done 0
      | body => run.command around body
    else runArm run around text rest

/-! ## Commands -/

/-- Ends the shell after a failure that nobody looks at, if the shell is told to. -/
def checkStatus (around : Around) : Act Unit := do
  let st ← get
  if st.has 'e' && !around.guarded && st.status != 0 then throw .ends

/-- Expands words into fields. -/
def expandWords (output : Command → Act Raw) : List Word → Act (List Raw)
  | [] => pure []
  | w :: rest => do
    let here ← expandFields output w
    pure (here ++ (← expandWords output rest))

/-- Notes the line of the script. -/
def atLine (line : Nat) : Act Unit := modify fun st => { st with line }

/-- Carries out a command, apart from what is to be done around every command. -/
def runOne (run : Runner) (around : Around) (c : Command) : Act Unit := do
  let output := outputOf run around
  let guarded : Around := { around with guarded := true }
  match c with
  | .nothing => pure ()
  | .simple line assignments words redirects =>
    modify fun st => { st with line, produced := 0 }
    runSimple run around assignments words redirects
    checkStatus around
  | .pipeline commands =>
    runPipeline run around (← get).elapsed none commands
    checkStatus around
  | .negate c =>
    run.command guarded c
    let st ← get
    done (if st.status = 0 then 1 else 0)
  | .andThen first second =>
    run.command guarded first
    if (← get).status = 0 then run.command around second
  | .orElse first second =>
    run.command guarded first
    if (← get).status != 0 then run.command around second
  | .sequence first second =>
    run.command around first
    run.command around second
  | .background c => beginJob c
  | .branch condition yes no =>
    run.command guarded condition
    if (← get).status = 0 then run.command around yes
    else
      match no with
      | .nothing => done 0
      | no => run.command around no
  | .loop whileTrue condition body => repeatWhile run around whileTrue condition body loopBound 0
  | .each line name words body =>
    atLine line
    let values ← expandWords output words
    done 0
    repeatEach run around name body values
  | .choose line subject arms =>
    atLine line
    let text ← expandText output .text subject
    runArm run around text arms
  | .group line body redirects =>
    if redirects.isEmpty then run.command around body
    else
      atLine line
      let targets ← expandTargets output redirects
      let _ ← redirected targets (run.command around body)
  | .subshell line body redirects =>
    atLine line
    let targets ← expandTargets output redirects
    let inside : Act Unit := do
      if ← redirect targets then run.command around body else throw .fails
    settle (← inProcess run id inside)
    checkStatus around
  | .define name body =>
    modify fun st => { st with functions := (name, body) :: st.functions.filter (·.1 != name) }
    done 0

/-- Carries out a command. -/
def runCommand (run : Runner) (around : Around) (c : Command) : Act Unit := do
  receive run
  if !(← get).has 'n' then
    runOne run around c
    receive run

/-! ## Programs -/

/-- Carries out a program, which takes the process over. -/
def launch (run : Runner) (name : Raw) (p : Program) (args : List Raw) : Act Unit := do
  match p with
  | .file path => runFile run path args
  | .known known =>
    match known.string with
    | "sh" | "dash" => runShell run name args
    | "env" => runEnv run name args
    | "find" => runFind run name args
    | "kill" => runBuiltin run {} false name args
    | "nice" => runNice run name args
    | "nohup" => runNohup run name args
    | "test" | "[" => runTest known args
    | "timeout" => runTimeout run name args
    | "which" => runWhich args
    | "xargs" => runXargs run name args
    | s =>
      match Tool.catalogue.lookup s with
      | some t => runTool name t args
      | none => done 127
  let _ ← writeHeld

/-- How commands and programs are carried out, down to some depth. -/
def runner : Nat → Runner
  | 0 => default
  | depth + 1 =>
    { command := fun around c => runCommand (runner depth) around c
      program := fun name p args => launch (runner depth) name p args }

/-- How deep the evaluation of a program goes. -/
def depthLimit : Nat := 5000

/-- What came of running a program. -/
structure Ending where
  /-- How it ended, unless its time was up before. -/
  status : Option ExitStatus
  /-- What it wrote as output. -/
  out : Bytes
  /-- What it wrote as errors. -/
  err : Bytes
  files : FileSystem

/-- The state in which a program begins. -/
def State.initial (fs : FileSystem) (limit : Option Nat) : State :=
  let directory := '/' :: ['/'].intercalate (fs.cwd.map raw)
  let exported (name : String) (value : Raw) : Raw × Variable :=
    (name.toList, { value := some value, exported := true })
  let scope : Scope :=
    { directory, streams := [(0, 0), (1, 1), (2, 2)], name := "sh", self := 2, process := 2, parent := 1
      arguments := []
      bindings := [exported "PWD" directory, exported "PATH" usualPath, exported "HOME" "/root"] }
  let record : Handle := { medium := .record [] none, reads := false }
  { toScope := scope, files := fs, handles := #[{ medium := .void }, record, record], nextProcess := 3, limit }

/-- The program that can be started under a name, if there is one. -/
def programNamed? (fs : FileSystem) (name : Raw) : Option Program :=
  ((State.initial fs none).program (splitOn ':' usualPath) name).toOption.map (·.2)

/-- Runs a program that exists, for at most `limit` nanoseconds. -/
def runProgram (fs : FileSystem) (limit : Option Nat) (name : Raw) (p : Program) (args : List Raw) : Ending :=
  let run := runner depthLimit
  let (outcome, st) := concluded run (run.program name p args) (State.initial fs limit)
  let (_, after) := drain run { st with limit := none }
  { status := match outcome with
      | .code n => some (.code n)
      | .signal n => some (.signal n)
      | .expired => none
    out := bytes (after.recorded 1)
    err := bytes (after.recorded 2)
    files := { after.files with cwd := fs.cwd } }

end LiveUnits.Shell
