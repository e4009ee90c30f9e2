import LiveUnits.Compiler.Basic
import LiveUnits.FileSystem.Change
import LiveUnits.Shell.Field
import LiveUnits.Shell.Grammar
import LiveUnits.Shell.Numeral

/-!
# The state of the shell

What commands act on: files, variables, functions and streams.  A stream is a number for an open file;
several streams may share one, and with it the place in the file where reading and writing goes on.
What a program writes as output and as errors is collected, and so is what one command writes for
another one.
-/

namespace LiveUnits.Shell

/-! ## Open files -/

/-- What an open file stands for. -/
inductive Medium where
  /-- What is written is collected, the newest piece first, as long as there is room for it. -/
  | record (written : List Raw) (room : Option Nat)
  /-- A file, by its place from the top of the tree. -/
  | file (place : Raw)
  /-- A text that can be read. -/
  | text (left : Raw)
  /-- The file that swallows everything and holds nothing. -/
  | void
  /-- The file that holds zeros without end. -/
  | zeros

/-- An open file. -/
structure Handle where
  /-- What it stands for. -/
  medium : Medium
  /-- Where reading and writing goes on. -/
  offset : Nat := 0
  /-- Whether writing always goes to the end. -/
  appends : Bool := false
  /-- Whether it was opened for reading. -/
  reads : Bool := true
  /-- Whether it was opened for writing. -/
  writes : Bool := true

/-! ## Variables -/

/-- What is known of a variable. -/
structure Variable where
  value : Option Raw
  /-- Whether programs get to know it. -/
  exported : Bool := false
  /-- Whether it keeps its value. -/
  fixed : Bool := false

/-- What comes back when a function or a command is done. -/
inductive Saved where
  /-- What was known of a variable, if anything. -/
  | variable (name : Raw) (before : Option Variable)
  | options (letters : List Char)

/-! ## Processes -/

/-- What a process of the shell has of its own. -/
structure Scope where
  /-- The working directory, as it was reached. -/
  directory : Raw
  /-- The streams and their open files, the newest first. -/
  streams : List (Nat × Nat)
  name : Raw
  /-- What messages begin with, after the line. -/
  front : Raw := []
  /-- The number of the process. -/
  self : Nat
  /-- The number of the process that reads the script. -/
  process : Nat
  /-- The number of the process that ran it. -/
  parent : Nat
  /-- The arguments of the script or the function. -/
  arguments : List Raw
  /-- The argument that `getopts` looks at next, and the place in the one before it. -/
  optionPlace : Nat × Option Nat := (1, none)
  bindings : List (Raw × Variable) := []
  /-- What comes back when the functions and commands that run are done, the innermost first. -/
  saved : List (List Saved) := []
  /-- The functions, the newest first. -/
  functions : List (Raw × Command) := []
  aliases : List (Raw × Raw) := []
  /-- The programs that have been looked up. -/
  found : List Raw := []
  /-- What is to be done when signals come; signal zero is the end. -/
  traps : List (Nat × Raw) := []
  /-- The letters of the options that are on. -/
  options : List Char := []
  /-- The permissions that new files do not get. -/
  mask : Nat := 18
  /-- The line of the script that is carried out. -/
  line : Nat := 1
  /-- The exit code of the last command. -/
  status : Nat := 0
  /-- The exit code of the last command whose output became part of a word. -/
  produced : Nat := 0
  /-- The last process that nobody waits for. -/
  background : Option Nat := none
  /-- How many functions are being carried out. -/
  depth : Nat := 0
  /-- What a command of the shell is going to write, the last piece first. -/
  held : List Raw := []
  /-- The line up to which the script has been read. -/
  reached : Nat := 1

/-- A command that goes on while others are carried out. -/
structure Job where
  process : Nat
  /-- The process that began it. -/
  owner : Nat
  /-- What is carried out. -/
  body : Command
  /-- What the process has of its own at the beginning. -/
  scope : Scope
  /-- Where it begins to look for files. -/
  home : Location
  /-- When it begins. -/
  start : Nat
  /-- The exit code and the time of its end, if it has ended. -/
  ended : Option (Nat × Nat) := none

/-- What commands act on. -/
structure State extends Scope where
  files : FileSystem
  /-- The permissions of files that have been chosen, by place. -/
  modes : List (Raw × Nat) := []
  /-- The open files. -/
  handles : Array Handle
  /-- The number of the next process. -/
  nextProcess : Nat
  /-- The nanoseconds that went by. -/
  elapsed : Nat := 0
  /-- How many nanoseconds there are. -/
  limit : Option Nat := none
  /-- The commands that go on by themselves, in the order in which they began. -/
  jobs : List Job := []
  /-- The signals that have been sent and not received, the oldest first, each with its process. -/
  signals : List (Nat × Nat) := []

/-- What stops a command before its end. -/
inductive Interrupt where
  /-- Some loops around it are left; with `goesOn`, the outermost of these goes on. -/
  | leaves (loops : Nat) (goesOn : Bool)
  /-- The function or script around it is done. -/
  | returns
  | ends
  /-- The shell made a mistake that has been reported. -/
  | fails
  /-- The shell ends by a signal. -/
  | dies (signal : Nat)
  /-- Time is up. -/
  | expires

/-- Something that acts on the state and may be stopped. -/
abbrev Act := ExceptT Interrupt (StateM State)

/-- What is around a command. -/
structure Around where
  /-- Whether somebody looks at its exit code. -/
  guarded : Bool := false
  loops : Nat := 0
  /-- The exit code before a signal came, if the command is carried out for that. -/
  before : Option Nat := none

/-! ## Reading and writing -/

namespace State

/-- A file at a place, for reading. -/
def contents? (st : State) (place : Raw) : Option Raw :=
  ((st.files.read (pathOf place)).toOption).map raw

/-- Writes to an open file. -/
def writeTo (st : State) (handle : Nat) (r : Raw) : State :=
  match st.handles[handle]? with
  | none => st
  | some h =>
    if !h.writes then st else
    match h.medium with
    | .record written room =>
      let fitting := match room with
        | some n => r.take n
        | none => r
      { st with
        handles := st.handles.modify handle fun h =>
          { h with medium := .record (fitting :: written) (room.map (· - r.length)) } }
    | .file place =>
      match st.contents? place with
      | none => st
      | some before =>
        let offset := if h.appends then before.length else h.offset
        let gap := List.replicate (offset - before.length) '\x00'
        let after := before.take offset ++ gap ++ r ++ before.drop (offset + r.length)
        { st with
          files := (st.files.write (pathOf place) (bytes after)).files
          handles := st.handles.modify handle fun h => { h with offset := offset + r.length } }
    | _ => st

/-- What can be read from an open file. -/
def readFrom (st : State) (handle : Nat) : Raw :=
  match st.handles[handle]? with
  | some { medium := .file place, offset, reads := true, .. } => ((st.contents? place).getD []).drop offset
  | some { medium := .text left, .. } => left
  | some { medium := .zeros, .. } => List.replicate plenty '\x00'
  | _ => []

/-- Takes some characters away from what can be read from an open file. -/
def consume (st : State) (handle n : Nat) : State :=
  { st with
    handles := st.handles.modify handle fun h =>
      match h.medium with
      | .text left => { h with medium := .text (left.drop n) }
      | _ => { h with offset := h.offset + n } }

/-- The open file of a stream. -/
def handle? (st : State) (stream : Nat) : Option Nat := st.streams.lookup stream

/-- What has been collected by an open file. -/
def recorded (st : State) (handle : Nat) : Raw :=
  match st.handles[handle]? with
  | some { medium := .record written _, .. } => written.reverse.flatten
  | _ => []

/-- Makes an open file. -/
def openHandle (st : State) (h : Handle) : Nat × State :=
  (st.handles.size, { st with handles := st.handles.push h })

/-- Gives a stream an open file. -/
def point (st : State) (stream handle : Nat) : State :=
  { st with streams := (stream, handle) :: st.streams.filter (·.1 != stream) }

def close (st : State) (stream : Nat) : State :=
  { st with streams := st.streams.filter (·.1 != stream) }

/-- Writes to a stream; a stream that is closed swallows everything. -/
def writeStream (st : State) (stream : Nat) (r : Raw) : State :=
  if r.isEmpty then st
  else
    match st.handle? stream with
    | some h => st.writeTo h r
    | none => st

/-- What can be read from a stream. -/
def inputOf (st : State) (stream : Nat) : Raw := ((st.handle? stream).map st.readFrom).getD []

/-- Takes some characters away from what can be read from a stream. -/
def consumeInput (st : State) (stream n : Nat) : State :=
  match st.handle? stream with
  | some h => st.consume h n
  | none => st

end State

/-- Whether a stream can be written to. -/
def State.accepts (st : State) (stream : Nat) : Bool :=
  match (st.handle? stream).bind (st.handles[·]?) with
  | some h => h.writes
  | none => false

/-- Whether a stream is a pipe that nobody reads any more. -/
def State.isBroken (st : State) (stream : Nat) : Bool :=
  match (st.handle? stream).bind (st.handles[·]?) with
  | some { medium := .record _ (some 0), .. } => true
  | _ => false

/-- Says something; it is written when the command is done. -/
def say (r : Raw) : Act Unit := modify fun st => { st with held := r :: st.held }

/-- Writes what has been said; answers whether that was possible.  A pipe that nobody reads ends the
process. -/
def writeHeld : Act Bool := do
  let st ← get
  let text := st.held.reverse.flatten
  set ({ st with held := [] }.writeStream 1 text)
  if (← get).isBroken 1 then throw (.dies 13)
  pure (text.isEmpty || st.accepts 1)

/-- Writes errors, at once. -/
def warn (r : Raw) : Act Unit := modify (·.writeStream 2 r)

/-- Notes an exit code. -/
def done (status : Nat) : Act Unit := modify fun st => { st with status }

/-- Whether time is up. -/
def isUp (limit : Option Nat) (elapsed : Nat) : Bool :=
  match limit with
  | some n => n ≤ elapsed
  | none => false

/-- Lets time go by. -/
def delay (n : Nat) : Act Unit := do
  modify fun st => { st with elapsed := st.elapsed + n }
  let st ← get
  if 0 < n && isUp st.limit st.elapsed then throw .expires

/-- Complains, in the way of the shell. -/
def complain (parts : List Raw) : Act Unit := do
  let st ← get
  let front := if st.front.isEmpty then [] else st.front ++ [':', ' ']
  warn (line ([st.name, ": ", digits st.line, ": ", front] ++ parts))

/-- Complains, and stops. -/
def fail {α : Type} (parts : List Raw) : Act α := do
  complain parts
  done 2
  throw .fails

/-- Does something, and then changes the state, however the first went. -/
def thenAlways {α : Type} (body : Act α) (change : State → State) : Act α := fun st =>
  let (result, after) := body st
  (result, change after)

/-- The number that an argument spells, if it is one that counts something. -/
def count? (r : Raw) : Option Nat :=
  match whole? false r with
  | some n => if 0 ≤ n && n < Int.pow 2 31 then some n.toNat else none
  | none => none

/-- The number that an argument spells, which has to count something. -/
def countOf (r : Raw) : Act Nat := do
  match count? r with
  | some n => pure n
  | none => fail ["Illegal number: ", r]

/-! ## Variables and parameters -/

namespace State

def known? (st : State) (name : Raw) : Option Variable := st.bindings.lookup name

/-- The value of a variable. -/
def get? (st : State) (name : Raw) : Option Raw := (st.known? name).bind (·.value)

/-- Notes what is known of a variable. -/
def setVariable (st : State) (name : Raw) (v : Option Variable) : State :=
  let others := st.bindings.filter (·.1 != name)
  { st with
    bindings := match v with
      | some v => (name, v) :: others
      | none => others }

def has (st : State) (option : Char) : Bool := st.options.contains option

/-- Gives a variable a value that it may have; new variables become known if the shell is told so. -/
def assign (st : State) (name value : Raw) : State :=
  let v := (st.known? name).getD { value := none }
  st.setVariable name (some { v with value := some value, exported := v.exported || st.has 'a' })

/-- The value of a parameter, if it has one.  `joint` stands between arguments. -/
def parameterWith? (st : State) (joint : Raw) (name : Raw) : Option Raw :=
  match name with
  | ['@'] => some (joint.intercalate st.arguments)
  | ['*'] => some (joint.intercalate st.arguments)
  | ['#'] => some (digits st.arguments.length)
  | ['?'] => some (digits st.status)
  | ['$'] => some (digits st.process)
  | ['-'] => some st.options
  | ['!'] => st.background.map digits
  | _ =>
    if isNumber name then
      match number name with
      | 0 => some st.name
      | n + 1 => st.arguments[n]?
    else st.get? name

/-- The separators of fields. -/
def separators (st : State) : Raw := (st.get? "IFS").getD blanks

/-- What stands between arguments that are joined. -/
def joint (st : State) : Raw :=
  match st.get? "IFS" with
  | some ifs => ifs.take 1
  | none => [' ']

/-- The value of a parameter, if it has one. -/
def parameter? (st : State) (name : Raw) : Option Raw := st.parameterWith? st.joint name

/-- The variables that programs get to know. -/
def environment (st : State) : List (Raw × Raw) :=
  (st.bindings.filterMap fun (name, v) =>
    if v.exported then v.value.map fun r => (name, r) else none).reverse

end State

/-- Gives a variable a value. -/
def assign (name value : Raw) : Act Unit := do
  let st ← get
  if ((st.known? name).map (·.fixed)).getD false then fail [name, ": is read only"]
  if name == ("OPTIND" : Raw) then
    let n ← countOf value
    modify fun st => { st with optionPlace := (max n 1, none) }
  modify (·.assign name value)

/-- Takes the value of a variable away. -/
def unset (name : Raw) : Act Unit := do
  let st ← get
  if ((st.known? name).map (·.fixed)).getD false then fail [name, ": is read only"]
  set (st.setVariable name none)

/-- Saves what is known of a variable until the function or command around it is done. -/
def saveVariable (name : Raw) : Act Unit := modify fun st =>
  match st.saved with
  | frame :: outer => { st with saved := (.variable name (st.known? name) :: frame) :: outer }
  | [] => st

/-- Brings back what was saved. -/
def State.restore (st : State) : Saved → State
  | .variable name before => st.setVariable name before
  | .options options => { st with options }

/-- Does something, and then brings back what it saved, unless the shell ends. -/
def withFrame {α : Type} (body : Act α) : Act α := fun st =>
  let depth := st.saved.length
  let (result, after) := body { st with saved := [] :: st.saved }
  match result with
  | .error .ends | .error .fails => (result, after)
  | _ =>
    let inner := after.saved.take (after.saved.length - depth)
    (result, { inner.flatten.foldl State.restore after with saved := after.saved.drop inner.length })

/-! ## Processes -/

/-- What a process leaves to the one that ran it. -/
def State.leave (parent child : State) : State :=
  { child with toScope := parent.toScope, files := { child.files with cwd := parent.files.cwd } }

end LiveUnits.Shell
