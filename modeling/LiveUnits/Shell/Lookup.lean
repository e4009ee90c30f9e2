import LiveUnits.Shell.Setting
import LiveUnits.Shell.Test
import LiveUnits.Text.Split
import LiveUnits.Tool.Catalog

/-!
# What names stand for

A command is a function, a command of the shell itself, or a program.  Programs without a slash in their
names are looked for in the directories of the search path; those that are always there stand in the
usual directories, and others are files that may be carried out.
-/

namespace LiveUnits.Shell

/-! ## Programs -/

/-- The programs that start other programs. -/
def launchers : List String :=
  ["[", "dash", "env", "find", "kill", "nice", "nohup", "sh", "test", "timeout", "which", "xargs"]

/-- Whether a program with a name is always there. -/
def isKnown (name : Raw) : Bool :=
  launchers.contains name.string || (Tool.catalogue.lookup name.string).isSome

/-- The directories in which programs are looked for if nothing else is said. -/
def usualPath : Raw := "/usr/local/sbin:/usr/local/bin:/usr/sbin:/usr/bin:/sbin:/bin"

inductive Program where
  /-- One that is always there, by its name. -/
  | known (name : Raw)
  | file (path : Raw)

/-- Why a program cannot be carried out. -/
inductive Refusal where
  /-- There is none. -/
  | missing
  /-- There is something else, or it is forbidden. -/
  | denied
  deriving DecidableEq

namespace Refusal

/-- What the shell says. -/
def text : Refusal → Raw
  | missing => "not found"
  | denied => "Permission denied"

/-- The exit code. -/
def status : Refusal → Nat
  | missing => 127
  | denied => 126

end Refusal

def State.programAt (st : State) (path : Raw) : Except Refusal Program :=
  match programIn? isKnown path with
  | some name => .ok (.known name)
  | none =>
    match st.kindAt? true path with
    | some .regular => if st.modeAt path &&& 0o111 != 0 then .ok (.file path) else .error .denied
    | some _ => .error .denied
    | none => .error .missing

/-- A name in a directory of a search path. -/
def inDirectory (directory name : Raw) : Raw := if directory.isEmpty then name else directory ++ '/' :: name

/-- The first program with a name in some directories, and its path. -/
def State.search (st : State) (name : Raw) : List Raw → Refusal → Except Refusal (Raw × Program)
  | [], refusal => .error refusal
  | directory :: rest, refusal =>
    let path := inDirectory directory name
    match st.programAt path with
    | .ok p => .ok (path, p)
    | .error .missing => st.search name rest refusal
    | .error .denied => st.search name rest .denied

/-- The directories in which programs are looked for. -/
def State.searchPath (st : State) : List Raw := splitOn ':' ((st.get? "PATH").getD [])

/-- The program that a name stands for, with its path. -/
def State.program (st : State) (directories : List Raw) (name : Raw) : Except Refusal (Raw × Program) :=
  if name.isEmpty then .error .denied
  else if name.contains '/' then (st.programAt name).map fun p => (name, p)
  else st.search name directories .missing

/-! ## Commands -/

/-- The commands of the shell whose mistakes do not end it. -/
def builtins : List String :=
  ["[", "alias", "bg", "cd", "chdir", "command", "echo", "false", "fg", "getopts", "hash", "jobs",
    "kill", "printf", "pwd", "read", "test", "true", "type", "ulimit", "umask", "unalias", "wait"]

/-- What the name of a command stands for. -/
inductive Meaning where
  | function (body : Command)
  /-- A command of the shell itself; the mistakes of some end it. -/
  | builtin (isSpecial : Bool)
  /-- A program, if anything. -/
  | program

/-- Whether a name is one of a command of the shell itself, and whether its mistakes end the shell. -/
def builtin? (name : Raw) : Option Bool :=
  if specialCommands.contains name.string then some true
  else if builtins.contains name.string then some false
  else none

/-- What the name of a command stands for; functions count on request. -/
def State.meaning (st : State) (functions : Bool) (name : Raw) : Meaning :=
  match if functions then st.functions.lookup name else none with
  | some body => .function body
  | none =>
    match builtin? name with
    | some isSpecial => .builtin isSpecial
    | none => .program

/-- The path of what a name stands for, if that is a program; whatever has a slash in its name and is
there counts. -/
def State.pathOf? (st : State) (directories : List Raw) (name : Raw) : Option Raw :=
  if name.contains '/' then
    if (programIn? isKnown name).isSome || (st.kindAt? true name).isSome then some name else none
  else ((st.search name directories .missing).toOption).map (·.1)

/-- Tells what a name stands for, at length or such that it can be used; answers whether that is known. -/
def describe (atLength : Bool) (directories : List Raw) (name : Raw) : Act Bool := do
  let st ← get
  let told (long short : Raw) : Act Bool := do
    say (line (if atLength then [name, long] else [short]))
    pure true
  if reservedWords.contains name.string then told " is a shell keyword" name
  else
    match st.aliases.lookup name with
    | some value =>
      told (" is an alias for " ++ value) ("alias ".toList ++ name ++ '=' :: quoted value)
    | none =>
      match st.meaning true name with
      | .function _ => told " is a shell function" name
      | .builtin isSpecial => told (if isSpecial then " is a special shell builtin" else " is a shell builtin") name
      | .program =>
        match st.pathOf? directories name with
        | some path =>
          let tracked : Raw := if st.found.contains name then " a tracked alias for" else []
          told (" is".toList ++ tracked ++ ' ' :: path) path
        | none =>
          if atLength then say (line [name, ": not found"])
          pure false

/-- The command `type`. -/
def typeBuiltin (names : List Raw) : Act Nat := do
  let st ← get
  let mut status := 0
  for name in names do
    if !(← describe true st.searchPath name) then status := 127
  pure status

/-- The command `command`, if it tells what a name stands for. -/
def commandBuiltin (args : List Raw) : Act Nat := do
  let (options, names) ← optionsOf "pvV" args
  let st ← get
  let chosen := options.map (·.1)
  let directories := if chosen.contains 'p' then splitOn ':' usualPath else st.searchPath
  match names with
  | name :: _ =>
    match chosen.reverse.find? (· != 'p') with
    | some letter => pure (if ← describe (letter == 'V') directories name then 0 else 127)
    | none => pure 0
  | [] => pure 0

/-! ## Programs that have been found -/

/-- Remembers that a program has been found. -/
def State.track (st : State) (name : Raw) : State :=
  if name.contains '/' || st.found.contains name then st else { st with found := st.found ++ [name] }

/-- The command `hash`. -/
def hashBuiltin (args : List Raw) : Act Nat := do
  let (options, names) ← optionsOf "r" args
  if !options.isEmpty then
    modify fun st => { st with found := [] }
    return 0
  let st ← get
  if names.isEmpty then
    for name in st.found do
      match st.search name st.searchPath .missing with
      | .ok (path, _) => say (line [path])
      | .error _ => pure ()
  let mut status := 0
  for name in names do
    if (builtin? name).isNone && (st.functions.lookup name).isNone then
      match st.program st.searchPath name with
      | .ok _ => modify (·.track name)
      | .error refusal =>
        complain [name, ": ", refusal.text]
        status := 1
  pure status

/-! ## Aliases -/

/-- The number of drawers in which aliases are kept. -/
def aliasDrawers : Nat := 39

/-- The drawer of an alias.  Aliases are shown drawer by drawer. -/
def aliasDrawer (name : Raw) : Nat :=
  (((name.head?.map Char.toNat).getD 0) * 16 + (name.map Char.toNat).foldl (· + ·) 0) % aliasDrawers

/-- An alias as a command that the shell can read. -/
def describeAlias (name value : Raw) : Raw := line [name, "=", quoted value]

/-- The command `alias`. -/
def aliasBuiltin (args : List Raw) : Act Nat := do
  if args.isEmpty then
    for (name, value) in (← get).aliases.mergeSort fun x y => aliasDrawer x.1 ≤ aliasDrawer y.1 do
      say (describeAlias name value)
  let mut status := 0
  for a in args do
    let st ← get
    let name := a.take 1 ++ (a.drop 1).takeWhile (· != '=')
    if name.length < a.length then
      let value := a.drop (name.length + 1)
      let aliases := if (st.aliases.lookup name).isSome then
          st.aliases.map fun x => if x.1 == name then (name, value) else x
        else st.aliases ++ [(name, value)]
      set { st with aliases }
    else
      match st.aliases.lookup name with
      | some value => say (describeAlias name value)
      | none =>
        warn (line ["alias: ", name, " not found"])
        status := 1
  pure status

/-- The command `unalias`. -/
def unaliasBuiltin (args : List Raw) : Act Nat := do
  let (options, names) ← optionsOf "a" args
  if !options.isEmpty then
    modify fun st => { st with aliases := [] }
    return 0
  let mut status := 0
  for name in names do
    let st ← get
    if (st.aliases.lookup name).isNone then
      warn (line ["unalias: ", name, " not found"])
      status := 1
    else set { st with aliases := st.aliases.filter (·.1 != name) }
  pure status

end LiveUnits.Shell
