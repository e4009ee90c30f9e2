import LiveUnits.Shell.Setting

/-!
# Declarations

The commands that make variables known to programs, keep their values, confine them to a function or
take them away, and the commands that give variables what has been read or found among arguments.
-/

namespace LiveUnits.Shell

/-! ## Properties of variables -/

/-- Complains unless a text is a name. -/
def requireName (name : Raw) : Act Unit := do
  if !isName name then fail [name, ": bad variable name"]

/-- Changes what is known of a variable. -/
def State.mark (st : State) (name : Raw) (change : Variable → Variable) : State :=
  st.setVariable name (some (change ((st.known? name).getD { value := none })))

/-- A name and, after an equals sign, a value. -/
def nameAndValue (r : Raw) : Raw × Option Raw :=
  let name := r.takeWhile (· != '=')
  (name, if name.length < r.length then some (r.drop (name.length + 1)) else none)

/-- Gives variables a property, and a value on request; without variables, shows those that have it. -/
def declare (front : Raw) (p : Variable → Bool) (change : Variable → Variable) (args : List Raw) : Act Nat := do
  let (options, operands) ← optionsOf "p" args
  if operands.isEmpty || !options.isEmpty then listVariables front p
  else
    for a in operands do
      let (name, value) := nameAndValue a
      requireName name
      if let some value := value then assign name value
      modify (·.mark name change)
  pure 0

/-- The command `export`. -/
def exportBuiltin : List Raw → Act Nat := declare "export " (·.exported) fun v => { v with exported := true }

/-- The command `readonly`. -/
def readonlyBuiltin : List Raw → Act Nat := declare "readonly " (·.fixed) fun v => { v with fixed := true }

/-- The command `local`. -/
def localBuiltin (args : List Raw) : Act Nat := do
  if (← get).saved.isEmpty then fail ["not in a function"]
  for a in args do
    if a == ['-'] then
      modify fun st =>
        match st.saved with
        | frame :: outer => { st with saved := (.options st.options :: frame) :: outer }
        | [] => st
    else
      let (name, value) := nameAndValue a
      requireName name
      saveVariable name
      if let some value := value then assign name value
  pure 0

/-- The command `unset`. -/
def unsetBuiltin (args : List Raw) : Act Nat := do
  let (options, operands) ← optionsOf "vf" args
  for name in operands do
    if options.getLast?.any (·.1 == 'f') then
      modify fun st => { st with functions := st.functions.filter (·.1 != name) }
    else
      requireName name
      unset name
  pure 0

/-! ## Options among arguments -/

/-- What has been found among arguments: the letter, what it was given, if that changes, the number of
the next argument, and the place in the argument before it. -/
structure OptionFound where
  /-- The letter, or what stands for a mistake. -/
  letter : Char
  /-- What the letter was given. -/
  value : Option Raw
  message : Raw := []
  /-- The number of the next argument. -/
  next : Nat
  /-- The place in the argument before it. -/
  place : Option Nat := none

/-- The option that comes next among arguments; `place` is the number of the next argument, and the place
in the argument before it.  Without an option, the number of the next argument. -/
def findOption (letters : Raw) (args : List Raw) (place : Nat × Option Nat) : Except Nat OptionFound :=
  let (next, offset) := place
  let current := args[next - 2]?.getD []
  let begun : Option (Raw × Nat) := match offset with
    | some n => if 1 < next && n < current.length then some (current.drop n, next) else none
    | none => none
  let start : Except Nat (Raw × Nat) := match begun with
    | some x => .ok x
    | none =>
      match args[next - 1]? with
      | some ['-', '-'] => .error (next + 1)
      | some ('-' :: c :: rest) => .ok (c :: rest, next + 1)
      | _ => .error next
  start.map fun (rest, next) =>
    let c := rest.head?.getD '?'
    let after := rest.drop 1
    let isQuiet := letters.head? == some ':'
    let word := args[next - 2]?.getD []
    let here : Option Nat := some (word.length - after.length)
    let found := letters.dropWhile (· != c)
    if found.isEmpty || c == ':' then
      { letter := '?', value := if isQuiet then some [c] else none, next, place := here
        message := if isQuiet then [] else line ["Illegal option -", [c]] }
    else if found[1]? == some ':' then
      if !after.isEmpty then { letter := c, value := some after, next }
      else
        match args[next - 1]? with
        | some value => { letter := c, value := some value, next := next + 1 }
        | none =>
          if isQuiet then { letter := ':', value := some [c], next, place := here }
          else
            { letter := '?', value := none, next, place := here
              message := line ["No arg for -", [c], " option"] }
    else { letter := c, value := some [], next, place := here }

/-- The command `getopts`. -/
def getoptsBuiltin (args : List Raw) : Act Nat := do
  match args with
  | letters :: name :: given =>
    let st ← get
    let words := if given.isEmpty then st.arguments else given
    let place := if words.length + 1 < st.optionPlace.1 then (1, none) else st.optionPlace
    let (letter, next, offset) ← match findOption letters words place with
      | .ok o =>
        warn o.message
        match o.value with
        | some value => assign "OPTARG" value
        | none => unset "OPTARG"
        pure (o.letter, o.next, o.place)
      | .error next => pure ('?', next, none)
    let isOver := (findOption letters words place).toOption.isNone
    assign "OPTIND" (digits next)
    requireName name
    assign name [letter]
    modify fun st => { st with optionPlace := (next, offset) }
    pure (if isOver then 1 else 0)
  | _ => fail ["Usage: getopts optstring var [arg...]"]

/-! ## Reading -/

/-- The line at the front of a text, each character with whether it is escaped, then how much of the text
that takes, and whether the line has an end.  With `plain`, nothing is escaped. -/
def lineOf (plain : Bool) : Raw → List (Char × Bool) × Nat × Bool
  | [] => ([], 0, false)
  | '\n' :: _ => ([], 1, true)
  | '\\' :: c :: rest =>
    if plain then
      let (cs, n, complete) := lineOf plain (c :: rest)
      (('\\', false) :: cs, n + 1, complete)
    else
      let (cs, n, complete) := lineOf plain rest
      (if c == '\n' then cs else (c, true) :: cs, n + 2, complete)
  | c :: rest =>
    let (cs, n, complete) := lineOf plain rest
    (if c == '\x00' || (c == '\\' && !plain) then cs else (c, false) :: cs, n + 1, complete)

/-- The command `read`. -/
def readBuiltin (args : List Raw) : Act Nat := do
  let (options, names) ← optionsOf "p:r" args
  if names.isEmpty then fail ["arg count"]
  let st ← get
  let (cs, used, complete) := lineOf (options.any (·.1 == 'r')) (st.inputOf 0)
  set (st.consumeInput 0 used)
  let fields := shares st.separators names.length [] false false none cs
  for (name, i) in names.zipIdx do
    requireName name
    assign name (fields[i]?.getD [])
  pure (if complete then 0 else 1)

end LiveUnits.Shell
