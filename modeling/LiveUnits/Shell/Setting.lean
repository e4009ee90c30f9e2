import LiveUnits.Shell.State
import LiveUnits.Tool.Files

/-!
# Settings of the shell

The options that are on or off, the arguments of the script, and the permissions of new files.
-/

namespace LiveUnits.Shell

/-! ## Options of commands -/

/-- The options at the front of some arguments, by letter, and the arguments after them.  A colon after a
letter tells that the option is given something.  The first argument bounds the number of options. -/
def readOptions (letters : Raw) : Nat → List Raw → Act (List (Char × Raw) × List Raw)
  | 0, args => pure ([], args)
  | fuel + 1, args => do
    match args with
    | ['-', '-'] :: rest => pure ([], rest)
    | ('-' :: l :: more) :: rest =>
      let place := letters.dropWhile (· != l)
      if place.isEmpty || l == ':' then fail ["Illegal option -", [l]]
      else if place[1]? == some ':' then
        if !more.isEmpty then
          let (options, operands) ← readOptions letters fuel rest
          pure ((l, more) :: options, operands)
        else
          match rest with
          | r :: rest =>
            let (options, operands) ← readOptions letters fuel rest
            pure ((l, r) :: options, operands)
          | [] => fail ["No arg for -", [l], " option"]
      else
        let (options, operands) ← readOptions letters fuel (if more.isEmpty then rest else ('-' :: more) :: rest)
        pure ((l, []) :: options, operands)
    | args => pure ([], args)

/-- The options at the front of some arguments, and the arguments after them. -/
def optionsOf (letters : Raw) (args : List Raw) : Act (List (Char × Raw) × List Raw) :=
  readOptions letters (args.flatten.length + 1) args

/-! ## Options of the shell -/

/-- The options of the shell, with their letters.  Two of them have none that is ever shown. -/
def shellOptions : List (Raw × Char) :=
  [("errexit", 'e'), ("noglob", 'f'), ("ignoreeof", 'I'), ("interactive", 'i'), ("monitor", 'm'),
    ("noexec", 'n'), ("stdin", 's'), ("xtrace", 'x'), ("verbose", 'v'), ("vi", 'V'), ("emacs", 'E'),
    ("noclobber", 'C'), ("allexport", 'a'), ("notify", 'b'), ("nounset", 'u'), ("privileged", 'p'),
    ("nolog", '1'), ("debug", '2')]

/-- Switches an option on or off. -/
def State.setOption (st : State) (isOn : Bool) (letter : Char) : State :=
  let others := st.options.filter (· != letter)
  { st with
    options := if isOn then
        ((shellOptions.map (·.2)).reverse.filter fun l => l == letter || others.contains l)
      else others }

/-- The letter of an option, given by its name. -/
def optionNamed? (name : Raw) : Option Char := shellOptions.lookup name

/-- Shows the options; `isOn` tells that this is for a reader, and not for the shell. -/
def listOptions (isOn : Bool) : Act Unit := do
  let st ← get
  if isOn then
    say "Current option settings\n"
    for (name, letter) in shellOptions do
      say (line [name, List.replicate (16 - name.length) ' ', if st.has letter then "on" else "off"])
  else
    for (name, letter) in shellOptions do
      say (line [if st.has letter then "set -o " else "set +o ", name])

/-- Switches the options on or off that letters name; the result is what is left of the other arguments,
and whether a script is named.  `starts` tells that the shell is being started. -/
def switchLetters (starts isOn : Bool) : Raw → List Raw → Act (List Raw × Bool)
  | [], rest => pure (rest, false)
  | 'c' :: more, rest => do
    if starts then
      let (rest, _) ← switchLetters starts isOn more rest
      pure (rest, true)
    else fail ["Illegal option -c"]
  | 'o' :: more, rest => do
    match rest with
    | [] =>
      listOptions isOn
      switchLetters starts isOn more []
    | name :: after =>
      match optionNamed? name with
      | some letter =>
        modify (·.setOption isOn letter)
        switchLetters starts isOn more after
      | none => fail ["Illegal option -o ", name]
  | l :: more, rest => do
    if l.isAlpha && (shellOptions.map (·.2)).contains l then
      modify (·.setOption isOn l)
      switchLetters starts isOn more rest
    else fail ["Illegal option -", [l]]

/-- Switches options on or off; the result is what follows the options, and whether a script is named by a
letter.  The first argument bounds the number of options. -/
def switchOptions (starts : Bool) : Nat → List Raw → Act (List Raw × Bool)
  | 0, args => pure (args, false)
  | fuel + 1, args => do
    match args with
    | ['-', '-'] :: rest => pure (rest, false)
    | ['-'] :: rest =>
      if !starts then modify fun st => (st.setOption false 'x').setOption false 'v'
      pure (rest, false)
    | (sign :: letters) :: rest =>
      if sign == '-' || sign == '+' then
        let (rest, script) ← switchLetters starts (sign == '-') letters rest
        let (after, more) ← switchOptions starts fuel rest
        pure (after, script || more)
      else pure (args, false)
    | args => pure (args, false)

/-- A variable as a command that the shell can read. -/
def State.describe (front : Raw) (name : Raw) (v : Variable) : Raw :=
  line [front, name, match v.value with
    | some r => '=' :: quoted r
    | none => []]

/-- Shows variables that pass a test, in order. -/
def listVariables (front : Raw) (p : Variable → Bool) : Act Unit := do
  let st ← get
  let chosen := (st.bindings.filter fun x => p x.2).mergeSort fun x y => notAfter x.1 y.1
  for (name, v) in chosen do say (State.describe front name v)

/-- The command `set`. -/
def setBuiltin (args : List Raw) : Act Nat := do
  if args.isEmpty then
    listVariables [] fun v => v.value.isSome
    return 0
  let (arguments, _) ← switchOptions false (args.length + 1) args
  if !arguments.isEmpty || args.getLast? == some ['-', '-'] then
    modify fun st => { st with arguments, optionPlace := (1, none) }
  pure 0

/-- The command `shift`. -/
def shiftBuiltin (args : List Raw) : Act Nat := do
  let n ← match args with
    | [] => pure 1
    | r :: _ => countOf r
  let st ← get
  if st.arguments.length < n then fail ["can't shift that many"]
  set { st with arguments := st.arguments.drop n, optionPlace := (1, none) }
  pure 0

/-! ## Permissions and limits -/

/-- Permissions in letters. -/
def letterMode (mode : Nat) : Raw :=
  let part (who : Char) (shift : Nat) : Raw :=
    let n := mode >>> shift
    who :: '=' :: (if n &&& 4 != 0 then ['r'] else []) ++ (if n &&& 2 != 0 then ['w'] else []) ++
      (if n &&& 1 != 0 then ['x'] else [])
  [','].intercalate [part 'u' 6, part 'g' 3, part 'o' 0]

/-- The command `umask`. -/
def umaskBuiltin (args : List Raw) : Act Nat := do
  let (options, operands) ← optionsOf "S" args
  let st ← get
  match operands with
  | [] =>
    if options.isEmpty then
      let ds := Nat.toDigits 8 st.mask
      say (line [List.replicate (4 - ds.length) '0', ds])
    else say (line [letterMode (0o777 - st.mask)])
    pure 0
  | r :: _ =>
    if (r.head?.map Char.isDigit).getD false then
      if r.all isOctal then
        set { st with mask := numberIn 8 r % 0o1000 }
        pure 0
      else fail ["Illegal number: ", r]
    else
      match Tool.newMode? false 0 (0o777 - st.mask) r with
      | some mode =>
        set { st with mask := 0o777 - mode % 0o1000 }
        pure 0
      | none => fail ["Illegal mode: ", r]

/-- The command `ulimit`: nothing is limited. -/
def ulimitBuiltin (args : List Raw) : Act Nat := do
  let (_, operands) ← optionsOf "HSatfdscmlpnvwr" args
  if operands.isEmpty then say "unlimited\n"
  pure 0

/-- The command `times`: no time is used. -/
def timesBuiltin (_ : List Raw) : Act Nat := do
  let l : Raw := "0m0.000000s 0m0.000000s\n"
  say (l ++ l)
  pure 0

end LiveUnits.Shell
