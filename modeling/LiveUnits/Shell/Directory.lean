import LiveUnits.Shell.Setting
import LiveUnits.Text.Split

/-!
# The working directory

The shell keeps the working directory as it was reached: a link on the way stays, and two dots lead back
to where the link stands.
-/

namespace LiveUnits.Shell

/-- The place from the top of the tree, whatever links lead there. -/
def State.physical (st : State) : Raw := '/' :: ['/'].intercalate (st.files.cwd.map raw)

/-- A path from the top of the tree, after a step. -/
def goStep (steps : List Raw) (step : Raw) : List Raw :=
  if step.isEmpty || step == ['.'] then steps
  else if step == ['.', '.'] then steps.drop 1
  else step :: steps

/-- Where a path leads from a directory, by the names alone. -/
def goFrom (directory path : Raw) : Raw :=
  let text := if path.head? == some '/' then path else directory ++ '/' :: path
  let steps := (splitOn '/' text).foldl goStep []
  '/' :: ['/'].intercalate steps.reverse

/-- Goes to a directory; answers whether that went well. -/
def goTo (isPhysical : Bool) (path : Raw) : Act Bool := do
  let st ← get
  let logical := goFrom st.directory path
  let target := if isPhysical then path else logical
  match st.files.canonical (Shell.pathOf target) with
  | .error _ => pure false
  | .ok l =>
    if !st.files.isDirectory (Shell.pathOf target) then return false
    let before := st.directory
    set { st with files := { st.files with cwd := l } }
    let after ← get
    let here := if isPhysical then after.physical else logical
    modify fun st => { st with directory := here }
    for (name, value) in ([("OLDPWD", before), ("PWD", here)] : List (String × Raw)) do
      assign name.toList value
      modify fun st => st.setVariable name.toList ((st.known? name.toList).map fun v => { v with exported := true })
    pure true

/-- Whether a path is meant from the working directory and nowhere else. -/
def isAnchored (path : Raw) : Bool :=
  match path with
  | '/' :: _ | ['.'] | '.' :: '/' :: _ | ['.', '.'] | '.' :: '.' :: '/' :: _ => true
  | _ => false

/-- Whether the last of some options is `-P`. -/
def asksPhysical (options : List (Char × Raw)) : Bool := options.getLast?.any (·.1 == 'P')

/-- The command `cd`. -/
def cdBuiltin (args : List Raw) : Act Nat := do
  let (options, operands) ← optionsOf "LP" args
  let isPhysical := asksPhysical options
  let st ← get
  let target := match operands with
    | [] => (st.get? "HOME").getD []
    | ['-'] :: _ => (st.get? "OLDPWD").getD []
    | r :: _ => r
  let isBack := operands.head? == some ['-']
  let target := if target.isEmpty then ['.'] else target
  let fronts := if isAnchored target then [[]] else
    match st.get? "CDPATH" with
    | some r => (splitOn ':' r).map fun d => if d.isEmpty then [] else d ++ ['/']
    | none => [[]]
  let chosen := (fronts.find? fun front => st.files.isDirectory (Shell.pathOf (front ++ target))).getD []
  if ← goTo isPhysical (chosen ++ target) then
    if isBack || !chosen.isEmpty then say (line [(← get).directory])
    pure 0
  else fail ["can\x27t cd to ", target]

/-- The command `pwd`. -/
def pwdBuiltin (args : List Raw) : Act Nat := do
  let (options, _) ← optionsOf "LP" args
  let st ← get
  say (line [if asksPhysical options then st.physical else st.directory])
  pure 0

end LiveUnits.Shell
