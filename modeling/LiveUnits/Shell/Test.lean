import LiveUnits.Shell.State

/-!
# Tests

What `test` answers about texts, numbers and files.  Up to four arguments are understood by their
number; beyond that, operators bind in the usual order.
-/

namespace LiveUnits.Shell

/-- What kind of file there is at a path. -/
inductive FileKind where
  | directory
  /-- A file with contents. -/
  | regular
  | link
  | device
  deriving DecidableEq

/-- The devices that are always there. -/
def devices : List Raw := ["/dev/null", "/dev/zero"]

/-- The directories in which programs are found. -/
def programDirectories : List Raw := ["/usr/bin", "/bin"]

/-- The name of a program that stands in a directory of programs. -/
def programIn? (known : Raw → Bool) (place : Raw) : Option Raw :=
  programDirectories.findSome? fun d =>
    let front := d ++ ['/']
    let name := place.drop front.length
    if front.isPrefixOf place && known name then some name else none

namespace State

/-- What kind of file there is at a path; links are followed on request. -/
def kindAt? (st : State) (follow : Bool) (r : Raw) : Option FileKind :=
  if devices.contains r then some .device
  else
    match st.files.locate follow (pathOf r) with
    | .ok (.found _ (.directory _)) => some .directory
    | .ok (.found _ (.file _)) => some .regular
    | .ok (.found _ (.link _)) => some .link
    | _ => none

/-- The place of a file from the top of the tree, wherever the shell goes. -/
def placeOf (st : State) (name : Raw) : Raw :=
  match st.files.canonical (pathOf name) with
  | .ok l => '/' :: ['/'].intercalate (l.map raw)
  | .error _ => name

/-- The permissions of a file. -/
def modeAt (st : State) (name : Raw) : Nat :=
  match st.modes.lookup (st.placeOf name) with
  | some mode => mode
  | none =>
    match st.kindAt? true name with
    | some .directory => 0o755
    | some .device => 0o666
    | _ => 0o644

/-- Whether a file may be carried out. -/
def isExecutable (st : State) (known : Raw → Bool) (name : Raw) : Bool :=
  (programIn? known name).isSome ||
    match st.kindAt? true name with
    | some .directory => true
    | some _ => st.modeAt name &&& 0o111 != 0
    | none => false

end State

namespace Test

/-- What an argument may be. -/
inductive Role where
  /-- Nothing: there are no more. -/
  | absent
  /-- A text. -/
  | operand
  /-- An operator of one operand. -/
  | one
  | two
  /-- `!`, `-a`, `-o`, or a parenthesis. -/
  | joint
  deriving DecidableEq

/-- The operators of two operands. -/
def binary : List Raw :=
  ["=", "!=", "<", ">", "-eq", "-ne", "-gt", "-ge", "-lt", "-le", "-nt", "-ot", "-ef"]

/-- The operators of one operand. -/
def unary : List Raw :=
  ["-r", "-w", "-x", "-e", "-f", "-d", "-c", "-b", "-p", "-u", "-g", "-k", "-s", "-t", "-z", "-n", "-h",
    "-O", "-G", "-L", "-S"]

/-- The operators that join tests. -/
def joints : List Raw := ["!", "-a", "-o", "(", ")"]

/-- Whether the arguments after an operator of one operand make it a text. -/
def makesText : List Raw → Bool
  | [] => true
  | [_] => false
  | a :: _ => binary.contains a

/-- What the first of some arguments is. -/
def role : List Raw → Role
  | [] => .absent
  | a :: after =>
    if binary.contains a then .two
    else if unary.contains a then (if makesText after then .operand else .one)
    else if joints.contains a && !(a == ['('] && after.isEmpty) then .joint
    else .operand

/-- Whether the first of some arguments is the given operator. -/
def isJoint (a : Raw) (args : List Raw) : Bool := role args == .joint && args.head? == some a

/-- The number that a text spells, or what is wrong with it. -/
def numeral (r : Raw) : Except Raw Int :=
  match whole? false r with
  | some n => .ok n
  | none => .error ("Illegal number: ".toList ++ r)

/-- The answer to a test of one operand. -/
def one (st : State) (known : Raw → Bool) (operator a : Raw) : Except Raw Bool :=
  let mode (bit : Nat) : Except Raw Bool :=
    .ok ((st.kindAt? true a).isSome && st.modeAt a &&& bit != 0)
  let isProgram := (programIn? known a).isSome
  match operator.string with
  | "-n" => .ok !a.isEmpty
  | "-z" => .ok a.isEmpty
  | "-e" | "-r" | "-w" | "-O" | "-G" => .ok ((st.kindAt? true a).isSome || isProgram)
  | "-f" => .ok (st.kindAt? true a == some .regular || isProgram)
  | "-d" => .ok (st.kindAt? true a == some .directory)
  | "-c" => .ok (st.kindAt? true a == some .device)
  | "-x" => .ok (st.isExecutable known a)
  | "-s" =>
    .ok (isProgram || match st.kindAt? true a with
      | some .directory => true
      | some .regular => !((st.contents? a).getD []).isEmpty
      | _ => false)
  | "-L" | "-h" => .ok (st.kindAt? false a == some .link)
  | "-u" => mode 0o4000
  | "-g" => mode 0o2000
  | "-k" => mode 0o1000
  | "-t" => (numeral a).map fun _ => false
  | _ => .ok false

/-- The answer to a test of two operands.  Files are as old as each other. -/
def two (st : State) (operator a b : Raw) : Except Raw Bool :=
  let numbers (holds : Int → Int → Bool) : Except Raw Bool := do
    let x ← numeral a
    let y ← numeral b
    pure (holds x y)
  match operator.string with
  | "=" => .ok (a == b)
  | "!=" => .ok (a != b)
  | "<" => .ok (decide (a < b))
  | ">" => .ok (decide (b < a))
  | "-eq" => numbers fun x y => x == y
  | "-ne" => numbers fun x y => x != y
  | "-lt" => numbers fun x y => x < y
  | "-le" => numbers fun x y => x ≤ y
  | "-gt" => numbers fun x y => y < x
  | "-ge" => numbers fun x y => y ≤ x
  | "-ef" => .ok ((st.kindAt? true a).isSome && (st.kindAt? true b).isSome && st.placeOf a == st.placeOf b)
  | _ => .ok false

mutual

/-- The answer to tests joined by `-o`, and the arguments from the last one that was used.  `isText`
tells that the first argument is a text whatever it looks like. -/
def disjunction (st : State) (known : Raw → Bool) : Nat → Bool → List Raw → Except Raw (Bool × List Raw)
  | 0, _, args => .ok (false, args)
  | fuel + 1, isText, args => do
    let (a, at_) ← conjunction st known fuel isText args
    if isJoint "-o" (at_.drop 1) then
      let (b, last) ← disjunction st known fuel false (at_.drop 2)
      pure (a || b, last)
    else pure (a, at_)

/-- The answer to tests joined by `-a`. -/
def conjunction (st : State) (known : Raw → Bool) : Nat → Bool → List Raw → Except Raw (Bool × List Raw)
  | 0, _, args => .ok (false, args)
  | fuel + 1, isText, args => do
    let (a, at_) ← negation st known fuel isText args
    if isJoint "-a" (at_.drop 1) then
      let (b, last) ← conjunction st known fuel false (at_.drop 2)
      pure (a && b, last)
    else pure (a, at_)

/-- The answer to a test that may be denied. -/
def negation (st : State) (known : Raw → Bool) : Nat → Bool → List Raw → Except Raw (Bool × List Raw)
  | 0, _, args => .ok (false, args)
  | fuel + 1, isText, args =>
    if !isText && isJoint "!" args then
      if args.length = 1 then .ok (true, args)
      else (negation st known fuel false (args.drop 1)).map fun (a, last) => (!a, last)
    else primary st known fuel isText args

/-- The answer to a single test, or to tests in parentheses. -/
def primary (st : State) (known : Raw → Bool) : Nat → Bool → List Raw → Except Raw (Bool × List Raw)
  | 0, _, args => .ok (false, args)
  | _, _, [] => .ok (false, [])
  | fuel + 1, isText, a :: after => do
    if !isText && isJoint "(" (a :: after) then
      if isJoint ")" after then pure (false, after)
      else
        let (b, last) ← disjunction st known fuel false after
        if isJoint ")" (last.drop 1) then pure (b, last.drop 1) else .error "closing paren expected".toList
    else if !isText && role (a :: after) == .one then
      match after with
      | [] => .error (a ++ ": argument expected".toList)
      | x :: _ => return (← one st known a x, after)
    else if role after == .two then
      match after with
      | operator :: x :: rest => return (← two st operator a x, x :: rest)
      | operator :: [] => .error (operator ++ ": argument expected".toList)
      | [] => pure (false, [])
    else pure (!a.isEmpty, a :: after)

end

/-- The answer to a whole test; `inverted` tells that it has been denied before. -/
def evaluate (st : State) (known : Raw → Bool) (inverted isText : Bool) (args : List Raw) :
    Except Raw Bool := do
  let (answer, last) ← disjunction st known (4 * args.length + 4) isText args
  match last with
  | a :: _ :: _ => .error (a ++ ": unexpected operator".toList)
  | _ => pure (answer != inverted)

/-- The answer to a test.  The first argument is a bound on the number of denials at the front. -/
def holdsWith (st : State) (known : Raw → Bool) : Nat → Bool → List Raw → Except Raw Bool
  | _, inverted, [] => .ok inverted
  | 0, inverted, args => evaluate st known inverted false args
  | fuel + 1, inverted, args =>
    let isTriple := args.length = 3 && binary.contains (args[1]?.getD [])
    if isTriple then evaluate st known inverted true args
    else if args.length = 3 || args.length = 4 then
      if args.head? == some ['('] && args.getLast? == some [')'] then
        evaluate st known inverted false (args.drop 1).dropLast
      else if args.head? == some ['!'] then holdsWith st known fuel true (args.drop 1)
      else evaluate st known inverted false args
    else evaluate st known inverted false args

/-- The answer to a test. -/
def holds (st : State) (known : Raw → Bool) (args : List Raw) : Except Raw Bool :=
  holdsWith st known args.length false args

end Test

end LiveUnits.Shell
