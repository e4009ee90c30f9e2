import LiveUnits.Shell.State

/-!
# Sums in the shell

The value of an expression made of numbers, variables, assignments, parentheses and operators.  Numbers
have 64 bits.  An operand whose value does not count is read all the same, but it divides nothing and
changes no variable.
-/

namespace LiveUnits.Shell.Arithmetic

/-- A token of an expression. -/
inductive Token where
  | number (n : Int)
  /-- A variable. -/
  | name (r : Raw)
  | operator (s : String)
  /-- A character that is no token. -/
  | strange

/-- The operators, the longer ones first. -/
def operators : List String := [
  "<<=", ">>=", "<<", ">>", "<=", ">=", "==", "!=", "&&", "||", "+=", "-=", "*=", "/=", "%=", "&=", "^=",
  "|=", "+", "-", "*", "/", "%", "&", "^", "|", "<", ">", "=", "!", "~", "?", ":", "(", ")"]

/-- The tokens of an expression; the first argument bounds their number. -/
def tokens : Nat → Raw → List Token
  | 0, _ => []
  | _, [] => []
  | fuel + 1, c :: rest =>
    if blanks.contains c then tokens fuel rest
    else if c.isDigit then
      let n := readWhole true (c :: rest)
      .number (clamp n.value) :: tokens fuel n.rest
    else if isNameStart c then
      let name := (c :: rest).takeWhile isNameChar
      .name name :: tokens fuel ((c :: rest).drop name.length)
    else
      match operators.find? fun o => o.toList.isPrefixOf (c :: rest) with
      | some o => .operator o :: tokens fuel ((c :: rest).drop o.length)
      | none => [.strange]

/-- How an operator of two operands binds: the smaller the number, the tighter. -/
def precedence? (operator : String) : Option Nat :=
  match operator with
  | "*" | "/" | "%" => some 0
  | "+" | "-" => some 1
  | "<<" | ">>" => some 2
  | "<" | "<=" | ">" | ">=" => some 3
  | "==" | "!=" => some 4
  | "&" => some 5
  | "^" => some 6
  | "|" => some 7
  | _ => none

/-- A precedence that no operator reaches. -/
def loosest : Nat := 8

/-- The operator that an assignment applies before it assigns. -/
def assigning? (operator : String) : Option (Option String) :=
  match operator with
  | "=" => some none
  | "+=" => some (some "+")
  | "-=" => some (some "-")
  | "*=" => some (some "*")
  | "/=" => some (some "/")
  | "%=" => some (some "%")
  | "<<=" => some (some "<<")
  | ">>=" => some (some ">>")
  | "&=" => some (some "&")
  | "^=" => some (some "^")
  | "|=" => some (some "|")
  | _ => none

/-- The number for a truth value. -/
def truth (b : Bool) : Int := if b then 1 else 0

/-- The bits of a number. -/
def bits (n : Int) : BitVec 64 := BitVec.ofInt 64 n

/-- A reader of the tokens of an expression. -/
abbrev Eval := StateT (List Token) Act

/-- The message for an expression with a mistake. -/
def bad {α : Type} (expression : Raw) (message : String) : Act α :=
  fail ["arithmetic expression: ", message, ": \"", expression, "\""]

/-- The value of an operator of two operands. -/
def apply (expression : Raw) (operator : String) (a b : Int) : Act Int :=
  match operator with
  | "*" => pure (wrap (a * b))
  | "/" => if b = 0 then bad expression "division by zero" else quotient (a.tdiv b)
  | "%" => if b = 0 then bad expression "division by zero" else do
      let _ ← quotient (a.tdiv b)
      pure (a.tmod b)
  | "+" => pure (wrap (a + b))
  | "-" => pure (wrap (a - b))
  | "<<" => pure ((bits a <<< (b % 64).toNat).toInt)
  | ">>" => pure (((bits a).sshiftRight (b % 64).toNat).toInt)
  | "<" => pure (truth (a < b))
  | "<=" => pure (truth (a ≤ b))
  | ">" => pure (truth (b < a))
  | ">=" => pure (truth (b ≤ a))
  | "==" => pure (truth (a == b))
  | "!=" => pure (truth (a != b))
  | "&" => pure ((bits a &&& bits b).toInt)
  | "^" => pure ((bits a ^^^ bits b).toInt)
  | _ => pure ((bits a ||| bits b).toInt)
where
  /-- A quotient, which ends the process if it does not fit. -/
  quotient (q : Int) : Act Int := if isInRange q then pure q else throw (.dies 8)

/-- The value of a variable, which has to be a number. -/
def valueOf (name : Raw) : Act Int := do
  let st ← get
  match st.get? name with
  | none => if st.has 'u' then fail [name, ": parameter not set"] else pure 0
  | some r =>
    match whole? true r with
    | some n => pure n
    | none => fail ["Illegal number: ", r]

/-- The next token, taken away. -/
def next : Eval (Option Token) := do
  let ts ← get
  set (ts.drop 1)
  pure ts.head?

/-- Takes the given operator, if it comes next. -/
def tryOperator (s : String) : Eval Bool := do
  match ← get with
  | .operator o :: rest =>
    if o == s then
      set rest
      pure true
    else pure false
  | _ => pure false

mutual

/-- An assignment, or an expression without one.  `idle` tells that the value does not count. -/
def assignment (expression : Raw) : Nat → Bool → Eval Int
  | 0, _ => bad expression "expecting primary"
  | fuel + 1, idle => do
    match ← get with
    | .name name :: .operator o :: rest =>
      match assigning? o with
      | none => choice expression fuel idle
      | some combine =>
        set rest
        let value ← assignment expression fuel idle
        if idle then pure value
        else
          let result ← match combine with
            | none => pure value
            | some o => do apply expression o (← valueOf name) value
          assign name (signed result)
          pure result
    | _ => choice expression fuel idle

/-- A choice between two expressions. -/
def choice (expression : Raw) : Nat → Bool → Eval Int
  | 0, _ => bad expression "expecting primary"
  | fuel + 1, idle => do
    let a ← disjunction expression fuel idle
    if ← tryOperator "?" then
      let b ← assignment expression fuel (idle || a == 0)
      if ← tryOperator ":" then
        let c ← choice expression fuel (idle || a != 0)
        pure (if a != 0 then b else c)
      else bad expression "expecting \x27:\x27"
    else pure a

/-- Operands of which one has to hold. -/
def disjunction (expression : Raw) : Nat → Bool → Eval Int
  | 0, _ => bad expression "expecting primary"
  | fuel + 1, idle => do
    let a ← conjunction expression fuel idle
    if ← tryOperator "||" then
      let b ← disjunction expression fuel (idle || a != 0)
      pure (truth (a != 0 || b != 0))
    else pure a

/-- Operands that all have to hold. -/
def conjunction (expression : Raw) : Nat → Bool → Eval Int
  | 0, _ => bad expression "expecting primary"
  | fuel + 1, idle => do
    let a ← primary expression fuel idle
    let a ← operations expression fuel idle a loosest
    if ← tryOperator "&&" then
      let b ← conjunction expression fuel (idle || a == 0)
      pure (truth (a != 0 && b != 0))
    else pure a

/-- What operators that bind tighter than some precedence make of a value and what follows it. -/
def operations (expression : Raw) : Nat → Bool → Int → Nat → Eval Int
  | 0, _, _, _ => bad expression "expecting primary"
  | fuel + 1, idle, a, limit => do
    match ← get with
    | .operator o :: rest =>
      match precedence? o with
      | none => pure a
      | some p =>
        if limit ≤ p then pure a
        else
          set rest
          let b ← primary expression fuel idle
          let b ← operations expression fuel idle b p
          let a ← if idle then pure b else apply expression o a b
          operations expression fuel idle a limit
    | _ => pure a

/-- A number, a variable, a sign before one, or an expression in parentheses. -/
def primary (expression : Raw) : Nat → Bool → Eval Int
  | 0, _ => bad expression "expecting primary"
  | fuel + 1, idle => do
    match ← next with
    | some (.number n) => pure n
    | some (.name name) => if idle then pure 0 else valueOf name
    | some (.operator "+") => primary expression fuel idle
    | some (.operator "-") => return wrap (-(← primary expression fuel idle))
    | some (.operator "!") => return truth ((← primary expression fuel idle) == 0)
    | some (.operator "~") => return -1 - (← primary expression fuel idle)
    | some (.operator "(") =>
      let a ← assignment expression fuel idle
      if ← tryOperator ")" then pure a else bad expression "expecting \x27)\x27"
    | _ => bad expression "expecting primary"

end

/-- The value of an expression. -/
def evaluate (expression : Raw) : Act Int := do
  let (a, rest) ← (assignment expression (16 * expression.length + 16) false).run
    (tokens (expression.length + 1) expression)
  if rest.isEmpty then pure a else bad expression "expecting EOF"

end LiveUnits.Shell.Arithmetic
