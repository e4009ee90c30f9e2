import LiveUnits.Shell.Format
import LiveUnits.Tool.Basic
import LiveUnits.Tool.Order
import LiveUnits.Tool.Regular

/-!
# Tools for numbers

Sequences of decimal numbers, the values of expressions, and the prime factors of numbers.
-/

namespace LiveUnits.Tool

open Shell

/-! ## Sequences -/

/-- A number of a sequence: a whole number of units, each of them a power of ten. -/
structure Step where
  /-- The digits after the point. -/
  places : Nat
  /-- The number without its point. -/
  units : Int
  /-- How many characters it takes. -/
  width : Nat
  deriving Inhabited

namespace Step

/-- The number in smaller units, as many as there are with some digits after the point. -/
def unitsAt (s : Step) (places : Nat) : Int := s.units * Int.pow 10 (places - s.places)

/-- The number that an argument spells, if it spells one. -/
def ofText? (r : Raw) : Option Step :=
  let body := r.dropWhile fun c => isSpace c || c == '+'
  let (sign, unsigned) : Int × Raw := match body with
    | '-' :: rest => (-1, rest)
    | rest => (1, rest)
  if beginsWith "0x" unsigned then
    let ds := unsigned.drop 2
    if !ds.isEmpty && ds.all isHexadecimal then some ⟨0, sign * numberIn 16 ds, 0⟩ else none
  else
    let (front, fraction, after) := readDigits Char.isDigit unsigned
    if front.isEmpty && fraction.isEmpty then none
    else
      let (power, rest) := readExponent 'e' after
      if !rest.isEmpty then none
      else
        let n : Int := sign * number (front ++ fraction)
        let hasPoint := front.length < unsigned.length && unsigned[front.length]? == some '.'
        let places := ((fraction.length : Int) - power).toNat
        let units := if power ≤ fraction.length then n else n * Int.pow 10 (power - fraction.length).toNat
        let plain := (if sign < 0 then 1 else 0) + max front.length 1
        let width := plain + (if hasPoint && !fraction.isEmpty then fraction.length + 1 else 0)
        let moved := if power < 0 then width + power.natAbs + (if hasPoint then 0 else 1)
          else width + (power.toNat - min power.toNat fraction.length) -
            (if places = 0 && !fraction.isEmpty then 1 else 0)
        some ⟨places, units, moved⟩

end Step

/-- A number with some digits after its point, with zeros in front up to some width. -/
def showStep (places width : Nat) (units : Int) : Raw :=
  let body := pointed places false units.natAbs
  let sign : Raw := if units < 0 then ['-'] else []
  sign ++ List.replicate (width - sign.length - body.length) '0' ++ body

/-- The number with some digits after the point, as one of 64 bits. -/
def fractionOf (places : Nat) (units : Int) : Fraction :=
  let x := Float.ofScientific units.natAbs true places
  .ofFloat (if units < 0 then -x else x)

/-- The directive of a format, and what stands before and after it. -/
def formatParts (c : Call) (format : Raw) : Work (Raw × Directive × Raw) := do
  let rec split : Raw → Raw × Raw
    | '%' :: '%' :: rest => let (a, b) := split rest; ('%' :: a, b)
    | '%' :: rest => ([], '%' :: rest)
    | x :: rest => let (a, b) := split rest; (x :: a, b)
    | [] => ([], [])
  let (front, rest) := split format
  match rest with
  | [] => die [c.name, ": format ", quote format, " has no % directive"]
  | _ :: body =>
    let flags := body.takeWhile "-+#0 \x27".toList.contains
    let after := body.drop flags.length
    let width := after.takeWhile Char.isDigit
    let after := after.drop width.length
    let (precision, after) := match after with
      | '.' :: rest =>
        let ds := rest.takeWhile Char.isDigit
        (some (number ds), rest.drop ds.length)
      | rest => (none, rest)
    let after := if after.head? == some 'L' then after.drop 1 else after
    match after with
    | [] => die [c.name, ": format ", quote format, " ends in %"]
    | kind :: tail =>
      if !"aAeEfFgG".toList.contains kind then
        die [c.name, ": format ", quote format, " has unknown %", [kind], " directive"]
      else
        let (tail, more) := split tail
        if !more.isEmpty then die [c.name, ": format ", quote format, " has too many % directives"]
        else pure (front, { flags, width := number width, precision, kind }, tail)

/-- The most numbers that a sequence has before it counts as endless. -/
def sequenceLimit : Nat := Nat.pow 2 17

/-- The tool `seq`. -/
def seq : Program := fun c => do
  let o : Options :=
    { plain := "w", valued := "fs", strict := true
      long := [("equal-width", 'w', none), ("format", 'f', some true), ("separator", 's', some true)] }
  let isNegative (a : Raw) : Bool := match a with
    | '-' :: d :: _ => d.isDigit || d == '.'
    | _ => false
  let given := c.arguments.takeWhile (!isNegative ·)
  let mark : List Raw := if given.length < c.arguments.length then [['-', '-']] else []
  let a ← o.readFrom c (c.arguments.length + 2) (given ++ mark ++ c.arguments.drop given.length)
  let a := { a with operands := mark.foldl List.erase a.operands }
  match a.operands with
  | [] => lacking c "operand"
  | _ :: _ :: _ :: extra :: _ => excess c extra
  | operands =>
    let parts ← match a.last? 'f' with
      | some f => do pure (some (← formatParts c f))
      | none => pure none
    if parts.isSome && a.has 'w' then
      die [c.name, ": format string may not be specified when printing equal width strings", advice c]
    let steps ← operands.mapM fun r =>
      match Step.ofText? r with
      | some s => pure s
      | none => o.misuse c ["invalid floating point argument: ", quote r]
    let one : Step := ⟨0, 1, 1⟩
    let (first, step, last) := match steps with
      | [last] => (one, one, last)
      | [first, last] => (first, one, last)
      | [first, step, last] => (first, step, last)
      | _ => (one, one, one)
    if step.units = 0 then
      o.misuse c ["invalid Zero increment value: ", quote ((operands[1]?).getD [])]
    let places := max first.places step.places
    let common := max places last.places
    let start := first.unitsAt common
    let increment := step.unitsAt common
    let bound := last.unitsAt common
    let isEmpty := if increment < 0 then start < bound else bound < start
    let count := if isEmpty then 0 else ((bound - start) / increment).toNat + 1
    let widthOf (s : Step) : Nat :=
      s.width + (places - s.places) + (if s.places = 0 && places != 0 then 1 else 0)
    let lastWidth := (last.width + places) - last.places +
      (if last.places = 0 && places != 0 then 1 else 0) -
      (if last.places != 0 && places = 0 then 1 else 0)
    let width := if a.has 'w' then max (widthOf first) lastWidth else 0
    let shown (i : Nat) : Raw :=
      let units := first.unitsAt places + i * step.unitsAt places
      match parts with
      | some (front, d, back) => front ++ d.showFraction (fractionOf places units) ++ back
      | none => showStep places width units
    let separator := (a.last? 's').getD ['\n']
    if 0 < count then
      let texts := (List.range (min count sequenceLimit)).map shown
      print (separator.intercalate texts ++ ['\n'])
    if sequenceLimit < count then modify fun p => { p with endless := true }

/-! ## Expressions -/

/-- The value of an expression. -/
inductive Datum where
  /-- A number. -/
  | whole (n : Int)
  | text (r : Raw)

namespace Datum

/-- The text of a value. -/
def raw : Datum → Raw
  | whole n => signed n
  | text r => r

/-- The number that a value is, if it is one. -/
def whole? : Datum → Option Int
  | whole n => some n
  | text ('-' :: r) => if isNumber r then some (-number r) else none
  | text r => if isNumber r then some (number r) else none

/-- Whether a value counts as nothing. -/
def isNull : Datum → Bool
  | whole n => n == 0
  | text [] => true
  | text ('-' :: r) => !r.isEmpty && r.all (· == '0')
  | text r => r.all (· == '0')

end Datum

/-- Work on the arguments of an expression: what is left of them, and the argument before that.  The
name of the tool is known. -/
abbrev Evaluation := ReaderT Raw (StateT (List Raw × Raw) Work)

namespace Evaluation

/-- Ends the work. -/
def give {α : Type} (parts : List Raw) : Evaluation α := do
  let name ← read
  die (name :: ": " :: parts) 2

/-- Takes the next argument if it is the given one. -/
def tries (r : Raw) : Evaluation Bool := do
  match ← get with
  | (a :: rest, _) =>
    if a == r then
      set ((rest, a) : List Raw × Raw)
      pure true
    else pure false
  | _ => pure false

/-- Takes the next argument. -/
def next : Evaluation Raw := do
  match ← get with
  | (a :: rest, _) =>
    set ((rest, a) : List Raw × Raw)
    pure a
  | ([], before) => give ["syntax error: missing argument after ", quote before]

/-- The first of some operators that comes next, taken away. -/
def oneOf : List String → Evaluation (Option String)
  | [] => pure none
  | o :: rest => do
    if ← tries o.toList then pure (some o) else oneOf rest

/-- How a text matches an expression at its front. -/
def matching (a b : Datum) : Evaluation Datum := do
  match Regular.ofText { emptyRanges := true } b.raw with
  | .error message => give [message]
  | .ok (e, groups) =>
    let text := a.raw.toArray
    match e.matchAt? text 0 with
    | some m => pure (if 0 < groups then .text (m.group text 1) else .whole m.stop)
    | none => pure (if 0 < groups then .text [] else .whole 0)

/-- The number of a value that has to be one. -/
def numberOf (d : Datum) : Evaluation Int :=
  match d.whole? with
  | some n => pure n
  | none => give ["non-integer argument"]

/-- Whether two values compare as an operator says: as numbers if both are, and else as texts. -/
def compares (operator : String) (a b : Datum) : Bool :=
  let order := match a.whole?, b.whole? with
    | some x, some y => compare x y
    | _, _ => compareRaw a.raw b.raw
  match operator with
  | "<" => order == .lt
  | "<=" => order != .gt
  | "=" | "==" => order == .eq
  | "!=" => order != .eq
  | ">=" => order != .lt
  | _ => order == .gt

/-- A part of a text: from which character on, and how many. -/
def part (r : Raw) (start count : Option Int) : Raw :=
  match start, count with
  | some i, some n => if i ≤ 0 || n ≤ 0 then [] else (r.drop (i.toNat - 1)).take n.toNat
  | _, _ => []

/-- The place of the first character of a text that is in a set; zero if there is none. -/
def placeIn (r set : Raw) : Int :=
  match r.findIdx? set.contains with
  | some i => i + 1
  | none => 0

/-- The operators of two operands, by how they bind; those that bind least come first. -/
def levels : List (List String) :=
  [["|"], ["&"], ["<", "<=", "=", "==", "!=", ">=", ">"], ["+", "-"], ["*", "/", "%"], [":"]]

/-- The value of an operator of two operands.  `counts` tells that the value counts. -/
def apply (counts : Bool) (operator : String) (a b : Datum) : Evaluation Datum := do
  match operator with
  | "|" => pure (if !a.isNull then a else if !b.isNull then b else .whole 0)
  | "&" => pure (if a.isNull || b.isNull then .whole 0 else a)
  | ":" => if counts then matching a b else pure a
  | "+" | "-" | "*" | "/" | "%" =>
    if !counts then pure a
    else
      let x ← numberOf a
      let y ← numberOf b
      if (operator == "/" || operator == "%") && y == 0 then give ["division by zero"]
      else pure (.whole (match operator with
        | "+" => x + y
        | "-" => x - y
        | "*" => x * y
        | "/" => x.tdiv y
        | _ => x.tmod y))
  | operator => pure (.whole (if counts && compares operator a b then 1 else 0))

/-- Whether the second operand of an operator counts, for the first one. -/
def countsAfter (operator : String) (a : Datum) : Bool :=
  match operator with
  | "|" => a.isNull
  | "&" => !a.isNull
  | _ => true

mutual

/-- An expression whose operators bind at least as tightly as those of the first level. -/
def level : Nat → List (List String) → Bool → Evaluation Datum
  | 0, _, _ => give ["syntax error"]
  | fuel + 1, [], counts => function fuel counts
  | fuel + 1, operators :: tighter, counts => do
    let a ← level fuel tighter counts
    others fuel operators tighter counts a

/-- The rest of an expression after its first operand. -/
def others : Nat → List String → List (List String) → Bool → Datum → Evaluation Datum
  | 0, _, _, _, _ => give ["syntax error"]
  | fuel + 1, operators, tighter, counts, a => do
    match ← oneOf operators with
    | none => pure a
    | some o =>
      let b ← level fuel tighter (counts && countsAfter o a)
      others fuel operators tighter counts (← apply counts o a b)

/-- A function of texts, or something simpler. -/
def function : Nat → Bool → Evaluation Datum
  | 0, _ => give ["syntax error"]
  | fuel + 1, counts => do
    match ← oneOf ["+", "length", "match", "index", "substr"] with
    | some "+" => return .text (← next)
    | some "length" => return .whole (← function fuel counts).raw.length
    | some "match" =>
      let a ← function fuel counts
      let b ← function fuel counts
      if counts then matching a b else pure a
    | some "index" =>
      let a ← function fuel counts
      let b ← function fuel counts
      pure (.whole (placeIn a.raw b.raw))
    | some _ =>
      let a ← function fuel counts
      let i ← function fuel counts
      let n ← function fuel counts
      pure (.text (part a.raw i.whole? n.whole?))
    | none =>
      match (← get).1 with
      | ['('] :: _ =>
        let _ ← next
        let a ← level fuel levels counts
        match ← get with
        | ([], before) => give ["syntax error: expecting ')' after ", quote before]
        | (r :: _, _) => if ← tries [')'] then pure a else give ["syntax error: expecting ')' instead of ", quote r]
      | [')'] :: _ => give ["syntax error: unexpected ')'"]
      | _ => return .text (← next)

end

end Evaluation

/-- The tool `expr`. -/
def expr : Program := fun c => do
  let args := match c.arguments with
    | ['-', '-'] :: rest => rest
    | rest => rest
  if args.isEmpty then die [c.name, ": missing operand", advice c] 2
  let (d, left, _) ← ((Evaluation.level (16 * args.length + 16) Evaluation.levels true).run c.name).run (args, [])
  match left with
  | r :: _ => die [c.name, ": syntax error: unexpected argument ", quote r] 2
  | [] =>
    print (line [d.raw])
    if d.isNull then quit 1

/-! ## Factors -/

/-- The prime factors of a number from some divisor on; the first argument bounds the steps. -/
def factorsFrom : Nat → Nat → Nat → List Nat
  | 0, _, n => if 1 < n then [n] else []
  | fuel + 1, d, n =>
    if n < d * d then (if 1 < n then [n] else [])
    else if n % d = 0 then d :: factorsFrom fuel d (n / d)
    else factorsFrom fuel (if d = 2 then 3 else d + 2) n

/-- The tool `factor`. -/
def factor : Program := fun c => do
  let a ← ({} : Options).read c
  let texts ← if a.operands.isEmpty then do pure (wordsOf isSpace (← readInput c)) else pure a.operands
  for r in texts do
    let ds := (match r.dropWhile (· == ' ') with
      | '+' :: rest => rest
      | rest => rest)
    if isNumber ds then
      let n := number ds
      print (line ((digits n ++ [':']) :: (factorsFrom 2000000 2 n).map fun f => ' ' :: digits f))
    else blame [c.name, ": ", quote r, " is not a valid positive integer"]

end LiveUnits.Tool
