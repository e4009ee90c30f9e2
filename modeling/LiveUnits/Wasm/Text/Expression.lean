import LiveUnits.Wasm.Text.Phrase

/-!
# Expressions

An expression is a row of phrases.  A folded phrase stands in parentheses with its operands and comes
behind them; a folded block holds its phrases and ends with its parentheses.  A folded conditional
holds its condition, one half behind `then`, and perhaps another behind `else`.
-/

namespace LiveUnits.Wasm

/-- What is open inside an expression, and what its closing parenthesis adds. -/
inductive Level where
  /-- A folded phrase, which comes when its parentheses close. -/
  | folded (p : Phrase)
  /-- A folded conditional, which comes with its first half. -/
  | condition (p : Phrase)
  /-- A folded conditional behind its first half. -/
  | afterFirst
  /-- A folded conditional behind both halves. -/
  | afterSecond
  /-- A half of a conditional, or what stands in an annotation. -/
  | part

/-- Whether a level is one of a conditional, which holds only what stands in parentheses. -/
def Level.isConditional : Level → Bool
  | .condition _ => true
  | .afterFirst => true
  | .afterSecond => true
  | _ => false

namespace Read

/-- The state of an expression: the phrases so far, the last one first, and what is open, the
innermost first. -/
structure Expressing where
  before : List Phrase := []
  /-- What is open. -/
  levels : List Level := []

def Expressing.add (e : Expressing) (p : Phrase) : Expressing := { e with before := p :: e.before }

/-- Opens a level. -/
def Expressing.push (e : Expressing) (l : Level) : Expressing := { e with levels := l :: e.levels }

/-- Replaces the innermost level. -/
def Expressing.turn (e : Expressing) (l : Level) : Expressing :=
  { e with levels := l :: e.levels.drop 1 }

def blockEnd : Phrase := .finish none

/-- The mark of an annotation that says which way a branch goes. -/
def hintMark : String := "metadata.code.branch_hint"

/-- Reads over which way a branch goes: a string of one byte, which is zero or one. -/
def hint : Read Unit := do
  expect (.mark hintMark)
  match ← string with
  | [0] => pure ()
  | [1] => pure ()
  | _ => refuse .numberOutOfRange

/-- What comes behind an opening parenthesis that starts no half of a conditional. -/
def startFolded (e : Expressing) : Read Expressing := do
  match ← ahead with
  | .mark s :: _ =>
    if s = hintMark then do hint; pure (e.push .part) else refuse .unknownForm
  | _ => do
    match ← phrase with
    | .opening .conditional label type => pure (e.push (.condition (.opening .conditional label type)))
    | .opening what label type => pure ((e.add (.opening what label type)).push (.folded blockEnd))
    | p => pure (e.push (.folded p))

/-- What comes behind an opening parenthesis. -/
def openParen (e : Expressing) : Read Expressing := do
  match e.levels with
  | .condition p :: _ =>
    if ← takesKeyword "then" then pure (((e.add p).turn .afterFirst).push .part) else startFolded e
  | .afterFirst :: _ => do
    expect (.keyword "else")
    pure (((e.add (.otherwise none)).turn .afterSecond).push .part)
  | .afterSecond :: _ => refuse .unknownForm
  | _ => startFolded e

def closeParen (e : Expressing) (l : Level) : Read Expressing :=
  let e := { e with levels := e.levels.drop 1 }
  match l with
  | .folded p => pure (e.add p)
  | .condition _ => refuse .unknownForm
  | .afterFirst => pure (e.add blockEnd)
  | .afterSecond => pure (e.add blockEnd)
  | .part => pure e

/-- The phrases up to the end of the parentheses in which the expression stands. -/
def expressionUpTo : Nat → Expressing → Read (List Phrase)
  | 0, _ => refuse .unknownForm
  | fuel + 1, e => do
    match ← ahead, e.levels with
    | [], [] => pure e.before.reverse
    | .closing :: _, [] => pure e.before.reverse
    | .closing :: _, l :: _ => do
      let _ ← token
      expressionUpTo fuel (← closeParen e l)
    | .opening :: _, _ => do
      let _ ← token
      expressionUpTo fuel (← openParen e)
    | _, levels =>
      if levels.head?.any Level.isConditional then refuse .unknownForm
      else expressionUpTo fuel (e.add (← phrase))

def expression : Read (List Phrase) := do expressionUpTo ((← ahead).length + 1) {}

end Read

end LiveUnits.Wasm
