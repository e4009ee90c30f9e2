import LiveUnits.Wasm.Instruction
import LiveUnits.Wasm.Text.Token

/-!
# Reading tokens

The pieces that the grammar of the text form is made of: keywords, names, references, numbers and
what stands in parentheses.  A reading also notes whether the text asks for something that is
switched off; that makes the module invalid, but only once all of it has been read.
-/

namespace LiveUnits.Wasm

/-- A reference to something by number or by name. -/
inductive Reference where
  | number (n : Nat)
  | name (s : String)
  deriving DecidableEq, Repr

/-- The state of a reading. -/
structure Reading where
  /-- What is left. -/
  tokens : List Token
  /-- Whether something is asked for that is switched off. -/
  unsupported : Bool := false

/-- A reader of tokens. -/
abbrev Read (α : Type) := StateT Reading (Except Malformation) α

namespace Read

variable {α : Type}

/-- Refuses the text. -/
def refuse (m : Malformation) : Read α := fun _ => .error m

/-- The next token. -/
def token : Read Token := fun r =>
  match r.tokens with
  | t :: rest => .ok (t, { r with tokens := rest })
  | [] => .error .unknownForm

/-- The tokens that are left. -/
def ahead : Read (List Token) := do pure (← get).tokens

/-- Notes that something is asked for that is switched off. -/
def unsupported : Read Unit := modify fun r => { r with unsupported := true }

/-- Whether nothing is left in the parentheses that are open. -/
def atEnd : Read Bool := do
  match ← ahead with
  | [] => pure true
  | .closing :: _ => pure true
  | _ => pure false

/-- A token that is expected here. -/
def expect (t : Token) : Read Unit := do if (← token) = t then pure () else refuse .unknownForm

/-- What `r` reads, in parentheses. -/
def inParens (r : Read α) : Read α := do
  expect .opening
  let a ← r
  expect .closing
  pure a

/-- What `r` reads, as often as it stands before the end; at most `fuel` times. -/
def untilEndUpTo (r : Read α) : Nat → Read (List α)
  | 0 => pure []
  | fuel + 1 => do
    if ← atEnd then pure []
    else
      let first ← r
      let others ← untilEndUpTo r fuel
      pure (first :: others)

/-- What `r` reads, as often as it stands before the end.  `r` takes at least one token. -/
def untilEnd (r : Read α) : Read (List α) := do untilEndUpTo r (← ahead).length

/-- What `r` reads, as long as the tokens ahead pass a test; at most `fuel` times. -/
def whileAheadUpTo (test : List Token → Bool) (r : Read α) : Nat → Read (List α)
  | 0 => pure []
  | fuel + 1 => do
    if test (← ahead) then
      let first ← r
      let others ← whileAheadUpTo test r fuel
      pure (first :: others)
    else pure []

/-- What `r` reads, as long as the tokens ahead pass a test.  `r` takes at least one token. -/
def whileAhead (test : List Token → Bool) (r : Read α) : Read (List α) := do
  whileAheadUpTo test r (← ahead).length

/-! ## Keywords -/

/-- Whether a keyword comes next. -/
def opensWith (k : String) : List Token → Bool
  | .keyword s :: _ => s == k
  | _ => false

/-- Whether a keyword comes next, behind a parenthesis. -/
def opensGroup (k : String) : List Token → Bool
  | .opening :: rest => opensWith k rest
  | _ => false

/-- Whether the mark of an annotation comes next, behind a parenthesis. -/
def opensNote (s : String) : List Token → Bool
  | .opening :: .mark t :: _ => s == t
  | _ => false

/-- The keyword that comes next, left in place. -/
def keywordAhead? : Read (Option String) := do
  match ← ahead with
  | .keyword s :: _ => pure (some s)
  | _ => pure none

/-- Reads over a keyword if it comes next, and says whether it does. -/
def takesKeyword (k : String) : Read Bool := do
  if opensWith k (← ahead) then
    let _ ← token
    pure true
  else pure false

/-- What `r` reads in parentheses behind a keyword, if that comes next. -/
def group? (k : String) (r : Read α) : Read (Option α) := do
  if opensGroup k (← ahead) then
    let a ← inParens (do expect (.keyword k); r)
    pure (some a)
  else pure none

/-- Skips what is left in the parentheses that are open, of which `depth` are inner ones. -/
def skipUpTo : Nat → Nat → Read Unit
  | 0, _ => pure ()
  | fuel + 1, depth => do
    match ← ahead with
    | .closing :: _ =>
      if depth = 0 then pure ()
      else
        let _ ← token
        skipUpTo fuel (depth - 1)
    | t :: _ => do
      let _ ← token
      if t = .other then refuse .unreadableText
      else skipUpTo fuel (if t = .opening then depth + 1 else depth)
    | [] => refuse .unknownForm

/-- Skips what is left in the parentheses that are open. -/
def skipRest : Read Unit := do skipUpTo ((← ahead).length + 1) 0

/-! ## Strings and names -/

def string : Read Bytes := do
  match ← token with
  | .string bytes => pure bytes
  | _ => refuse .unknownForm

/-- Strings up to the end, one after the other. -/
def strings : Read Bytes := do pure (← untilEnd string).flatten

def text : Read String := do
  match Utf8.decode? (← string) with
  | some s => pure s
  | none => refuse .badName

/-- A name, if one comes next. -/
def name? : Read (Option String) := do
  match ← ahead with
  | .name s :: _ => do
    let _ ← token
    pure (some s)
  | _ => pure none

/-- Reads over a name that is only shown, and says whether one comes next. -/
def takesShownName : Read Bool := do
  if opensNote "name" (← ahead) then
    let _ ← inParens (do expect (.mark "name"); text)
    pure true
  else pure false

/-- A name, with another one behind it that is only shown. -/
def declaredName? : Read (Option String) := do
  let n ← name?
  let _ ← takesShownName
  pure n

/-! ## Numbers and references -/

/-- A whole number. -/
def integer : Read IntegerLiteral := do
  match ← token with
  | .integer i => pure i
  | _ => refuse .unknownForm

/-- Whether a whole number comes next. -/
def integerAhead : Read Bool := do
  match ← ahead with
  | .integer _ :: _ => pure true
  | _ => pure false

/-- A number below a bound, without a minus. -/
def natural (bound : Nat) : Read Nat := do
  match (← integer).below? bound with
  | some n => pure n
  | none => refuse .numberOutOfRange

/-- A number of some bits. -/
def constant (width : Nat) : Read Unit := do
  if (← integer).fits width then pure () else refuse .numberOutOfRange

/-- A floating point number. -/
def floatConstant (f : FloatFormat) : Read Unit := do
  match ← token with
  | .float x => if x.fits f then pure () else refuse .numberOutOfRange
  | .integer i => if i.magnitude < f.overflow then pure () else refuse .numberOutOfRange
  | _ => refuse .unknownForm

/-- Whether a reference comes next. -/
def refersNext : List Token → Bool
  | .integer _ :: _ => true
  | .name _ :: _ => true
  | _ => false

def reference : Read Reference := do
  match ← name? with
  | some s => pure (.name s)
  | none => do pure (.number (← natural (Nat.pow 2 32)))

/-- A reference, if one comes next. -/
def reference? : Read (Option Reference) := do
  if refersNext (← ahead) then pure (some (← reference)) else pure none

/-- A reference, or the one to the first of its kind. -/
def referenceOrFirst : Read Reference := do pure ((← reference?).getD (.number 0))

/-- Two references, or one to the first of its kind and the one that comes next. -/
def referencePair : Read (Reference × Reference) := do
  let a ← reference
  match ← reference? with
  | some b => pure (a, b)
  | none => pure (.number 0, a)

/-- Two references, or two to the first of their kind. -/
def referencesOrFirst : Read (Reference × Reference) := do
  match ← reference? with
  | some a => pure (a, ← reference)
  | none => pure (.number 0, .number 0)

/-- Runs a reader over all tokens. -/
def runAll (r : Read α) (tokens : List Token) : Except Malformation (α × Bool) :=
  match r ⟨tokens, false⟩ with
  | .ok (a, ⟨[], unsupported⟩) => .ok (a, unsupported)
  | .ok (_, ⟨_ :: _, _⟩) => .error .unknownForm
  | .error m => .error m

end Read

end LiveUnits.Wasm
