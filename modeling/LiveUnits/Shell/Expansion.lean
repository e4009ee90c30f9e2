import LiveUnits.Shell.Arithmetic
import LiveUnits.Shell.Field

/-!
# Expansion

What words stand for: their text, with parameters, expressions and the output of commands put in their
places, and with the home directory for a tilde.  Where fields are wanted, values are divided and
patterns stand for files; elsewhere a word is one text.
-/

namespace LiveUnits.Shell

/-- Where a tilde may stand for the home directory. -/
inductive Tilde where
  /-- Nowhere. -/
  | never
  | front
  /-- At the front and after every colon. -/
  | colons
  deriving DecidableEq

/-- How a word is expanded. -/
structure Expanding where
  fields : Bool
  tilde : Tilde

namespace Expanding

/-- A word of a command. -/
def argument : Expanding := ⟨true, .front⟩

/-- The value of an assignment. -/
def value : Expanding := ⟨false, .colons⟩

/-- A word that is one text. -/
def text : Expanding := ⟨false, .front⟩

/-- A text in the script. -/
def document : Expanding := ⟨false, .never⟩

end Expanding

/-! ## Tildes -/

/-- The home directory with a name, if there is one. -/
def State.home? (st : State) (name : Raw) : Option Raw :=
  if name.isEmpty then st.get? "HOME" else if name == ("root" : Raw) then some "/root" else none

/-- The atoms of text that is not quoted.  `here` tells whether a tilde counts at its front, `isEnd`
whether nothing follows the text.  The first argument bounds the number of tildes. -/
def plainAtoms (st : State) (tilde : Tilde) (isEnd : Bool) : Nat → Bool → Raw → List Atom
  | 0, _, r => r.map (.char · true false)
  | _, _, [] => []
  | fuel + 1, here, c :: rest =>
    let more (r : Raw) : List Atom :=
      let run := r.takeWhile (· != ':')
      match r.drop run.length with
      | colon :: after =>
        (run ++ [colon]).map (.char · true false) ++
          plainAtoms st tilde isEnd fuel (tilde == .colons) after
      | [] => run.map (.char · true false)
    if here && c == '~' && tilde != .never then
      let name := rest.takeWhile fun x => x != '/' && !(x == ':' && tilde == .colons)
      let after := rest.drop name.length
      if after.isEmpty && !isEnd then more (c :: rest)
      else
        match st.home? name with
        | some home => home.map (.char · false false) ++ more after
        | none => more (c :: rest)
    else more (c :: rest)

/-! ## Parameters -/

/-- The atoms of the arguments: a field for each. -/
def argumentAtoms (isQuoted : Bool) (arguments : List Raw) : List Atom :=
  (List.intersperse [.split] (arguments.map (atoms isQuoted))).flatten

/-- The atoms of the value of a parameter. -/
def valueAtoms (st : State) (fields isQuoted : Bool) (name : Raw) : List Atom :=
  if fields && (name == ['@'] || (name == ['*'] && !isQuoted)) then argumentAtoms isQuoted st.arguments
  else atoms isQuoted ((st.parameter? name).getD [])

/-- Text of a word in braces: it is divided like a value. -/
def dividing (as : List Atom) : List Atom :=
  as.map fun
    | .char c special _ => .char c special special
    | other => other

/-- Complains that a parameter has no value. -/
def lacksValue {α : Type} (name word tail : Raw) : Act α := fail [name, ": ", word, tail]

/-- The message about a parameter without a value. -/
def notSet : Raw := "parameter not set"

/-- Whether an option of the shell makes a parameter without a value a mistake. -/
def requiresValue (st : State) (name : Raw) : Bool :=
  st.has 'u' && name != ['@'] && name != ['*'] && (st.parameter? name).isNone

/-! ## Words -/

mutual

/-- The atoms of the pieces of a word.  `atFront` tells whether nothing stands before them. -/
def expandParts (output : Command → Act Raw) (e : Expanding) : Bool → List Part → Act (List Atom)
  | _, [] => pure []
  | atFront, part :: rest => do
    let here ← expandPart output e atFront rest.isEmpty part
    let others ← expandParts output e false rest
    pure (here ++ others)

/-- The atoms of a piece of a word. -/
def expandPart (output : Command → Act Raw) (e : Expanding) (atFront isEnd : Bool) : Part → Act (List Atom)
  | .text r true => pure (.present :: r.map (.char · false false))
  | .text r false => do pure (plainAtoms (← get) e.tilde isEnd (r.length + 1) atFront r)
  | .mark => pure [.present]
  | .output script isQuoted => do pure (atoms isQuoted (← output script))
  | .arithmetic expression isQuoted => do
    let as ← expandParts output .document false expression
    let n ← Arithmetic.evaluate (patternOf as).text
    pure (atoms isQuoted (signed n))
  | .parameter name treatment operand isQuoted => do
    let st ← get
    let inside : Act (List Atom) := do
      let as ← expandParts output { e with tilde := if isQuoted then .never else .front } true operand
      pure (if isQuoted then .present :: as else dividing as)
    let pattern : Act Pattern := do
      let as ← expandParts output .text true operand
      pure (patternOf as)
    let itself : Act (List Atom) := do
      let st ← get
      pure (valueAtoms st e.fields isQuoted name)
    let none_ : List Atom := if isQuoted then [.present] else []
    let lacks (orEmpty : Bool) : Bool :=
      match st.parameter? name with
      | none => true
      | some r => orEmpty && r.isEmpty
    let text := (st.parameter? name).getD []
    match treatment with
    | .whole => if requiresValue st name then lacksValue name notSet [] else itself
    | .length =>
      if requiresValue st name then lacksValue name notSet [] else pure (atoms isQuoted (digits text.length))
    | .orElse orEmpty => if lacks orEmpty then inside else itself
    | .ifSet orEmpty => if lacks orEmpty then pure none_ else inside
    | .orAssign orEmpty =>
      if lacks orEmpty then
        let as ← inside
        let value := (patternOf as).text
        if isName name then
          assign name value
          pure (atoms isQuoted value)
        else fail [name, ": bad variable name"]
      else itself
    | .orFail orEmpty =>
      if lacks orEmpty then
        if operand.isEmpty then lacksValue name notSet (if orEmpty then " or null" else [])
        else
          let as ← inside
          lacksValue name (patternOf as).text []
      else itself
    | .cutFront longest =>
      if requiresValue st name then lacksValue name notSet []
      else
        let p ← pattern
        pure (atoms isQuoted (p.cutFront longest text))
    | .cutEnd longest =>
      if requiresValue st name then lacksValue name notSet []
      else
        let p ← pattern
        pure (atoms isQuoted (p.cutEnd longest text))
    | .unknown => fail ["Bad substitution"]

end

/-- Whether a word begins with the arguments in quotation marks, and nothing else is in these; then there
are only as many fields as arguments.  The result is what follows. -/
def quotedArguments? : Word → Option Word
  | .mark :: .parameter ['@'] .whole [] true :: .mark :: rest => some rest
  | _ => none

/-- The atoms of a word.  The first argument bounds the length of the word. -/
def expandWord (output : Command → Act Raw) (e : Expanding) : Nat → Bool → Word → Act (List Atom)
  | 0, _, _ => pure []
  | _, _, [] => pure []
  | fuel + 1, atFront, part :: rest => do
    match quotedArguments? (part :: rest) with
    | some after =>
      let here := valueAtoms (← get) e.fields true ['@']
      let others ← expandWord output e fuel false after
      pure (here ++ others)
    | none =>
      let here ← expandPart output e atFront rest.isEmpty part
      let others ← expandWord output e fuel false rest
      pure (here ++ others)

/-- The fields that a word becomes. -/
def expandFields (output : Command → Act Raw) (w : Word) : Act (List Raw) := do
  let as ← expandWord output .argument (w.length + 1) true w
  let st ← get
  pure ((Fields.ofAtoms st.separators as).flatMap fun p =>
    if st.has 'f' then [p.text] else p.files st.files)

/-- The text that a word becomes. -/
def expandText (output : Command → Act Raw) (e : Expanding) (w : Word) : Act Raw := do
  let as ← expandWord output e (w.length + 1) true w
  pure (patternOf as).text

/-- The pattern that a word becomes. -/
def expandPattern (output : Command → Act Raw) (w : Word) : Act Pattern := do
  let as ← expandWord output .text (w.length + 1) true w
  pure (patternOf as)

end LiveUnits.Shell
