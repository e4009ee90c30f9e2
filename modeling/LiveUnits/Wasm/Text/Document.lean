import LiveUnits.Wasm.Text.Assembly

/-!
# Documents

A text is a module, given by its fields or by its bytes in the binary form, or a component with
modules inside it.  The parentheses of a module may be left out.
-/

namespace LiveUnits.Wasm

inductive ComponentPart where
  /-- A module, with its name. -/
  | inner (name : Option String) (fields : List Field)
  | component (name : Option String) (parts : List ComponentPart)
  | custom (name : String) (data : Bytes)
  /-- A part that holds no sections. -/
  | other

/-- What a text stands for. -/
inductive Document where
  /-- A module given by its fields. -/
  | fields (list : List Field)
  /-- A module or a component in the binary form. -/
  | binary (bytes : Bytes)
  /-- A component given by its parts. -/
  | component (parts : List ComponentPart)

namespace Read

/-- The rest of a module, behind its keyword. -/
def moduleRest : Read Document := do
  let _ ← declaredName?
  if ← takesKeyword "binary" then pure (.binary (← strings)) else pure (.fields (← fields))

/-- The keywords of the parts of a component that hold no sections. -/
def otherParts : List String :=
  ["instance", "alias", "type", "canon", "func", "start", "import", "export"]

/-- The keywords of such parts behind `core`. -/
def otherCoreParts : List String := ["instance", "type", "rec", "alias", "func"]

/-- A part that holds no sections. -/
def otherPart (keywords : List String) (k : String) : Read ComponentPart := do
  if k ∈ keywords then
    skipRest
    pure .other
  else refuse .unknownForm

/-- The rest of a module inside a component, behind its keyword. -/
def innerModule : Read ComponentPart := do
  let name ← declaredName?
  let _ ← exportNames
  match ← importNames? with
  | some _ => do
    skipRest
    pure .other
  | none => pure (.inner name (← fields))

def parts : Nat → Read (List ComponentPart)
  | 0 => refuse .unknownForm
  | fuel + 1 =>
    untilEnd (inParens (do
      match ← token with
      | .mark "custom" => do
        let name ← text
        pure (.custom name (← strings))
      | .mark "producers" => do
        let _ ← producers
        pure .other
      | .keyword "component" => do
        let name ← declaredName?
        let _ ← exportNames
        match ← importNames? with
        | some _ => do
          skipRest
          pure .other
        | none => pure (.component name (← parts fuel))
      | .keyword "core" =>
        match ← token with
        | .keyword "module" => innerModule
        | .keyword k => otherPart otherCoreParts k
        | _ => refuse .unknownForm
      | .keyword k => otherPart otherParts k
      | _ => refuse .unknownForm))

/-- The rest of a component, behind its keyword. -/
def componentRest : Read Document := do
  let _ ← declaredName?
  if ← takesKeyword "binary" then pure (.binary (← strings))
  else pure (.component (← parts ((← ahead).length + 1)))

/-- A text as a whole. -/
def document : Read Document := do
  let ts ← ahead
  if opensGroup "module" ts then inParens (do expect (.keyword "module"); moduleRest)
  else if opensGroup "component" ts then inParens (do expect (.keyword "component"); componentRest)
  else pure (.fields (← fields))

end Read

/-- The document that a text holds, and whether it asks for something that is switched off. -/
def Document.ofText (cs : List Char) : Except Malformation (Document × Bool) :=
  match Token.ofText? cs with
  | none => .error .unreadableText
  | some ts =>
    if Token.isVoid (cs.length + 1) cs then .error .unknownForm else Read.runAll Read.document ts

end LiveUnits.Wasm
