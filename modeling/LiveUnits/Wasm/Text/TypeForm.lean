import LiveUnits.Wasm.Text.Reading

/-!
# Types in the text form

How types are written: those of values, functions, tables, memories and globals.  A function may name
its type, spell it, or do both.  Types that are switched off are read as well, and noted.
-/

namespace LiveUnits.Wasm

/-- A function type with the names of its parameters. -/
structure Signature where
  /-- The parameters, some with names. -/
  params : List (Option String × ValueType) := []
  results : List ValueType := []
  deriving DecidableEq, Repr

def Signature.type (s : Signature) : FunctionType := ⟨s.params.map (·.2), s.results⟩

/-- The use of a function type: by reference, spelt, or both. -/
structure TypeUse where
  reference : Option Reference
  /-- The type as it is spelt. -/
  spelt : Option Signature
  deriving DecidableEq, Repr

/-- The type that is spelt; without one the function takes and gives nothing. -/
def TypeUse.type (t : TypeUse) : FunctionType := (t.spelt.getD {}).type

namespace Read

/-! ## Values -/

/-- The types of values that are no references. -/
def numberTypes : List (String × ValueType) :=
  [("i32", .i32), ("i64", .i64), ("f32", .f32), ("f64", .f64), ("v128", .v128)]

/-- What references refer to; the type is absent if it is switched off. -/
def heapTypes : List (String × Option ValueType) :=
  [("func", some .funcref), ("extern", some .externref), ("any", none), ("eq", none),
   ("struct", none), ("array", none), ("i31", none), ("exn", none), ("cont", none),
   ("nofunc", none), ("noextern", none), ("none", none), ("noexn", none), ("nocont", none)]

/-- The types of references that have a word of their own. -/
def referenceTypes : List (String × Option ValueType) :=
  [("funcref", some .funcref), ("anyfunc", some .funcref), ("externref", some .externref),
   ("anyref", none), ("eqref", none), ("structref", none), ("arrayref", none), ("i31ref", none),
   ("exnref", none), ("contref", none), ("nullfuncref", none), ("nullexternref", none),
   ("nullref", none), ("nullexnref", none), ("nullcontref", none)]

/-- A type that may be switched off. -/
def supported : Option ValueType → Read ValueType
  | some t => pure t
  | none => do
    unsupported
    pure .funcref

/-- What references refer to. -/
def heapType : Read ValueType := do
  if refersNext (← ahead) then
    let _ ← reference
    supported none
  else
    match ← token with
    | .keyword s =>
      match heapTypes.lookup s with
      | some t => supported t
      | none => refuse .unknownForm
    | _ => refuse .unknownForm

/-- Whether the type of a reference comes next. -/
def referenceTypeNext : List Token → Bool
  | .keyword s :: _ => (referenceTypes.lookup s).isSome
  | .opening :: .keyword s :: _ => s == "ref"
  | _ => false

/-- The type of a reference.  One that cannot be empty is switched off. -/
def referenceType : Read ValueType := do
  match ← ahead with
  | .keyword s :: _ => do
    let _ ← token
    match referenceTypes.lookup s with
    | some t => supported t
    | none => refuse .unknownForm
  | _ =>
    inParens (do
      expect (.keyword "ref")
      if !(← takesKeyword "null") then unsupported
      heapType)

def valueType : Read ValueType := do
  match (← keywordAhead?).bind fun s => numberTypes.lookup s with
  | some t => do
    let _ ← token
    pure t
  | none => referenceType

/-- Variables: one with a name, or any number without. -/
def variableGroup (named : Bool) : Read (List (Option String × ValueType)) := do
  if ← atEnd then pure []
  else
    let n ← if named then name? else pure none
    let shown ← if named then takesShownName else pure false
    if n.isSome || shown then pure [(n, ← valueType)]
    else pure ((← untilEnd valueType).map fun t => (none, t))

/-! ## Functions -/

/-- Whether a parameter or a result comes next. -/
def signatureNext (ts : List Token) : Bool := opensGroup "param" ts || opensGroup "result" ts

/-- Adds a group of parameters or results.  No parameter comes after a result. -/
def signatureGroup (named : Bool) (s : Signature) : Read Signature :=
  inParens (do
    if ← takesKeyword "result" then
      pure { s with results := s.results ++ (← untilEnd valueType) }
    else
      expect (.keyword "param")
      if s.results.isEmpty then
        pure { s with params := s.params ++ (← variableGroup named) }
      else refuse .unknownForm)

/-- The groups that follow those already read. -/
def signatureUpTo (named : Bool) (s : Signature) : Nat → Read Signature
  | 0 => pure s
  | fuel + 1 => do
    if signatureNext (← ahead) then signatureUpTo named (← signatureGroup named s) fuel
    else pure s

/-- A function type in its parts; parameters have names only where that is allowed. -/
def signature (named : Bool) : Read Signature := do
  signatureUpTo named {} (← ahead).length

/-- The use of a function type. -/
def typeUse (named : Bool) : Read TypeUse := do
  let r ← group? "type" reference
  if signatureNext (← ahead) then pure ⟨r, some (← signature named)⟩ else pure ⟨r, none⟩

/-! ## Tables, memories and globals -/

/-- Whether addresses are wide; they are not unless a word says so. -/
def wideness : Read Bool := do
  if ← takesKeyword "i64" then pure true
  else
    let _ ← takesKeyword "i32"
    pure false

/-- The size of something, at least and at most. -/
def limits : Read Limits := do
  let min ← natural (Nat.pow 2 64)
  if ← integerAhead then pure ⟨min, some (← natural (Nat.pow 2 64))⟩ else pure ⟨min, none⟩

/-- Reads over the size of a page, which is switched off. -/
def pageSize : Read Unit := do
  match ← group? "pagesize" (natural (Nat.pow 2 32)) with
  | some n => if n = Nat.pow 2 n.log2 then unsupported else refuse .numberOutOfRange
  | none => pure ()

/-- The rest of the type of a memory. -/
def memoryTypeOf (wide : Bool) : Read MemoryType := do
  let l ← limits
  let shared ← takesKeyword "shared"
  pageSize
  pure ⟨l, wide, shared⟩

def memoryType : Read MemoryType := do memoryTypeOf (← wideness)

/-- Reads over the sharing of a table, which is switched off. -/
def tableSharing : Read Unit := do if ← takesKeyword "shared" then unsupported else pure ()

/-- The rest of the type of a table. -/
def tableTypeOf (wide : Bool) : Read TableType := do
  tableSharing
  let l ← limits
  pure ⟨← referenceType, l, wide⟩

def tableType : Read TableType := do tableTypeOf (← wideness)

def globalType : Read GlobalType := do
  match ← group? "mut" valueType with
  | some t => pure ⟨t, true⟩
  | none => pure ⟨← valueType, false⟩

end Read

end LiveUnits.Wasm
