import LiveUnits.Wasm.Text.Expression

/-!
# Fields

The fields of a module in the text form: types, imports, definitions, exports, the start, segments and
custom sections.  An import or an export may be written inside the definition it belongs to, and so
may the elements of a table and the contents of a memory.
-/

namespace LiveUnits.Wasm

inductive ImportedItem where
  | function (type : TypeUse)
  | table (type : TableType)
  | memory (type : MemoryType)
  | global (type : GlobalType)

/-- The elements of a segment. -/
inductive Elements where
  | functions (references : List Reference)
  | expressions (type : ValueType) (list : List (List Phrase))

/-- The number of elements. -/
def Elements.size : Elements → Nat
  | .functions references => references.length
  | .expressions _ list => list.length

inductive Definition where
  /-- A function with its local variables and its body. -/
  | function (type : TypeUse) (locals : List (Option String × ValueType)) (body : List Phrase)
  | table (type : TableType)
  /-- A table that holds just some elements. -/
  | filledTable (element : ValueType) (wide : Bool) (elements : Elements)
  | memory (type : MemoryType)
  /-- A memory that holds just some bytes. -/
  | filledMemory (wide : Bool) (size : Nat)
  /-- A global with its initial value. -/
  | global (type : GlobalType) (init : List Phrase)

/-- Where a segment goes: the table or memory, and the offset there. -/
structure Target where
  /-- The table or memory. -/
  store : Reference
  offset : List Phrase

inductive Field where
  | type (name : Option String) (signature : Signature)
  /-- An import, with the names it is exported under. -/
  | imported (name : Option String) (exports : List String) (moduleName item : String)
      (what : ImportedItem)
  /-- A definition, with the names it is exported under. -/
  | defined (name : Option String) (exports : List String) (what : Definition)
  | exported (item : String) (kind : Kind) (target : Reference)
  /-- The function that runs at the start. -/
  | start (target : Reference)
  /-- An element segment; without a target it is copied by instructions, if at all. -/
  | elements (name : Option String) (target : Option Target) (elements : Elements)
  /-- A data segment; without a target it is copied by instructions. -/
  | data (name : Option String) (target : Option Target)
  /-- A custom section, and where it stands among the sections. -/
  | custom (rank : Nat) (name : String) (data : Bytes)
  /-- Something that has no effect. -/
  | idle

namespace Read

/-! ## Custom sections -/

/-- The sections in the order in which they stand in the binary form. -/
def sectionNames : List String :=
  ["type", "import", "func", "table", "memory", "tag", "global", "export", "start", "elem", "code",
   "data"]

/-- The rank of a custom section at the very end. -/
def lastRank : Nat := 2 * sectionNames.length + 1

/-- A section, by its keyword: its place in the order. -/
def sectionPlace : Read Nat := do
  match (← keywordAhead?).bind fun s => sectionNames.idxOf? s with
  | some i => do
    let _ ← token
    pure i
  | none => refuse .unknownForm

/-- The rank of a custom section, in parentheses. -/
def rank : Read Nat :=
  inParens (do
    if ← takesKeyword "before" then
      if ← takesKeyword "first" then pure 0 else pure (2 * (← sectionPlace) + 1)
    else
      expect (.keyword "after")
      if ← takesKeyword "last" then pure lastRank else pure (2 * (← sectionPlace) + 2))

/-- A custom section; without a word about its place it stands at the end. -/
def custom : Read Field := do
  let name ← text
  let place ← match ← ahead with
    | .opening :: _ => rank
    | _ => pure lastRank
  pure (.custom place name (← strings))

/-- Reads over what tools made the module. -/
def producers : Read Field := do
  let producer : Read Unit := inParens (do
    match ← token with
    | .keyword k =>
      if k ∈ ["language", "sdk", "processed-by"] then
        let _ ← text
        let _ ← text
        pure ()
      else refuse .unknownForm
    | _ => refuse .unknownForm)
  let _ ← untilEnd producer
  pure .idle

/-- The words for properties of symbols. -/
def symbolFlags : List String :=
  ["binding-weak", "binding-local", "visibility-hidden", "undefined", "exported", "explicit-name",
   "tls", "absolute", "no-strip"]

/-- Reads over a property of a symbol. -/
def symbolFlag : Read Unit := do
  match ← ahead with
  | .keyword k :: _ =>
    if k ∈ symbolFlags then
      let _ ← token
      pure ()
    else refuse .unknownForm
  | _ => do
    let _ ← natural (Nat.pow 2 32)
    pure ()

/-- Reads over what is said to a linker at run time. -/
def linking : Read Field := do
  let size (k : String) : Read Unit := do
    let _ ← group? k (do
      let _ ← natural (Nat.pow 2 32)
      natural (Nat.pow 2 32))
    pure ()
  let item : Read Unit := inParens (do
    match ← token with
    | .keyword "mem-info" => do
      size "memory"
      size "table"
    | .keyword "needed" => do let _ ← untilEnd text
    | .keyword "runtime-path" => do let _ ← untilEnd text
    | .keyword "export-info" => do
      let _ ← text
      let _ ← untilEnd symbolFlag
    | .keyword "import-info" => do
      let _ ← text
      let _ ← text
      let _ ← untilEnd symbolFlag
    | _ => refuse .unknownForm)
  let _ ← untilEnd item
  pure .idle

/-! ## Types -/

/-- The rest of the definition of a type, inside its parentheses.  Of those without supertypes only
the types of functions are switched on. -/
def typeBody : Read Signature := do
  match ← token with
  | .keyword "func" => signature true
  | .keyword k =>
    if k ∈ ["struct", "array", "cont"] then
      unsupported
      skipRest
      pure {}
    else refuse .unknownForm
  | _ => refuse .unknownForm

/-- The definition of a type, which may say that it has no subtypes. -/
def typeDefinition : Read Signature :=
  inParens (do
    if ← takesKeyword "sub" then
      if !(← takesKeyword "final") then unsupported
      match ← reference? with
      | some _ => unsupported
      | none => pure ()
      inParens typeBody
    else typeBody)

def typeField : Read Field := do
  let name ← declaredName?
  pure (.type name (← typeDefinition))

/-! ## Imports and exports -/

/-- What is imported, with its name. -/
def importedItem : Read (Option String × ImportedItem) :=
  inParens (do
    match ← token with
    | .keyword "func" => do
      let name ← declaredName?
      pure (name, .function (← typeUse true))
    | .keyword "table" => do
      let name ← name?
      pure (name, .table (← tableType))
    | .keyword "memory" => do
      let name ← name?
      pure (name, .memory (← memoryType))
    | .keyword "global" => do
      let name ← name?
      pure (name, .global (← globalType))
    | _ => refuse .unknownForm)

def importField : Read Field := do
  let moduleName ← text
  let item ← text
  let (name, what) ← importedItem
  pure (.imported name [] moduleName item what)

def exportedKind : Read Kind := do
  match ← token with
  | .keyword "func" => pure .function
  | .keyword "table" => pure .table
  | .keyword "memory" => pure .memory
  | .keyword "global" => pure .global
  | _ => refuse .unknownForm

def exportField : Read Field := do
  let item ← text
  inParens (do
    let kind ← exportedKind
    pure (.exported item kind (← reference)))

/-- Exports inside a definition. -/
def exportNames : Read (List String) :=
  whileAhead (opensGroup "export") (inParens (do expect (.keyword "export"); text))

/-- An import inside a definition. -/
def importNames? : Read (Option (String × String)) :=
  group? "import" (do
    let moduleName ← text
    pure (moduleName, ← text))

/-! ## Definitions -/

/-- A definition, or an import written as one.  `imported` reads what an import needs and `defined`
what a definition needs. -/
def definition (imported : Read ImportedItem) (defined : Read Definition) : Read Field := do
  let name ← declaredName?
  let exports ← exportNames
  match ← importNames? with
  | some (moduleName, item) => pure (.imported name exports moduleName item (← imported))
  | none => pure (.defined name exports (← defined))

def function : Read Definition := do
  let type ← typeUse true
  let locals ← whileAhead (opensGroup "local")
    (inParens (do expect (.keyword "local"); variableGroup true))
  pure (.function type locals.flatten (← expression))

/-- An element that is an expression, in parentheses: a single phrase, or any number behind a
keyword. -/
def elementExpression : Read (List Phrase) :=
  inParens (do if ← takesKeyword "item" then expression else pure [← phrase])

/-- The elements of a segment up to its end, of a type if one is given. -/
def elementsOf (type : Option ValueType) : Read Elements := do
  match type with
  | none => do
    let _ ← takesKeyword "func"
    pure (.functions (← untilEnd reference))
  | some t => do
    if t = .funcref && refersNext (← ahead) then pure (.functions (← untilEnd reference))
    else pure (.expressions t (← untilEnd elementExpression))

/-- A table, given by its size or by its elements. -/
def table : Read Definition := do
  let wide ← wideness
  if referenceTypeNext (← ahead) then
    let t ← referenceType
    let es ← inParens (do
      expect (.keyword "elem")
      match ← ahead with
      | .opening :: _ => elementsOf (some t)
      | _ => elementsOf none)
    pure (.filledTable t wide es)
  else
    let t ← tableTypeOf wide
    if !(← atEnd) then
      unsupported
      let _ ← expression
    pure (.table t)

/-- How many bytes a number in a data segment takes, and how it is read. -/
def dataNumbers (k : String) : Option (Nat × Read Unit) :=
  match k with
  | "i8" => some (1, constant 8)
  | "i16" => some (2, constant 16)
  | "i32" => some (4, constant 32)
  | "i64" => some (8, constant 64)
  | "f32" => some (4, floatConstant .single)
  | "f64" => some (8, floatConstant .double)
  | "v128" => some (16, vectorConstant)
  | _ => none

/-- A piece of a data segment: a string, or numbers in parentheses.  Only its size is kept. -/
def dataPiece : Read Nat := do
  match ← ahead with
  | .opening :: _ =>
    inParens (do
      match ← token with
      | .keyword k =>
        match dataNumbers k with
        | some (size, number) => pure (size * (← untilEnd number).length)
        | none => refuse .unknownForm
      | _ => refuse .unknownForm)
  | _ => pure (← string).length

def dataSize : Read Nat := do pure ((← untilEnd dataPiece).foldl (· + ·) 0)

/-- A memory, given by its size or by its contents. -/
def memory : Read Definition := do
  let wide ← wideness
  match ← ahead with
  | .opening :: _ => do
    pageSize
    pure (.filledMemory wide (← inParens (do expect (.keyword "data"); dataSize)))
  | _ => pure (.memory (← memoryTypeOf wide))

def global : Read Definition := do
  let t ← globalType
  pure (.global t (← expression))

/-! ## Segments -/

/-- The store of a segment: a number, a reference in parentheses behind a keyword, or the first of
its kind. -/
def store (keyword : String) : Read Reference := do
  if ← integerAhead then pure (.number (← natural (Nat.pow 2 32)))
  else pure ((← group? keyword reference).getD (.number 0))

/-- The offset of an element segment. -/
def elementOffset : Read (List Phrase) :=
  inParens (do
    let _ ← takesKeyword "offset"
    expression)

/-- The offset of a data segment: an expression behind a keyword, or a single phrase that may have
operands. -/
def dataOffset : Read (List Phrase) :=
  inParens (do
    if ← takesKeyword "offset" then expression
    else
      let last ← phrase
      pure ((← expression) ++ [last]))

/-- Whether a number or a parenthesis comes next that opens no type. -/
def targetNext (ts : List Token) : Bool :=
  match ts with
  | .integer _ :: _ => true
  | .opening :: _ => !referenceTypeNext ts
  | _ => false

/-- An element segment. -/
def elementField : Read Field := do
  let name ← declaredName?
  let target : Option Target ←
    if ← takesKeyword "declare" then pure none
    else if targetNext (← ahead) then do
      let store ← store "table"
      pure (some ⟨store, ← elementOffset⟩)
    else pure none
  let type ← if referenceTypeNext (← ahead) then some <$> referenceType else pure none
  pure (.elements name target (← elementsOf type))

/-- A data segment. -/
def dataField : Read Field := do
  let name ← declaredName?
  let target : Option Target ←
    match ← ahead with
    | .string _ :: _ => pure none
    | _ => do
      let store ← store "memory"
      pure (some ⟨store, ← dataOffset⟩)
  let _ ← dataSize
  pure (.data name target)

/-! ## Modules -/

/-- The fields in one pair of parentheses, behind the keyword: one, but for types that are defined
together. -/
def fieldsOf (k : String) : Read (List Field) := do
  match k with
  | "type" => pure [← typeField]
  | "rec" => do
    unsupported
    untilEnd (inParens (do expect (.keyword "type"); typeField))
  | "import" => pure [← importField]
  | "func" => pure [← definition (do pure (.function (← typeUse true))) function]
  | "table" => pure [← definition (do pure (.table (← tableType))) table]
  | "memory" => pure [← definition (do pure (.memory (← memoryType))) memory]
  | "global" => pure [← definition (do pure (.global (← globalType))) global]
  | "export" => pure [← exportField]
  | "start" => pure [.start (← reference)]
  | "elem" => pure [← elementField]
  | "data" => pure [← dataField]
  | "tag" => do
    unsupported
    skipRest
    pure []
  | _ => refuse .unknownForm

/-- The fields in one pair of parentheses. -/
def fieldGroup : Read (List Field) :=
  inParens (do
    match ← token with
    | .keyword k => fieldsOf k
    | .mark "custom" => pure [← custom]
    | .mark "producers" => pure [← producers]
    | .mark "dylink.0" => pure [← linking]
    | _ => refuse .unknownForm)

def fields : Read (List Field) := do pure (← untilEnd fieldGroup).flatten

end Read

end LiveUnits.Wasm
