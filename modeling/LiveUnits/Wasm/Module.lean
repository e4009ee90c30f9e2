import LiveUnits.Wasm.Section
import LiveUnits.Wasm.Typing

/-!
# Modules

What the sections of a module say, and when that is valid.  Of a valid module only its interface is
kept: what it imports and what it exports.
-/

namespace LiveUnits.Wasm

/-- What a module takes from others and gives to others. -/
structure Interface where
  imports : List Import
  /-- The exports in order.  No name occurs twice. -/
  exports : List Export
  deriving DecidableEq, Repr

/-- The kind of an export by its name. -/
def Interface.exportKind? (i : Interface) (item : String) : Option Kind :=
  (i.exports.find? (·.item == item)).map (·.kind)

/-- An element segment: the type of its elements, the expressions that give them, and for an active
segment its table and offset. -/
structure ElementSegment where
  type : ValueType
  elements : List Body
  /-- Where the elements go. -/
  target : Option (Nat × Body)

/-- Where a data segment goes, absent for a passive one. -/
abbrev DataTarget := Option (Nat × Body)

/-- A module as its sections give it. -/
structure Module where
  types : List FunctionType := []
  /-- The imports: the other module, the item, and its type. -/
  imports : List (String × String × ExternType) := []
  functions : List Nat := []
  tables : List TableType := []
  memories : List MemoryType := []
  /-- The globals with the expressions that give their values. -/
  globals : List (GlobalType × Body) := []
  /-- The exports: the item, its kind, and its index. -/
  exports : List (String × Kind × Nat) := []
  /-- The function that runs at the start. -/
  start : Option Nat := none
  elements : List ElementSegment := []
  /-- The number of data segments, if it is announced. -/
  announced : Option Nat := none
  /-- The function bodies: their local variables and instructions. -/
  bodies : List (List ValueType × Body) := []
  /-- Where the data segments go. -/
  data : List DataTarget := []
  /-- Whether it asks for something that is switched off. -/
  unsupported : Bool := false

/-! ## Reading the sections -/

namespace Reader

def importItem : Reader (String × String × ExternType) := do
  let moduleName ← name
  let item ← name
  pure (moduleName, item, ← externType)

def exportItem : Reader (String × Kind × Nat) := do
  let item ← name
  let k ← kind
  pure (item, k, ← u32)

def globalItem : Reader (GlobalType × Body) := do
  let t ← globalType
  pure (t, ← expression)

/-- The kind of elements that are functions. -/
def elementKind : Reader ValueType := do
  match ← byte with
  | 0x00 => pure .funcref
  | b => refuse (.unknownType b.toNat)

/-- Elements given by the indices of functions. -/
def elementIndices : Reader (List Body) := do
  pure ((← sequence u32).map fun i => [.refFunc i])

def elementSegment : Reader ElementSegment := do
  match ← u32 with
  | 0 => do
    let offset ← expression
    pure ⟨.funcref, ← elementIndices, some (0, offset)⟩
  | 1 => do
    let t ← elementKind
    pure ⟨t, ← elementIndices, none⟩
  | 2 => do
    let table ← u32
    let offset ← expression
    let t ← elementKind
    pure ⟨t, ← elementIndices, some (table, offset)⟩
  | 3 => do
    let t ← elementKind
    pure ⟨t, ← elementIndices, none⟩
  | 4 => do
    let offset ← expression
    pure ⟨.funcref, ← sequence expression, some (0, offset)⟩
  | 5 => do
    let t ← referenceType
    pure ⟨t, ← sequence expression, none⟩
  | 6 => do
    let table ← u32
    let offset ← expression
    let t ← referenceType
    pure ⟨t, ← sequence expression, some (table, offset)⟩
  | 7 => do
    let t ← referenceType
    pure ⟨t, ← sequence expression, none⟩
  | n => refuse (.unknownType n)

/-- A data segment, of which only the target is kept. -/
def dataSegment : Reader DataTarget := do
  let target ← match ← u32 with
    | 0 => do pure (some (0, ← expression))
    | 1 => pure none
    | 2 => do
      let memory ← u32
      pure (some (memory, ← expression))
    | n => refuse (.unknownType n)
  let _ ← take (← u32)
  pure target

/-- The greatest number of local variables that are read. -/
def localLimit : Nat := 50000

/-- Local variables of one type. -/
def localGroup : Reader (Nat × ValueType) := do
  let count ← u32
  pure (count, ← valueType)

def functionBody : Reader (List ValueType × Body) := do
  let bytes ← take (← u32)
  let read : Reader (List ValueType × Body) := do
    let groups ← sequence localGroup
    if localLimit < (groups.map (·.1)).foldl (· + ·) 0 then refuse .badLimits
    else pure (groups.flatMap fun (count, t) => List.replicate count t, ← body)
  match runAll read bytes with
  | .ok b => pure b
  | .error m => refuse m

end Reader

namespace Module

/-- Adds what a section says. -/
def addSection (m : Module) (number : Nat) (contents : Bytes) : Except Malformation Module :=
  let read {α : Type} (item : Reader α) := Reader.runAll (Reader.sequence item) contents
  match number with
  | 1 => do pure { m with types := ← read Reader.functionType }
  | 2 => do pure { m with imports := ← read Reader.importItem }
  | 3 => do pure { m with functions := ← read Reader.u32 }
  | 4 => do pure { m with tables := ← read Reader.tableType }
  | 5 => do pure { m with memories := ← read Reader.memoryType }
  | 6 => do pure { m with globals := ← read Reader.globalItem }
  | 7 => do pure { m with exports := ← read Reader.exportItem }
  | 8 => do pure { m with start := some (← Reader.runAll Reader.u32 contents) }
  | 9 => do pure { m with elements := ← read Reader.elementSegment }
  | 10 => do pure { m with bodies := ← read Reader.functionBody }
  | 11 => do pure { m with data := ← read Reader.dataSegment }
  | 12 => do pure { m with announced := some (← Reader.runAll Reader.u32 contents) }
  | n => .error (.unknownSection n)

/-- The module that sections describe. -/
def ofSections (m : Module) : List Section → Except Malformation Module
  | [] => .ok m
  | .custom _ _ :: rest => m.ofSections rest
  | .plain number contents :: rest => do (← m.addSection number contents).ofSections rest
  | .unknown number :: _ => .error (.unknownSection number)
  | .foreign _ :: _ => .error .component

/-! ## Validation -/

/-- The imports of one kind. -/
def imported {α : Type} (m : Module) (pick : ExternType → Option α) : List α :=
  m.imports.filterMap fun (_, _, t) => pick t

/-- The types that function indices stand for. -/
def functionTypes (m : Module) : Except Malformation (List FunctionType) :=
  (m.imported (fun | .function i => some i | _ => none) ++ m.functions).mapM fun i =>
    match m.types[i]? with
    | some t => .ok t
    | none => .error (.unknownIndex i)

/-- The functions to which an expression refers. -/
def references (body : Body) : List Nat :=
  body.filterMap fun | .refFunc i => some i | _ => none

/-- The functions to which references may be made in bodies. -/
def declared (m : Module) : List Nat :=
  m.exports.filterMap (fun (_, k, i) => if k = .function then some i else none) ++
  m.globals.flatMap (fun (_, init) => references init) ++
  m.elements.flatMap fun e => e.elements.flatMap references

/-- What bodies may refer to. -/
def scope (m : Module) (functions : List FunctionType) : Scope where
  types := m.types
  functions := functions
  tables := m.imported (fun | .table t => some t | _ => none) ++ m.tables
  memories := m.imported (fun | .memory t => some t | _ => none) ++ m.memories
  globals := m.imported (fun | .global t => some t | _ => none) ++ m.globals.map (·.1)
  elements := m.elements.map (·.type)
  segments := m.announced
  declared := m.declared

/-- The operations that a constant expression may use. -/
def constantOperations : List String :=
  ["i32.add", "i32.sub", "i32.mul", "i64.add", "i64.sub", "i64.mul"]

/-- Whether an instruction may stand in a constant expression.  Of the globals only those imported
may be read that cannot change. -/
def isConstant (importedGlobals : List GlobalType) : Instruction Nat → Bool
  | .constant _ => true
  | .refNull _ => true
  | .refFunc _ => true
  | .globalGet i => importedGlobals[i]?.any fun g => !g.mutable
  | .compute op _ => op.name ∈ constantOperations
  | _ => false

/-- Checks a constant expression that gives a value of a type. -/
def checkConstant (m : Module) (s : Scope) (type : ValueType) (body : Body) :
    Except Malformation Unit :=
  let outer := m.imported (fun | .global t => some t | _ => none)
  if body.all (isConstant outer) then
    Typing.checkBody { s with declared := List.range s.functions.length } [] [type]
      (body ++ [.finish])
  else .error .notConstant

/-- Refuses unless a condition holds. -/
def require (condition : Bool) (m : Malformation) : Except Malformation Unit :=
  if condition then .ok () else .error m

/-- The greatest number of tables, and of memories. -/
def storeLimit : Nat := 100

/-- The greatest number of elements of a table with wide addresses or without. -/
def elementLimit (wide : Bool) : Nat := if wide then Nat.pow 2 64 - 1 else Nat.pow 2 32 - 1

/-- The greatest number of pages of a memory with wide addresses or without. -/
def pageLimit (wide : Bool) : Nat := if wide then Nat.pow 2 48 else Nat.pow 2 16

/-- Checks the sizes of tables and memories.  A memory that several threads use has a greatest
size. -/
def checkLimits (s : Scope) : Except Malformation Unit := do
  require (s.tables.length ≤ storeLimit && s.memories.length ≤ storeLimit) .tooMany
  s.tables.forM fun t => require (t.limits.fit (elementLimit t.wide)) .badLimits
  s.memories.forM fun m =>
    require (m.limits.fit (pageLimit m.wide) && (!m.shared || m.limits.max.isSome)) .badLimits

/-- The greatest number of parameters or results of a function. -/
def arityLimit : Nat := 1000

/-- Checks the function types. -/
def checkTypes (m : Module) : Except Malformation Unit :=
  m.types.forM fun t =>
    require (t.params.length ≤ arityLimit && t.results.length ≤ arityLimit) .tooMany

/-- The number of bytes of the longest name of an import or an export. -/
def nameLimit : Nat := 100000

/-- Checks the names of imports and exports. -/
def checkNames (m : Module) : Except Malformation Unit := do
  let fits (name : String) : Bool := name.utf8ByteSize ≤ nameLimit
  m.imports.forM fun (moduleName, item, _) => require (fits moduleName && fits item) .badName
  m.exports.forM fun (item, _, _) => require (fits item) .badName

/-- The size of the type of something: a function counts for itself, its parameters and its results,
and anything else for one. -/
def typeSize (functions : List FunctionType) : Kind → Nat → Nat
  | .function, i =>
    match functions[i]? with
    | some t => 1 + t.params.length + t.results.length
    | none => 1
  | _, _ => 1

/-- What the types of all imports and exports together have to stay below. -/
def typeSizeLimit : Nat := 1000000

/-- Checks the size of the types of all imports and exports together. -/
def checkTypeSizes (m : Module) (functions : List FunctionType) : Except Malformation Unit :=
  let outer := (m.imported fun | .function i => some i | _ => none).length
  let imports := (List.range outer).map (typeSize functions .function)
  let exports := m.exports.map fun (_, k, i) => typeSize functions k i
  let total : List Nat → Nat := List.foldl (· + ·) 0
  require (1 + total imports + (m.imports.length - outer) + total exports < typeSizeLimit) .tooMany

def checkGlobals (m : Module) (s : Scope) : Except Malformation Unit :=
  m.globals.forM fun (t, init) => m.checkConstant s t.value init

/-- The first name that occurs again. -/
def duplicate? : List String → Option String
  | [] => none
  | x :: rest => if x ∈ rest then some x else duplicate? rest

def checkExports (m : Module) (s : Scope) : Except Malformation Unit := do
  m.exports.forM fun (_, k, i) =>
    let count := match k with
      | .function => s.functions.length
      | .table => s.tables.length
      | .memory => s.memories.length
      | .global => s.globals.length
    require (i < count) (.unknownIndex i)
  match duplicate? (m.exports.map (·.1)) with
  | some item => .error (.duplicateExport item)
  | none => pure ()

/-- Checks the function that runs at the start. -/
def checkStart (m : Module) (s : Scope) : Except Malformation Unit :=
  match m.start with
  | none => .ok ()
  | some i => require (s.functions[i]? == some ⟨[], []⟩) .badStart

/-- Checks the element segments. -/
def checkElements (m : Module) (s : Scope) : Except Malformation Unit :=
  m.elements.forM fun e => do
    e.elements.forM (m.checkConstant s e.type)
    match e.target with
    | none => pure ()
    | some (i, offset) =>
      match s.tables[i]? with
      | some t => do
        require (t.element == e.type) .typeMismatch
        m.checkConstant s t.address offset
      | none => throw (.unknownIndex i)

/-- Checks the data segments. -/
def checkData (m : Module) (s : Scope) : Except Malformation Unit :=
  m.data.forM fun target =>
    match target with
    | none => .ok ()
    | some (i, offset) =>
      match s.memories[i]? with
      | some t => m.checkConstant s t.address offset
      | none => throw (.unknownIndex i)

/-- The greatest number of parameters and local variables of a function. -/
def variableLimit : Nat := 50000

def checkBodies (s : Scope) (types : List FunctionType)
    (bodies : List (List ValueType × Body)) : Except Malformation Unit :=
  (types.zip bodies).forM fun (t, locals, body) => do
    require (t.params.length + locals.length ≤ variableLimit) .tooMany
    Typing.checkBody s (t.params ++ locals) t.results body

/-- Checks a module and gives its interface. -/
def check (m : Module) : Except Malformation Interface := do
  require (!m.unsupported) .unsupported
  m.checkTypes
  m.checkNames
  let functions ← m.functionTypes
  let s := m.scope functions
  require (m.functions.length == m.bodies.length) .countMismatch
  checkLimits s
  m.checkGlobals s
  m.checkExports s
  m.checkTypeSizes functions
  m.checkStart s
  m.checkElements s
  m.checkData s
  checkBodies s (functions.drop (functions.length - m.functions.length)) m.bodies
  pure ⟨m.imports.map fun (n, item, t) => ⟨n, item, t.kind⟩,
    m.exports.map fun (item, k, _) => ⟨item, k⟩⟩

/-- The interface of the module that sections describe, if it is valid. -/
def interface (sections : List Section) : Except Malformation Interface := do
  (← ofSections {} sections).check

end Module

end LiveUnits.Wasm
