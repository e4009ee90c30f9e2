import LiveUnits.Wasm.Text.Field
import LiveUnits.Wasm.Module

/-!
# Assembling modules

From the fields of the text form to a module.  Imports come before all definitions, every name stands
for one thing of its kind, and function types that are only used are added behind those that are
declared, in the order of their first use.
-/

namespace LiveUnits.Wasm

namespace Assembly

/-! ## Names -/

/-- What names stand for: the names of the things of each kind, in order. -/
abbrev Names := Space → List (Option String)

/-- The index that a reference stands for.  A number stands for itself, whether there is such a thing
or not. -/
def index (names : Names) (s : Space) : Reference → Except Malformation Nat
  | .number n => .ok n
  | .name n =>
    match (names s).idxOf? (some n) with
    | some i => .ok i
    | none => .error (.unknownName n)

/-- The space in which things of a kind are counted. -/
def spaceOf : Kind → Space
  | .function => .function
  | .table => .table
  | .memory => .memory
  | .global => .global

def importedKind : ImportedItem → Kind
  | .function _ => .function
  | .table _ => .table
  | .memory _ => .memory
  | .global _ => .global

def definedKind : Definition → Kind
  | .function _ _ _ => .function
  | .table _ => .table
  | .filledTable _ _ _ => .table
  | .memory _ => .memory
  | .filledMemory _ _ => .memory
  | .global _ _ => .global

/-- What a field adds to the spaces, with its name.  The contents of a table or memory are a segment
without a name. -/
def slots : Field → List (Space × Option String)
  | .type name _ => [(.type, name)]
  | .imported name _ _ _ what => [(spaceOf (importedKind what), name)]
  | .defined name _ what =>
    (spaceOf (definedKind what), name) ::
      match what with
      | .filledTable _ _ _ => [(.element, none)]
      | .filledMemory _ _ => [(.data, none)]
      | _ => []
  | .elements name _ _ => [(.element, name)]
  | .data name _ => [(.data, name)]
  | _ => []

/-- The names that stand for the things of one kind. -/
def namesIn (all : List (Space × Option String)) (s : Space) : List (Option String) :=
  all.filterMap fun (t, name) => if t = s then some name else none

/-- What names stand for, evaluated once for each kind. -/
def names (fields : List Field) : Names :=
  let all := fields.flatMap slots
  let types := namesIn all .type
  let functions := namesIn all .function
  let tables := namesIn all .table
  let memories := namesIn all .memory
  let globals := namesIn all .global
  let elements := namesIn all .element
  let data := namesIn all .data
  fun
    | .type => types
    | .function => functions
    | .table => tables
    | .memory => memories
    | .global => globals
    | .element => elements
    | .data => data
    | .variable => []
    | .label => []

/-- Refuses names that stand for two things. -/
def checkNames (all : List (Option String)) : Except Malformation Unit :=
  match Module.duplicate? (all.filterMap id) with
  | some s => .error (.unknownName s)
  | none => .ok ()

/-- Refuses imports after a definition. -/
def checkOrder : Bool → List Field → Except Malformation Unit
  | _, [] => .ok ()
  | late, .imported .. :: rest => if late then .error .lateImport else checkOrder late rest
  | _, .defined .. :: rest => checkOrder true rest
  | late, _ :: rest => checkOrder late rest

/-- Refuses a second start. -/
def checkStarts (fields : List Field) : Except Malformation Unit :=
  if (fields.filter fun | .start _ => true | _ => false).length ≤ 1 then .ok ()
  else .error .unknownForm

/-! ## Types -/

/-- Whether the type of a block needs a function type: it takes something or gives more than one
value. -/
def needsType (t : TypeUse) : Bool :=
  t.reference.isNone && t.spelt.any fun s => !s.params.isEmpty || 1 < s.results.length

/-- The type that a phrase uses without referring to it. -/
def phraseType? : Phrase → Option FunctionType
  | .opening _ _ t => if needsType t then some t.type else none
  | .callIndirect _ t _ => if t.reference.isNone then some t.type else none
  | _ => none

/-- The types that phrases use without referring to them. -/
def phraseTypes (ps : List Phrase) : List FunctionType := ps.filterMap phraseType?

/-- The type that a function uses without referring to it. -/
def useType (t : TypeUse) : List FunctionType :=
  if t.reference.isNone then [t.type] else []

/-- The types that elements use without referring to them. -/
def elementTypes : Elements → List FunctionType
  | .functions _ => []
  | .expressions _ list => list.flatMap phraseTypes

/-- The types that a field uses without referring to them. -/
def fieldTypes : Field → List FunctionType
  | .imported _ _ _ _ (.function t) => useType t
  | .defined _ _ (.function t _ body) => useType t ++ phraseTypes body
  | .defined _ _ (.global _ init) => phraseTypes init
  | .defined _ _ (.filledTable _ _ es) => elementTypes es
  | .elements _ target es =>
    (target.map fun t => phraseTypes t.offset).getD [] ++ elementTypes es
  | .data _ target => (target.map fun t => phraseTypes t.offset).getD []
  | _ => []

/-- The function types: first those declared, then those only used. -/
def allTypes (fields : List Field) : List FunctionType :=
  let declared := fields.filterMap fun | .type _ s => some s.type | _ => none
  (fields.flatMap fieldTypes).foldl
    (fun types t => if types.contains t then types else types ++ [t]) declared

/-- What expressions are resolved with. -/
structure Context where
  names : Names
  types : List FunctionType

/-- The index of the type that is used.  A type that is spelt has to be the one referred to, if there
is one. -/
def typeIndex (c : Context) (t : TypeUse) : Except Malformation Nat :=
  match t.reference with
  | none =>
    match c.types.idxOf? t.type with
    | some i => .ok i
    | none => .error .unknownForm
  | some r => do
    let i ← index c.names .type r
    match t.spelt, c.types[i]? with
    | some s, some u => if s.type = u then pure i else throw .typeMismatch
    | _, _ => pure i

def blockType (c : Context) (t : TypeUse) : Except Malformation (BlockType Nat) :=
  if t.reference.isSome || needsType t then do pure (.index (← typeIndex c t))
  else
    match t.type.results with
    | r :: _ => .ok (.value r)
    | [] => .ok .empty

/-! ## Expressions -/

/-- The index that a reference inside an expression stands for. -/
def indexIn (c : Context) (locals labels : List (Option String)) :
    Space → Reference → Except Malformation Nat :=
  index fun
    | .variable => locals
    | .label => labels
    | s => c.names s

/-- Refuses a label at a later part of a block that is not the label of the block. -/
def checkLabel (labels : List (Option String)) (label : Option String) : Except Malformation Unit :=
  match labels, label with
  | l :: _, some s => if l = some s then .ok () else .error (.unknownName s)
  | _, _ => .ok ()

def openerOf (what : Opener) (t : BlockType Nat) : Instruction Nat :=
  match what with
  | .block => .block t
  | .loop => .loop t
  | .conditional => .conditional t

/-- The body that phrases stand for.  `labels` are those of the open blocks, the innermost first. -/
def body (c : Context) (locals : List (Option String)) :
    List (Option String) → List Phrase → Except Malformation Body
  | _, [] => .ok []
  | labels, .plain i :: rest => do
    let first ← i.resolve (indexIn c locals labels)
    pure (first :: (← body c locals labels rest))
  | labels, .opening what label t :: rest => do
    let first := openerOf what (← blockType c t)
    pure (first :: (← body c locals (label :: labels) rest))
  | labels, .otherwise label :: rest => do
    checkLabel labels label
    pure (.otherwise :: (← body c locals labels rest))
  | labels, .finish label :: rest => do
    checkLabel labels label
    pure (.finish :: (← body c locals (labels.drop 1) rest))
  | labels, .callIndirect last t table :: rest => do
    let i ← index c.names .table table
    let type ← typeIndex c t
    let first := if last then .tailCallIndirect type i else .callIndirect type i
    pure (first :: (← body c locals labels rest))

/-- The body of an expression outside functions. -/
def outerBody (c : Context) (ps : List Phrase) : Except Malformation Body := body c [] [] ps

/-- Where a segment goes. -/
def target? (c : Context) (s : Space) : Option Target → Except Malformation (Option (Nat × Body))
  | none => .ok none
  | some t => do pure (some (← index c.names s t.store, ← outerBody c t.offset))

/-- The segment that elements make. -/
def segment (c : Context) (target : Option (Nat × Body)) :
    Elements → Except Malformation ElementSegment
  | .functions rs => do
    let list ← rs.mapM fun r => do pure [.refFunc (← index c.names .function r)]
    pure ⟨.funcref, list, target⟩
  | .expressions t list => do pure ⟨t, ← list.mapM (outerBody c), target⟩

/-! ## Fields -/

/-- Adds exports of the next thing of a kind. -/
def withExports (m : Module) (exports : List String) (kind : Kind) (index : Nat) : Module :=
  { m with exports := m.exports ++ exports.map fun item => (item, kind, index) }

/-- The number of imports of a kind. -/
def importCount (m : Module) (kind : Kind) : Nat :=
  (m.imports.filter fun (_, _, t) => t.kind == kind).length

/-- The names of the parameters of a function; those of a type that is only referred to have
none. -/
def paramNames (c : Context) (index : Nat) (t : TypeUse) : List (Option String) :=
  match t.spelt with
  | some s => s.params.map (·.1)
  | none => ((c.types[index]?.map (·.params)).getD []).map fun _ => none

def addImport (c : Context) (m : Module) (exports : List String) (moduleName item : String)
    (what : ImportedItem) : Except Malformation Module := do
  let t : ExternType ← match what with
    | .function t => do pure (.function (← typeIndex c t))
    | .table t => pure (.table t)
    | .memory t => pure (.memory t)
    | .global t => pure (.global t)
  let m' := withExports m exports t.kind (importCount m t.kind)
  pure { m' with imports := m'.imports ++ [(moduleName, item, t)] }

/-- Adds a table, with a segment if there is one. -/
def addTable (m : Module) (exports : List String) (t : TableType)
    (segments : Nat → List ElementSegment) : Module :=
  let i := importCount m .table + m.tables.length
  let m' := withExports m exports .table i
  { m' with tables := m'.tables ++ [t], elements := m'.elements ++ segments i }

/-- Adds a memory, with a segment if there is one. -/
def addMemory (m : Module) (exports : List String) (t : MemoryType)
    (segments : Nat → List DataTarget) : Module :=
  let i := importCount m .memory + m.memories.length
  let m' := withExports m exports .memory i
  { m' with memories := m'.memories ++ [t], data := m'.data ++ segments i }

/-- The number of bytes of a page. -/
def pageBytes : Nat := 65536

/-- The offset of contents that start at the first address. -/
def zeroOffset (wide : Bool) : Body := [.constant (addressType wide)]

def addDefinition (c : Context) (m : Module) (exports : List String) :
    Definition → Except Malformation Module
  | .function t locals ps => do
    let i ← typeIndex c t
    let all := paramNames c i t ++ locals.map (·.1)
    checkNames all
    let instructions ← body c all [] ps
    let m' := withExports m exports .function (importCount m .function + m.functions.length)
    pure { m' with
      functions := m'.functions ++ [i]
      bodies := m'.bodies ++ [(locals.map (·.2), instructions ++ [.finish])] }
  | .table t => .ok (addTable m exports t fun _ => [])
  | .filledTable element wide es => do
    let s ← segment c none es
    pure (addTable m exports ⟨element, ⟨es.size, some es.size⟩, wide⟩ fun i =>
      [{ s with target := some (i, zeroOffset wide) }])
  | .memory t => .ok (addMemory m exports t fun _ => [])
  | .filledMemory wide size =>
    let pages := (size + pageBytes - 1) / pageBytes
    .ok (addMemory m exports ⟨⟨pages, some pages⟩, wide, false⟩ fun i =>
      [some (i, zeroOffset wide)])
  | .global t init => do
    let b ← outerBody c init
    let m' := withExports m exports .global (importCount m .global + m.globals.length)
    pure { m' with globals := m'.globals ++ [(t, b)] }

/-- Adds what a field says.  Custom sections are left out. -/
def addField (c : Context) (m : Module) : Field → Except Malformation Module
  | .type _ _ => .ok m
  | .custom _ _ _ => .ok m
  | .idle => .ok m
  | .imported _ exports moduleName item what => addImport c m exports moduleName item what
  | .defined _ exports what => addDefinition c m exports what
  | .exported item kind r => do
    let i ← index c.names (spaceOf kind) r
    pure { m with exports := m.exports ++ [(item, kind, i)] }
  | .start r => do pure { m with start := some (← index c.names .function r) }
  | .elements _ target es => do
    let s ← segment c (← target? c .table target) es
    pure { m with elements := m.elements ++ [s] }
  | .data _ target => do
    let t ← target? c .memory target
    pure { m with data := m.data ++ [t] }

/-- Whether an instruction refers to a data segment. -/
def usesData : Instruction Nat → Bool
  | .memoryInit _ _ => true
  | .dataDrop _ => true
  | _ => false

/-- Announces the number of data segments if functions refer to them. -/
def announce (m : Module) : Module :=
  if m.bodies.any fun (_, b) => b.any usesData then { m with announced := some m.data.length }
  else m

/-- The module that fields describe. -/
def ofFields (fields : List Field) : Except Malformation Module := do
  checkStarts fields
  checkOrder false fields
  let ns := names fields
  [Space.type, .function, .table, .memory, .global, .element, .data].forM fun s =>
    checkNames (ns s)
  let c : Context := ⟨ns, allTypes fields⟩
  pure (announce (← fields.foldlM (addField c) { types := c.types }))

/-- The custom sections of fields, in the order in which they stand in the binary form. -/
def customs (fields : List Field) : List Section :=
  let ranked := fields.filterMap fun
    | .custom rank name data => some (rank, Section.custom name data)
    | _ => none
  (ranked.mergeSort fun a b => a.1 ≤ b.1).map (·.2)

end Assembly

end LiveUnits.Wasm
