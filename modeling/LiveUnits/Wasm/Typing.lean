import LiveUnits.Wasm.Instruction

/-!
# Typing function bodies

A body is checked in one pass, with a stack of operand types and a stack of open blocks.  Behind an
instruction that never comes back the operands are unknown: any type may be taken from there.
-/

namespace LiveUnits.Wasm

/-- What a body may refer to. -/
structure Scope where
  types : List FunctionType
  /-- The functions, imported ones first. -/
  functions : List FunctionType
  /-- The tables, imported ones first. -/
  tables : List TableType
  /-- The memories, imported ones first. -/
  memories : List MemoryType
  /-- The globals, imported ones first. -/
  globals : List GlobalType
  /-- The types of the element segments. -/
  elements : List ValueType
  /-- The number of data segments, if it is announced. -/
  segments : Option Nat
  /-- The functions to which references may be made. -/
  declared : List Nat

/-- An open block. -/
structure Frame where
  /-- What a branch to the block takes. -/
  label : List ValueType
  /-- What the block gives. -/
  results : List ValueType
  /-- What the other half of a conditional block takes, absent for other blocks. -/
  other : Option (List ValueType)
  /-- The number of operands below the block. -/
  height : Nat
  /-- Whether the rest of the block is never reached. -/
  dead : Bool

/-- The state of the check: the operand types, unknown ones absent, and the open blocks. -/
structure Typing where
  /-- The operands, the topmost first. -/
  operands : List (Option ValueType)
  /-- The blocks, the innermost first. -/
  frames : List Frame

namespace Typing

/-- A step of the check. -/
abbrev Step (α : Type) := StateT Typing (Except Malformation) α

/-- Refuses the body. -/
def refuse {α : Type} (m : Malformation) : Step α := fun _ => .error m

/-- What an index refers to. -/
def at? {α : Type} (list : List α) (index : Nat) : Step α :=
  match list[index]? with
  | some a => pure a
  | none => refuse (.unknownIndex index)

/-- Puts operands on the stack, the last one on top. -/
def push (types : List ValueType) : Step Unit :=
  modify fun t => { t with operands := (types.map some).reverse ++ t.operands }

/-- The innermost block. -/
def frame : Step Frame := do
  match (← get).frames with
  | f :: _ => pure f
  | [] => refuse .unbalancedBody

/-- Takes an operand of any type. -/
def popAny : Step (Option ValueType) := do
  let f ← frame
  let t ← get
  if t.operands.length ≤ f.height then
    if f.dead then pure none else refuse .typeMismatch
  else
    match t.operands with
    | o :: rest => do set { t with operands := rest }; pure o
    | [] => refuse .typeMismatch

/-- Takes an operand of a type. -/
def pop (type : ValueType) : Step Unit := do
  match ← popAny with
  | none => pure ()
  | some t => if t = type then pure () else refuse .typeMismatch

/-- Takes operands, the last one from the top. -/
def popAll (types : List ValueType) : Step Unit := types.reverse.forM pop

/-- Takes operands and puts others. -/
def apply (params results : List ValueType) : Step Unit := do
  popAll params
  push results

/-- The rest of the block is never reached. -/
def die : Step Unit := do
  let f ← frame
  modify fun t => {
    operands := t.operands.drop (t.operands.length - f.height)
    frames := { f with dead := true } :: t.frames.drop 1 }

def openBlock (label params results : List ValueType) (other : Option (List ValueType)) :
    Step Unit := do
  popAll params
  modify fun t => { t with frames := ⟨label, results, other, t.operands.length, false⟩ :: t.frames }
  push params

/-- Closes the innermost block. -/
def closeBlock : Step Frame := do
  let f ← frame
  popAll f.results
  let t ← get
  if t.operands.length = f.height then do set { t with frames := t.frames.drop 1 }; pure f
  else refuse .typeMismatch

/-- What a branch to a block takes. -/
def label (index : Nat) : Step (List ValueType) := do
  pure (← at? (← get).frames index).label

def blockType (s : Scope) : BlockType Nat → Step FunctionType
  | .empty => pure ⟨[], []⟩
  | .value t => pure ⟨[], [t]⟩
  | .index i => at? s.types i

/-- Checks a branch to one of several labels. -/
def branchTable (labels : List Nat) (default : Nat) : Step Unit := do
  let arity := (← label default).length
  labels.forM fun l => do
    let types ← label l
    if types.length ≠ arity then refuse .typeMismatch
    else
      let before ← get
      popAll types
      set before
  popAll (← label default)
  die

/-- Checks the selection of one of two values of an unnamed type. -/
def select : Step Unit := do
  pop .i32
  let a ← popAny
  let b ← popAny
  if (a.any ValueType.isReference) || (b.any ValueType.isReference) then refuse .typeMismatch
  else
    match a, b with
    | some t, some u => if t = u then push [t] else refuse .typeMismatch
    | some t, none => push [t]
    | none, some t => push [t]
    | none, none => modify fun t => { t with operands := none :: t.operands }

/-- Checks the index of a data segment. -/
def segment (s : Scope) (index : Nat) : Step Unit :=
  if s.segments.any (index < ·) then pure () else refuse (.unknownIndex index)

/-- What the function as a whole gives. -/
def functionResults : Step (List ValueType) := do
  match (← get).frames.getLast? with
  | some f => pure f.results
  | none => refuse .unbalancedBody

def indirect (s : Scope) (type table : Nat) : Step FunctionType := do
  let t ← at? s.tables table
  if t.element ≠ .funcref then refuse .typeMismatch
  else
    let f ← at? s.types type
    pop t.address
    pure f

/-- Leaves the function for one of the given type. -/
def leaveFor (f : FunctionType) : Step Unit := do
  if f.results = (← functionResults) then
    popAll f.params
    die
  else refuse .typeMismatch

/-- Refuses a lane that a vector does not have. -/
def checkLane (lanes lane : Option Nat) : Step Unit :=
  match lanes, lane with
  | some count, some i => if i < count then pure () else refuse (.unknownIndex i)
  | _, _ => pure ()

/-- Checks an access to memory. -/
def access (s : Scope) (a : Access) (p : Place Nat) (lane : Option Nat) : Step Unit := do
  let m ← at? s.memories p.memory
  if a.alignment < p.alignment || (a.exact && a.alignment ≠ p.alignment) then refuse .badLimits
  else if !m.wide && Nat.pow 2 32 ≤ p.offset then refuse .badLimits
  else
    checkLane a.lanes lane
    apply (m.address :: a.params) a.results

/-- The type of the number of items copied between two places: it is wide only if the addresses of
both are. -/
def countType (target source : ValueType) : ValueType :=
  if target = .i64 ∧ source = .i64 then .i64 else .i32

/-- Checks a copy. -/
def copy (target source : ValueType) : Step Unit :=
  apply [target, source, countType target source] []

/-- Checks an instruction in a body with the given local variables. -/
def instruction (s : Scope) (locals : List ValueType) : Instruction Nat → Step Unit
  | .unreachable => die
  | .nop => pure ()
  | .block t => do
    let f ← blockType s t
    openBlock f.results f.params f.results none
  | .loop t => do
    let f ← blockType s t
    openBlock f.params f.params f.results none
  | .conditional t => do
    let f ← blockType s t
    pop .i32
    openBlock f.results f.params f.results (some f.params)
  | .otherwise => do
    let f ← closeBlock
    match f.other with
    | some params => do
      modify fun t => { t with frames := ⟨f.label, f.results, none, f.height, false⟩ :: t.frames }
      push params
    | none => refuse .unbalancedBody
  | .finish => do
    let f ← closeBlock
    if f.other.all (· == f.results) then push f.results else refuse .typeMismatch
  | .branch l => do
    popAll (← label l)
    die
  | .branchIf l => do
    pop .i32
    let types ← label l
    apply types types
  | .branchTable ls l => do
    pop .i32
    branchTable ls l
  | .leave => do
    popAll (← functionResults)
    die
  | .call i => do
    let f ← at? s.functions i
    apply f.params f.results
  | .callIndirect type table => do
    let f ← indirect s type table
    apply f.params f.results
  | .tailCall i => do leaveFor (← at? s.functions i)
  | .tailCallIndirect type table => do leaveFor (← indirect s type table)
  | .drop => do let _ ← popAny
  | .select => select
  | .selectOf types =>
    match types with
    | [t] => apply [t, t, .i32] [t]
    | _ => refuse .typeMismatch
  | .localGet i => do push [← at? locals i]
  | .localSet i => do pop (← at? locals i)
  | .localTee i => do
    let t ← at? locals i
    apply [t] [t]
  | .globalGet i => do push [(← at? s.globals i).value]
  | .globalSet i => do
    let g ← at? s.globals i
    if g.mutable then pop g.value else refuse .immutable
  | .tableGet i => do
    let t ← at? s.tables i
    apply [t.address] [t.element]
  | .tableSet i => do
    let t ← at? s.tables i
    apply [t.address, t.element] []
  | .access a p lane => access s a p lane
  | .fence => pure ()
  | .memorySize i => do push [(← at? s.memories i).address]
  | .memoryGrow i => do
    let m ← at? s.memories i
    apply [m.address] [m.address]
  | .constant t => push [t]
  | .shuffle lanes =>
    if lanes.all (· < 32) then apply [.v128, .v128] [.v128] else refuse .numberOutOfRange
  | .refNull t => push [t]
  | .refIsNull => do
    match ← popAny with
    | none => push [.i32]
    | some t => if t.isReference then push [.i32] else refuse .typeMismatch
  | .refFunc i => do
    let _ ← at? s.functions i
    if i ∈ s.declared then push [.funcref] else refuse (.unknownIndex i)
  | .compute op lane => do
    checkLane op.lanes lane
    apply op.params [op.result]
  | .memoryInit d i => do
    let m ← at? s.memories i
    segment s d
    apply [m.address, .i32, .i32] []
  | .dataDrop d => segment s d
  | .memoryCopy a b => do copy (← at? s.memories a).address (← at? s.memories b).address
  | .memoryFill i => do
    let m ← at? s.memories i
    apply [m.address, .i32, m.address] []
  | .tableInit e i => do
    let t ← at? s.tables i
    if (← at? s.elements e) = t.element then apply [t.address, .i32, .i32] []
    else refuse .typeMismatch
  | .elementDrop e => do let _ ← at? s.elements e
  | .tableCopy a b => do
    let t ← at? s.tables a
    let u ← at? s.tables b
    if t.element = u.element then copy t.address u.address else refuse .typeMismatch
  | .tableGrow i => do
    let t ← at? s.tables i
    apply [t.element, t.address] [t.address]
  | .tableSize i => do push [(← at? s.tables i).address]
  | .tableFill i => do
    let t ← at? s.tables i
    apply [t.address, t.element, t.address] []

/-- Checks instructions one after the other.  Nothing may come after the end of the body. -/
def instructions (s : Scope) (locals : List ValueType) : Body → Step Unit
  | [] => do if (← get).frames.isEmpty then pure () else refuse .unbalancedBody
  | i :: rest => do
    if (← get).frames.isEmpty then refuse .unbalancedBody
    else
      instruction s locals i
      instructions s locals rest

/-- Checks a body that gives values of the given types. -/
def checkBody (s : Scope) (locals results : List ValueType) (body : Body) :
    Except Malformation Unit := do
  let _ ← (instructions s locals body).run ⟨[], [⟨results, results, none, 0, false⟩]⟩

end Typing

end LiveUnits.Wasm
