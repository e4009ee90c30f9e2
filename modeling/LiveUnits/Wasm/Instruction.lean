import LiveUnits.Wasm.Vector
import LiveUnits.Wasm.Access

/-!
# Instructions

The instructions of function bodies and constant expressions, and how the binary form writes them.
An instruction refers to other things by indices of a type `ι`: numbers in the binary form, names or
numbers in the text form.  Constants are kept without their value, because validation asks only for
types.
-/

namespace LiveUnits.Wasm

/-- What an index counts. -/
inductive Space where
  | type
  | function
  | table
  | memory
  | global
  | element
  | data
  | variable
  /-- Open blocks, the innermost first. -/
  | label
  deriving DecidableEq, Repr

/-- What a block takes and gives. -/
inductive BlockType (ι : Type) where
  /-- Nothing. -/
  | empty
  | value (t : ValueType)
  /-- As the function type with an index. -/
  | index (i : ι)
  deriving DecidableEq, Repr

/-- A place in memory. -/
structure Place (ι : Type) where
  memory : ι
  /-- What is added to the address. -/
  offset : Nat
  /-- The alignment that is promised, as a power of two. -/
  alignment : Nat
  deriving DecidableEq, Repr

inductive Instruction (ι : Type) where
  /-- Never comes back. -/
  | unreachable
  /-- Does nothing. -/
  | nop
  /-- Starts a block that a branch leaves. -/
  | block (type : BlockType ι)
  /-- Starts a block that a branch repeats. -/
  | loop (type : BlockType ι)
  /-- Starts a block that is entered on a condition. -/
  | conditional (type : BlockType ι)
  /-- Starts the other half of a conditional block. -/
  | otherwise
  /-- Ends a block. -/
  | finish
  | branch (label : ι)
  | branchIf (label : ι)
  /-- Branches to one of several labels. -/
  | branchTable (labels : List ι) (default : ι)
  | leave
  | call (function : ι)
  /-- Calls a function out of a table. -/
  | callIndirect (type table : ι)
  /-- Leaves the function for another one. -/
  | tailCall (function : ι)
  /-- Leaves the function for one out of a table. -/
  | tailCallIndirect (type table : ι)
  | drop
  /-- Selects one of two numbers. -/
  | select
  /-- Selects one of two values of a type. -/
  | selectOf (types : List ValueType)
  /-- Reads a local variable. -/
  | localGet (index : ι)
  /-- Writes a local variable. -/
  | localSet (index : ι)
  /-- Writes a local variable and keeps the value. -/
  | localTee (index : ι)
  | globalGet (index : ι)
  | globalSet (index : ι)
  /-- Reads an element of a table. -/
  | tableGet (index : ι)
  /-- Writes an element of a table. -/
  | tableSet (index : ι)
  /-- Reads or writes memory, or one lane of a vector there. -/
  | access (what : Access) (place : Place ι) (lane : Option Nat)
  /-- Waits until other threads see what was written. -/
  | fence
  /-- Asks for the size of a memory. -/
  | memorySize (memory : ι)
  | memoryGrow (memory : ι)
  | constant (type : ValueType)
  /-- Puts a vector together from the bytes of two others. -/
  | shuffle (lanes : List Nat)
  /-- The empty reference. -/
  | refNull (type : ValueType)
  /-- Asks whether a reference is empty. -/
  | refIsNull
  | refFunc (function : ι)
  /-- Computes, on one lane if one is given. -/
  | compute (what : Operation) (lane : Option Nat)
  /-- Copies a data segment into a memory. -/
  | memoryInit (segment memory : ι)
  | dataDrop (segment : ι)
  /-- Copies within or between memories. -/
  | memoryCopy (target source : ι)
  /-- Fills a part of a memory. -/
  | memoryFill (memory : ι)
  /-- Copies an element segment into a table. -/
  | tableInit (segment table : ι)
  | elementDrop (segment : ι)
  /-- Copies within or between tables. -/
  | tableCopy (target source : ι)
  | tableGrow (table : ι)
  /-- Asks for the size of a table. -/
  | tableSize (table : ι)
  /-- Fills a part of a table. -/
  | tableFill (table : ι)
  deriving Repr

/-- A row of instructions that refer to other things by numbers. -/
abbrev Body := List (Instruction Nat)

/-! ## Resolving indices -/

section Resolve

variable {ι κ ε : Type} (f : Space → ι → Except ε κ)

/-- The block type with its index resolved. -/
def BlockType.resolve : BlockType ι → Except ε (BlockType κ)
  | .empty => .ok .empty
  | .value t => .ok (.value t)
  | .index i => do pure (.index (← f .type i))

/-- The instruction with its indices resolved. -/
def Instruction.resolve : Instruction ι → Except ε (Instruction κ)
  | .unreachable => .ok .unreachable
  | .nop => .ok .nop
  | .block t => do pure (.block (← t.resolve f))
  | .loop t => do pure (.loop (← t.resolve f))
  | .conditional t => do pure (.conditional (← t.resolve f))
  | .otherwise => .ok .otherwise
  | .finish => .ok .finish
  | .branch l => do pure (.branch (← f .label l))
  | .branchIf l => do pure (.branchIf (← f .label l))
  | .branchTable ls l => do pure (.branchTable (← ls.mapM (f .label)) (← f .label l))
  | .leave => .ok .leave
  | .call i => do pure (.call (← f .function i))
  | .callIndirect t i => do pure (.callIndirect (← f .type t) (← f .table i))
  | .tailCall i => do pure (.tailCall (← f .function i))
  | .tailCallIndirect t i => do pure (.tailCallIndirect (← f .type t) (← f .table i))
  | .drop => .ok .drop
  | .select => .ok .select
  | .selectOf ts => .ok (.selectOf ts)
  | .localGet i => do pure (.localGet (← f .variable i))
  | .localSet i => do pure (.localSet (← f .variable i))
  | .localTee i => do pure (.localTee (← f .variable i))
  | .globalGet i => do pure (.globalGet (← f .global i))
  | .globalSet i => do pure (.globalSet (← f .global i))
  | .tableGet i => do pure (.tableGet (← f .table i))
  | .tableSet i => do pure (.tableSet (← f .table i))
  | .access a p lane => do
    pure (.access a ⟨← f .memory p.memory, p.offset, p.alignment⟩ lane)
  | .fence => .ok .fence
  | .memorySize i => do pure (.memorySize (← f .memory i))
  | .memoryGrow i => do pure (.memoryGrow (← f .memory i))
  | .constant t => .ok (.constant t)
  | .shuffle lanes => .ok (.shuffle lanes)
  | .refNull t => .ok (.refNull t)
  | .refIsNull => .ok .refIsNull
  | .refFunc i => do pure (.refFunc (← f .function i))
  | .compute op lane => .ok (.compute op lane)
  | .memoryInit d m => do pure (.memoryInit (← f .data d) (← f .memory m))
  | .dataDrop d => do pure (.dataDrop (← f .data d))
  | .memoryCopy a b => do pure (.memoryCopy (← f .memory a) (← f .memory b))
  | .memoryFill m => do pure (.memoryFill (← f .memory m))
  | .tableInit e t => do pure (.tableInit (← f .element e) (← f .table t))
  | .elementDrop e => do pure (.elementDrop (← f .element e))
  | .tableCopy a b => do pure (.tableCopy (← f .table a) (← f .table b))
  | .tableGrow t => do pure (.tableGrow (← f .table t))
  | .tableSize t => do pure (.tableSize (← f .table t))
  | .tableFill t => do pure (.tableFill (← f .table t))

end Resolve

/-! ## Reading instructions -/

namespace Reader

/-- The type of a block: a mark, a value type, or an index that no value type can be taken for. -/
def blockType : Reader (BlockType Nat) := fun bytes =>
  match bytes with
  | [] => .error .truncated
  | b :: rest =>
    if b = 0x40 then .ok (.empty, rest)
    else if 0x40 < b ∧ b < 0x80 then (valueType bytes).map fun (t, rest) => (.value t, rest)
    else
      match s33 bytes with
      | .ok (i, rest) => if i < 0 then .error (.unknownType b.toNat) else .ok (.index i.toNat, rest)
      | .error m => .error m

/-- The bit that says that an access names its memory. -/
def memoryFlag : Nat := 0x40

/-- A place in memory. -/
def place : Reader (Place Nat) := do
  let flags ← u32
  let named := flags.testBit 6
  let memory ← if named then u32 else pure 0
  let alignment := if named then flags - memoryFlag else flags
  if memoryFlag ≤ alignment then refuse .badLimits
  else pure ⟨memory, ← u64, alignment⟩

/-- A lane, if an instruction chooses one. -/
def lane (lanes : Option Nat) : Reader (Option Nat) := do
  match lanes with
  | some _ => pure (some (← byte).toNat)
  | none => pure none

/-- The instruction with a code that accesses memory or computes. -/
def listed (code : Code) : Reader (Instruction Nat) := do
  match Access.ofCode? code, Operation.ofCode? code with
  | some a, _ => do
    let p ← place
    pure (.access a p (← lane a.lanes))
  | none, some op => pure (.compute op (← lane op.lanes))
  | none, none => refuse (.unknownInstruction code.number)

/-- An instruction on whole segments, memories or tables, or a conversion that keeps to a range. -/
def bulkInstruction : Reader (Instruction Nat) := do
  match ← u32 with
  | 8 => do
    let segment ← u32
    pure (.memoryInit segment (← u32))
  | 9 => pure (.dataDrop (← u32))
  | 10 => do
    let target ← u32
    pure (.memoryCopy target (← u32))
  | 11 => pure (.memoryFill (← u32))
  | 12 => do
    let segment ← u32
    pure (.tableInit segment (← u32))
  | 13 => pure (.elementDrop (← u32))
  | 14 => do
    let target ← u32
    pure (.tableCopy target (← u32))
  | 15 => pure (.tableGrow (← u32))
  | 16 => pure (.tableSize (← u32))
  | 17 => pure (.tableFill (← u32))
  | number => listed ⟨Code.bulk, number⟩

/-- An instruction on vectors. -/
def vectorInstruction : Reader (Instruction Nat) := do
  match ← u32 with
  | 12 => do let _ ← take 16; pure (.constant .v128)
  | 13 => pure (.shuffle ((← take 16).map (·.toNat)))
  | number => listed ⟨Code.vector, number⟩

/-- An instruction that is not interrupted by other threads. -/
def atomicInstruction : Reader (Instruction Nat) := do
  match ← u32 with
  | 3 => do
    let b ← byte
    if b = 0 then pure .fence else refuse (.unknownInstruction b.toNat)
  | number => listed ⟨Code.atomic, number⟩

def instruction : Reader (Instruction Nat) := do
  match ← byte with
  | 0x00 => pure .unreachable
  | 0x01 => pure .nop
  | 0x02 => pure (.block (← blockType))
  | 0x03 => pure (.loop (← blockType))
  | 0x04 => pure (.conditional (← blockType))
  | 0x05 => pure .otherwise
  | 0x0B => pure .finish
  | 0x0C => pure (.branch (← u32))
  | 0x0D => pure (.branchIf (← u32))
  | 0x0E => do
    let labels ← sequence u32
    pure (.branchTable labels (← u32))
  | 0x0F => pure .leave
  | 0x10 => pure (.call (← u32))
  | 0x11 => do
    let type ← u32
    pure (.callIndirect type (← u32))
  | 0x12 => pure (.tailCall (← u32))
  | 0x13 => do
    let type ← u32
    pure (.tailCallIndirect type (← u32))
  | 0x1A => pure .drop
  | 0x1B => pure .select
  | 0x1C => pure (.selectOf (← sequence valueType))
  | 0x20 => pure (.localGet (← u32))
  | 0x21 => pure (.localSet (← u32))
  | 0x22 => pure (.localTee (← u32))
  | 0x23 => pure (.globalGet (← u32))
  | 0x24 => pure (.globalSet (← u32))
  | 0x25 => pure (.tableGet (← u32))
  | 0x26 => pure (.tableSet (← u32))
  | 0x3F => pure (.memorySize (← u32))
  | 0x40 => pure (.memoryGrow (← u32))
  | 0x41 => do let _ ← s32; pure (.constant .i32)
  | 0x42 => do let _ ← s64; pure (.constant .i64)
  | 0x43 => do let _ ← take 4; pure (.constant .f32)
  | 0x44 => do let _ ← take 8; pure (.constant .f64)
  | 0xD0 => pure (.refNull (← heapType))
  | 0xD1 => pure .refIsNull
  | 0xD2 => pure (.refFunc (← u32))
  | 0xFC => bulkInstruction
  | 0xFD => vectorInstruction
  | 0xFE => atomicInstruction
  | code => listed ⟨0, code.toNat⟩

/-- Instructions up to the end of the block they stand in. -/
def expressionUpTo : Nat → Reader Body
  | 0 => refuse .truncated
  | fuel + 1 => do
    match ← instruction with
    | .finish => pure []
    | i => do
      let others ← expressionUpTo fuel
      pure (i :: others)

/-- A constant expression, without its end. -/
def expression : Reader Body := do expressionUpTo ((← get).length + 1)

/-- Instructions up to the end of the bytes. -/
def bodyUpTo : Nat → Reader Body
  | 0 => refuse .truncated
  | fuel + 1 => do
    if (← get).isEmpty then pure []
    else
      let i ← instruction
      let others ← bodyUpTo fuel
      pure (i :: others)

/-- A function body, with its last end. -/
def body : Reader Body := do bodyUpTo ((← get).length + 1)

end Reader

end LiveUnits.Wasm
