import LiveUnits.Wasm.Reader

/-!
# Types of modules

Types of values, functions, tables, memories and globals, and how the binary form writes them.
-/

namespace LiveUnits.Wasm

inductive ValueType where
  /-- A number of 32 bits. -/
  | i32
  /-- A number of 64 bits. -/
  | i64
  /-- A floating point number of 32 bits. -/
  | f32
  /-- A floating point number of 64 bits. -/
  | f64
  /-- A vector of 128 bits. -/
  | v128
  /-- A reference to a function. -/
  | funcref
  /-- A reference to something of the host. -/
  | externref
  deriving DecidableEq, Repr

/-- The byte of a type. -/
def ValueType.code : ValueType → UInt8
  | .i32 => 0x7F
  | .i64 => 0x7E
  | .f32 => 0x7D
  | .f64 => 0x7C
  | .v128 => 0x7B
  | .funcref => 0x70
  | .externref => 0x6F

def ValueType.all : List ValueType := [.i32, .i64, .f32, .f64, .v128, .funcref, .externref]

/-- The type with a byte. -/
def ValueType.ofCode? (code : UInt8) : Option ValueType :=
  ValueType.all.find? fun t => t.code == code

def ValueType.isReference : ValueType → Bool
  | .funcref => true
  | .externref => true
  | _ => false

structure FunctionType where
  /-- What it takes. -/
  params : List ValueType
  /-- What it gives. -/
  results : List ValueType
  deriving DecidableEq, Repr

/-- How large something is at least, and at most. -/
structure Limits where
  /-- The least size. -/
  min : Nat
  /-- The greatest size. -/
  max : Option Nat
  deriving DecidableEq, Repr

/-- Whether the sizes are in order and do not exceed a bound. -/
def Limits.fit (l : Limits) (bound : Nat) : Bool :=
  l.min ≤ bound && l.max.all fun m => l.min ≤ m && m ≤ bound

/-- The type of the addresses of tables and memories: wide ones take 64 bits. -/
def addressType (wide : Bool) : ValueType := if wide then .i64 else .i32

structure TableType where
  element : ValueType
  /-- Its size in elements. -/
  limits : Limits
  wide : Bool := false
  deriving DecidableEq, Repr

def TableType.address (t : TableType) : ValueType := addressType t.wide

structure MemoryType where
  /-- Its size in pages. -/
  limits : Limits
  wide : Bool := false
  /-- Whether several threads may use it. -/
  shared : Bool := false
  deriving DecidableEq, Repr

def MemoryType.address (m : MemoryType) : ValueType := addressType m.wide

structure GlobalType where
  value : ValueType
  /-- Whether the value can change. -/
  mutable : Bool
  deriving DecidableEq, Repr

/-- What kind of thing is imported or exported. -/
inductive Kind where
  | function
  | table
  | memory
  | global
  deriving DecidableEq, Repr

/-- The name of a kind. -/
def Kind.text : Kind → String
  | .function => "function"
  | .table => "table"
  | .memory => "memory"
  | .global => "global"

/-- The type of what is imported. -/
inductive ExternType where
  /-- A function, by the index of its type. -/
  | function (index : Nat)
  | table (type : TableType)
  | memory (type : MemoryType)
  | global (type : GlobalType)
  deriving DecidableEq, Repr

def ExternType.kind : ExternType → Kind
  | .function _ => .function
  | .table _ => .table
  | .memory _ => .memory
  | .global _ => .global

/-- An item that a module takes from another. -/
structure Import where
  /-- The name of the other module. -/
  moduleName : String
  /-- The name of the item there. -/
  item : String
  /-- What kind of item it has to be. -/
  kind : Kind
  deriving DecidableEq, Repr

/-- An item that a module gives to others. -/
structure Export where
  item : String
  /-- What kind of item it is. -/
  kind : Kind
  deriving DecidableEq, Repr

namespace Reader

/-- What references refer to; the references may be empty. -/
def heapType : Reader ValueType := do
  match ← byte with
  | 0x70 => pure .funcref
  | 0x6F => pure .externref
  | b => refuse (.unknownType b.toNat)

/-- The mark of a reference type that says what it refers to. -/
def nullableMark : UInt8 := 0x63

def valueType : Reader ValueType := do
  let b ← byte
  if b = nullableMark then heapType
  else
    match ValueType.ofCode? b with
    | some t => pure t
    | none => refuse (.unknownType b.toNat)

def referenceType : Reader ValueType := do
  let t ← valueType
  if t.isReference then pure t else refuse (.unknownType t.code.toNat)

/-- The rest of a function type, after its form. -/
def functionTypeOf (form : UInt8) : Reader FunctionType := do
  if form = 0x60 then pure ⟨← sequence valueType, ← sequence valueType⟩ else refuse (.unknownType form.toNat)

/-- The form of a type that has no subtypes, which may be left out. -/
def finalForm : UInt8 := 0x4F

def functionType : Reader FunctionType := do
  let form ← byte
  if form = finalForm then
    match ← u32 with
    | 0 => functionTypeOf (← byte)
    | n => refuse (.unknownType n)
  else functionTypeOf form

/-- Limits, after flags of which the lowest says whether there is a greatest size. -/
def limits (flags : Nat) : Reader Limits := do
  let min ← u64
  if flags.testBit 0 then pure ⟨min, some (← u64)⟩ else pure ⟨min, none⟩

def tableType : Reader TableType := do
  let element ← referenceType
  let flags := (← byte).toNat
  if flags = 0 || flags = 1 || flags = 4 || flags = 5 then
    pure ⟨element, ← limits flags, flags.testBit 2⟩
  else refuse (.unknownType flags)

def memoryType : Reader MemoryType := do
  let flags := (← byte).toNat
  if flags < 8 then pure ⟨← limits flags, flags.testBit 2, flags.testBit 1⟩
  else refuse (.unknownType flags)

def globalType : Reader GlobalType := do
  let value ← valueType
  match ← byte with
  | 0x00 => pure ⟨value, false⟩
  | 0x01 => pure ⟨value, true⟩
  | b => refuse (.unknownType b.toNat)

/-- The type of an import. -/
def externType : Reader ExternType := do
  match ← byte with
  | 0x00 => pure (.function (← u32))
  | 0x01 => pure (.table (← tableType))
  | 0x02 => pure (.memory (← memoryType))
  | 0x03 => pure (.global (← globalType))
  | b => refuse (.unknownType b.toNat)

/-- The kind of an export. -/
def kind : Reader Kind := do
  match ← byte with
  | 0x00 => pure .function
  | 0x01 => pure .table
  | 0x02 => pure .memory
  | 0x03 => pure .global
  | b => refuse (.unknownType b.toNat)

end Reader

end LiveUnits.Wasm
