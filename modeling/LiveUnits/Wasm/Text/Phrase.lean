import LiveUnits.Wasm.Text.TypeForm

/-!
# Phrases

A phrase is an instruction of the text form.  It refers to other things by number or by name, blocks
have labels, and types of blocks and indirect calls may be spelt.
-/

namespace LiveUnits.Wasm

/-- What opens a block. -/
inductive Opener where
  /-- A block that a branch leaves. -/
  | block
  /-- A block that a branch repeats. -/
  | loop
  /-- A block that is entered on a condition. -/
  | conditional
  deriving DecidableEq, Repr

/-- An instruction of the text form. -/
inductive Phrase where
  /-- An instruction that has neither a label nor a type that may be spelt. -/
  | plain (i : Instruction Reference)
  | opening (what : Opener) (label : Option String) (type : TypeUse)
  /-- Starts the other half of a conditional block. -/
  | otherwise (label : Option String)
  /-- Ends a block. -/
  | finish (label : Option String)
  /-- Calls a function out of a table, as the last thing if `last` says so. -/
  | callIndirect (last : Bool) (type : TypeUse) (table : Reference)

namespace Read

/-- A setting: a number behind a keyword and an equals sign, without a blank. -/
def setting? (keyword : String) (bound : Nat) : Read (Option Nat) := do
  match ← keywordAhead? with
  | some s =>
    let start := (keyword ++ "=").toList
    if start.isPrefixOf s.toList then
      let _ ← token
      match (Literal.integerOfWord? (s.toList.drop start.length)).bind (·.below? bound) with
      | some n => pure (some n)
      | none => refuse .numberOutOfRange
    else pure none
  | none => pure none

/-- A place in memory, with the natural alignment unless another one is set. -/
def place (natural : Nat) : Read (Place Reference) := do
  let memory ← referenceOrFirst
  let offset ← setting? "offset" (Nat.pow 2 64)
  match ← setting? "align" (Nat.pow 2 32) with
  | none => pure ⟨memory, offset.getD 0, natural⟩
  | some n =>
    if n = Nat.pow 2 n.log2 then pure ⟨memory, offset.getD 0, n.log2⟩ else refuse .numberOutOfRange

def laneIndex : Read Nat := do
  let i ← integer
  if i.signed || 256 ≤ i.magnitude then refuse .numberOutOfRange else pure i.magnitude

/-- A lane, if an instruction chooses one. -/
def laneOf (lanes : Option Nat) : Read (Option Nat) := do
  match lanes with
  | some _ => pure (some (← laneIndex))
  | none => pure none

/-- Whether a place comes before the lane: a single number is the lane. -/
def placeNext : List Token → Bool
  | .integer _ :: .integer _ :: _ => true
  | .integer _ :: .keyword s :: _ => s.startsWith "offset=" || s.startsWith "align="
  | .integer _ :: _ => false
  | _ => true

/-- The operands of an access to memory. -/
def access (a : Access) : Read (Instruction Reference) := do
  let p ← if a.lanes.isNone || placeNext (← ahead) then place a.alignment
    else pure ⟨.number 0, 0, a.alignment⟩
  pure (.access a p (← laneOf a.lanes))

/-- `count` times what `r` reads. -/
def times (r : Read Unit) : Nat → Read Unit
  | 0 => pure ()
  | count + 1 => do r; times r count

/-- A constant vector: the shape of its lanes, and a number for each. -/
def vectorConstant : Read Unit := do
  match ← token with
  | .keyword "i8x16" => times (constant 8) 16
  | .keyword "i16x8" => times (constant 16) 8
  | .keyword "i32x4" => times (constant 32) 4
  | .keyword "i64x2" => times (constant 64) 2
  | .keyword "f32x4" => times (floatConstant .single) 4
  | .keyword "f64x2" => times (floatConstant .double) 2
  | _ => refuse .unknownForm

/-- The bytes that a new vector is put together from. -/
def shuffled : Nat → Read (List Nat)
  | 0 => pure []
  | count + 1 => do
    let first ← natural 256
    let others ← shuffled count
    pure (first :: others)

/-- The types between which a selection chooses, absent if none are given. -/
def selectedTypes : Read (Option (List ValueType)) := do
  let result : Read (List ValueType) := inParens (do expect (.keyword "result"); untilEnd valueType)
  if opensGroup "result" (← ahead) then
    pure (some (← whileAhead (opensGroup "result") result).flatten)
  else pure none

/-- The label and the type of a block. -/
def opening (what : Opener) : Read Phrase := do
  let label ← declaredName?
  pure (.opening what label (← typeUse false))

/-- An indirect call: a type, with a table before or behind it. -/
def callIndirect (last : Bool) : Read Phrase := do
  match ← reference? with
  | some t => pure (.callIndirect last (← typeUse false) t)
  | none => do
    let type ← typeUse false
    pure (.callIndirect last type (← referenceOrFirst))

/-- The operands of an instruction on variables, functions and values; absent if the keyword is that
of another instruction. -/
def plainPhrase? (keyword : String) : Option (Read (Instruction Reference)) :=
  match keyword with
  | "unreachable" => some (pure .unreachable)
  | "nop" => some (pure .nop)
  | "br" => some (do pure (.branch (← reference)))
  | "br_if" => some (do pure (.branchIf (← reference)))
  | "br_table" => some (do
    let first ← reference
    let all := first :: (← whileAhead refersNext reference)
    pure (.branchTable all.dropLast (all.getLast?.getD first)))
  | "return" => some (pure .leave)
  | "call" => some (do pure (.call (← reference)))
  | "return_call" => some (do pure (.tailCall (← reference)))
  | "drop" => some (pure .drop)
  | "select" => some (do
    match ← selectedTypes with
    | some types => pure (.selectOf types)
    | none => pure .select)
  | "local.get" => some (do pure (.localGet (← reference)))
  | "local.set" => some (do pure (.localSet (← reference)))
  | "local.tee" => some (do pure (.localTee (← reference)))
  | "global.get" => some (do pure (.globalGet (← reference)))
  | "global.set" => some (do pure (.globalSet (← reference)))
  | "i32.const" => some (do constant 32; pure (.constant .i32))
  | "i64.const" => some (do constant 64; pure (.constant .i64))
  | "f32.const" => some (do floatConstant .single; pure (.constant .f32))
  | "f64.const" => some (do floatConstant .double; pure (.constant .f64))
  | "v128.const" => some (do vectorConstant; pure (.constant .v128))
  | "i8x16.shuffle" => some (do pure (.shuffle (← shuffled 16)))
  | "ref.null" => some (do pure (.refNull (← heapType)))
  | "ref.is_null" => some (pure .refIsNull)
  | "ref.func" => some (do pure (.refFunc (← reference)))
  | _ => none

/-- The operands of an instruction on tables and memories; absent if the keyword is that of another
instruction. -/
def storePhrase? (keyword : String) : Option (Read (Instruction Reference)) :=
  match keyword with
  | "table.get" => some (do pure (.tableGet (← referenceOrFirst)))
  | "table.set" => some (do pure (.tableSet (← referenceOrFirst)))
  | "table.size" => some (do pure (.tableSize (← referenceOrFirst)))
  | "table.grow" => some (do pure (.tableGrow (← referenceOrFirst)))
  | "table.fill" => some (do pure (.tableFill (← referenceOrFirst)))
  | "table.copy" => some (do
    let (target, source) ← referencesOrFirst
    pure (.tableCopy target source))
  | "table.init" => some (do
    let (table, segment) ← referencePair
    pure (.tableInit segment table))
  | "elem.drop" => some (do pure (.elementDrop (← reference)))
  | "memory.size" => some (do pure (.memorySize (← referenceOrFirst)))
  | "memory.grow" => some (do pure (.memoryGrow (← referenceOrFirst)))
  | "memory.fill" => some (do pure (.memoryFill (← referenceOrFirst)))
  | "memory.copy" => some (do
    let (target, source) ← referencesOrFirst
    pure (.memoryCopy target source))
  | "memory.init" => some (do
    let (memory, segment) ← referencePair
    pure (.memoryInit segment memory))
  | "data.drop" => some (do pure (.dataDrop (← reference)))
  | "atomic.fence" => some (pure .fence)
  | _ => none

/-- The operands of an instruction that accesses memory or computes. -/
def listedPhrase (keyword : String) : Read (Instruction Reference) :=
  match Access.ofName? keyword, Operation.ofName? keyword with
  | some a, _ => access a
  | none, some op => do pure (.compute op (← laneOf op.lanes))
  | none, none => refuse .unknownForm

/-- An instruction with its operands, not folded. -/
def phrase : Read Phrase := do
  match ← token with
  | .keyword k =>
    match k with
    | "block" => opening .block
    | "loop" => opening .loop
    | "if" => opening .conditional
    | "else" => pure (.otherwise (← name?))
    | "end" => pure (.finish (← name?))
    | "call_indirect" => callIndirect false
    | "return_call_indirect" => callIndirect true
    | _ =>
      match (plainPhrase? k).or (storePhrase? k) with
      | some r => pure (.plain (← r))
      | none => pure (.plain (← listedPhrase k))
  | _ => refuse .unknownForm

end Read

end LiveUnits.Wasm
