import LiveUnits.Wasm.Types

/-!
# Operations

The instructions that take operands of fixed types, compute, and give a result: their names in the
text form, their codes, and their types.  They are listed in groups whose codes are consecutive.
This module has the operations on numbers; those on vectors are in `Wasm.Vector`.
-/

namespace LiveUnits.Wasm

/-- The code of an instruction: a byte that announces more instructions, zero if there is none, and a
number. -/
structure Code where
  /-- The byte in front. -/
  page : UInt8
  number : Nat
  deriving DecidableEq, Repr

/-- The byte in front of conversions that keep to a range and of instructions on whole segments. -/
def Code.bulk : UInt8 := 0xFC

/-- The byte in front of instructions on vectors. -/
def Code.vector : UInt8 := 0xFD

/-- The byte in front of instructions that are not interrupted by other threads. -/
def Code.atomic : UInt8 := 0xFE

/-- An instruction that only computes. -/
structure Operation where
  /-- Its name in the text form. -/
  name : String
  code : Code
  /-- What it takes. -/
  params : List ValueType
  /-- What it gives. -/
  result : ValueType
  /-- The number of lanes, of which one is chosen in the instruction; absent if none is. -/
  lanes : Option Nat := none
  deriving DecidableEq, Repr

namespace Operation

/-- Operations with consecutive codes and the same types. -/
def group (start : String) (first : Nat) (params : List ValueType) (result : ValueType)
    (names : List String) : List Operation :=
  names.mapIdx fun i name => { name := start ++ name, code := ⟨0, first + i⟩, params, result }

/-- Conversions with consecutive codes to one type. -/
def conversions (start : String) (first : Nat) (result : ValueType)
    (names : List (String × ValueType)) : List Operation :=
  names.mapIdx fun i (name, t) =>
    { name := start ++ name, code := ⟨0, first + i⟩, params := [t], result }

/-- The comparisons of whole numbers. -/
def wholeComparisons : List String :=
  ["eq", "ne", "lt_s", "lt_u", "gt_s", "gt_u", "le_s", "le_u", "ge_s", "ge_u"]

/-- The comparisons of floating point numbers. -/
def floatComparisons : List String := ["eq", "ne", "lt", "gt", "le", "ge"]

/-- The operations on one whole number. -/
def wholeUnary : List String := ["clz", "ctz", "popcnt"]

/-- The operations on two whole numbers. -/
def wholeBinary : List String :=
  ["add", "sub", "mul", "div_s", "div_u", "rem_s", "rem_u", "and", "or", "xor", "shl", "shr_s",
   "shr_u", "rotl", "rotr"]

/-- The operations on one floating point number. -/
def floatUnary : List String := ["abs", "neg", "ceil", "floor", "trunc", "nearest", "sqrt"]

/-- The operations on two floating point numbers. -/
def floatBinary : List String := ["add", "sub", "mul", "div", "min", "max", "copysign"]

/-- Conversions that keep to the range of the result. -/
def saturating : List Operation :=
  [("i32.trunc_sat_f32_s", .f32, .i32), ("i32.trunc_sat_f32_u", .f32, .i32),
   ("i32.trunc_sat_f64_s", .f64, .i32), ("i32.trunc_sat_f64_u", .f64, .i32),
   ("i64.trunc_sat_f32_s", .f32, .i64), ("i64.trunc_sat_f32_u", .f32, .i64),
   ("i64.trunc_sat_f64_s", .f64, .i64), ("i64.trunc_sat_f64_u", .f64, .i64)].mapIdx
    fun i (name, t, result) => { name, code := ⟨Code.bulk, i⟩, params := [t], result }

/-- The operations on numbers. -/
def onNumbers : List Operation :=
  group "i32." 0x45 [.i32] .i32 ["eqz"] ++
  group "i32." 0x46 [.i32, .i32] .i32 wholeComparisons ++
  group "i64." 0x50 [.i64] .i32 ["eqz"] ++
  group "i64." 0x51 [.i64, .i64] .i32 wholeComparisons ++
  group "f32." 0x5B [.f32, .f32] .i32 floatComparisons ++
  group "f64." 0x61 [.f64, .f64] .i32 floatComparisons ++
  group "i32." 0x67 [.i32] .i32 wholeUnary ++
  group "i32." 0x6A [.i32, .i32] .i32 wholeBinary ++
  group "i64." 0x79 [.i64] .i64 wholeUnary ++
  group "i64." 0x7C [.i64, .i64] .i64 wholeBinary ++
  group "f32." 0x8B [.f32] .f32 floatUnary ++
  group "f32." 0x92 [.f32, .f32] .f32 floatBinary ++
  group "f64." 0x99 [.f64] .f64 floatUnary ++
  group "f64." 0xA0 [.f64, .f64] .f64 floatBinary ++
  conversions "i32." 0xA7 .i32
    [("wrap_i64", .i64), ("trunc_f32_s", .f32), ("trunc_f32_u", .f32), ("trunc_f64_s", .f64),
     ("trunc_f64_u", .f64)] ++
  conversions "i64." 0xAC .i64
    [("extend_i32_s", .i32), ("extend_i32_u", .i32), ("trunc_f32_s", .f32), ("trunc_f32_u", .f32),
     ("trunc_f64_s", .f64), ("trunc_f64_u", .f64)] ++
  conversions "f32." 0xB2 .f32
    [("convert_i32_s", .i32), ("convert_i32_u", .i32), ("convert_i64_s", .i64),
     ("convert_i64_u", .i64), ("demote_f64", .f64)] ++
  conversions "f64." 0xB7 .f64
    [("convert_i32_s", .i32), ("convert_i32_u", .i32), ("convert_i64_s", .i64),
     ("convert_i64_u", .i64), ("promote_f32", .f32)] ++
  conversions "i32." 0xBC .i32 [("reinterpret_f32", .f32)] ++
  conversions "i64." 0xBD .i64 [("reinterpret_f64", .f64)] ++
  conversions "f32." 0xBE .f32 [("reinterpret_i32", .i32)] ++
  conversions "f64." 0xBF .f64 [("reinterpret_i64", .i64)] ++
  group "i32." 0xC0 [.i32] .i32 ["extend8_s", "extend16_s"] ++
  group "i64." 0xC2 [.i64] .i64 ["extend8_s", "extend16_s", "extend32_s"] ++
  saturating

end Operation

end LiveUnits.Wasm
