import LiveUnits.Wasm.Operation

/-!
# Operations on vectors

A vector of 128 bits is cut into lanes of one shape.  Operations are listed in the order of their
codes; a code without a name belongs to no instruction.
-/

namespace LiveUnits.Wasm.Operation

/-- Operations on vectors with consecutive codes and the same types. -/
def vectors (first : Nat) (params : List ValueType) (result : ValueType) (names : List String) :
    List Operation :=
  names.mapIdx fun i name => { name, code := ⟨Code.vector, first + i⟩, params, result }

/-- Operations on one vector. -/
def unary (first : Nat) (names : List String) : List Operation :=
  vectors first [.v128] .v128 names

/-- Operations on two vectors. -/
def binary (first : Nat) (names : List String) : List Operation :=
  vectors first [.v128, .v128] .v128 names

/-- Operations on three vectors. -/
def ternary (first : Nat) (names : List String) : List Operation :=
  vectors first [.v128, .v128, .v128] .v128 names

/-- Questions about a vector. -/
def questions (first : Nat) (names : List String) : List Operation :=
  vectors first [.v128] .i32 names

/-- Shifts of all lanes by one number. -/
def shifts (first : Nat) (names : List String) : List Operation :=
  vectors first [.v128, .i32] .v128 names

/-- Reads one of `lanes` lanes. -/
def extract (first lanes : Nat) (lane : ValueType) (names : List String) : List Operation :=
  (vectors first [.v128] lane names).map fun op => { op with lanes := some lanes }

/-- Replaces one of `lanes` lanes. -/
def replace (first lanes : Nat) (lane : ValueType) (names : List String) : List Operation :=
  (vectors first [.v128, lane] .v128 names).map fun op => { op with lanes := some lanes }

/-- Names that begin with a shape. -/
def ofShape (shape : String) (names : List String) : List String :=
  names.map fun name => shape ++ "." ++ name

/-- The operations that make a vector or look at its lanes. -/
def onLanes : List Operation :=
  binary 14 ["i8x16.swizzle"] ++
  vectors 15 [.i32] .v128 ["i8x16.splat", "i16x8.splat", "i32x4.splat"] ++
  vectors 18 [.i64] .v128 ["i64x2.splat"] ++
  vectors 19 [.f32] .v128 ["f32x4.splat"] ++
  vectors 20 [.f64] .v128 ["f64x2.splat"] ++
  extract 21 16 .i32 ["i8x16.extract_lane_s", "i8x16.extract_lane_u"] ++
  replace 23 16 .i32 ["i8x16.replace_lane"] ++
  extract 24 8 .i32 ["i16x8.extract_lane_s", "i16x8.extract_lane_u"] ++
  replace 26 8 .i32 ["i16x8.replace_lane"] ++
  extract 27 4 .i32 ["i32x4.extract_lane"] ++
  replace 28 4 .i32 ["i32x4.replace_lane"] ++
  extract 29 2 .i64 ["i64x2.extract_lane"] ++
  replace 30 2 .i64 ["i64x2.replace_lane"] ++
  extract 31 4 .f32 ["f32x4.extract_lane"] ++
  replace 32 4 .f32 ["f32x4.replace_lane"] ++
  extract 33 2 .f64 ["f64x2.extract_lane"] ++
  replace 34 2 .f64 ["f64x2.replace_lane"]

/-- Comparisons lane by lane, and operations on all bits. -/
def onBits : List Operation :=
  binary 35 (ofShape "i8x16" wholeComparisons) ++
  binary 45 (ofShape "i16x8" wholeComparisons) ++
  binary 55 (ofShape "i32x4" wholeComparisons) ++
  binary 65 (ofShape "f32x4" floatComparisons) ++
  binary 71 (ofShape "f64x2" floatComparisons) ++
  unary 77 ["v128.not"] ++
  binary 78 ["v128.and", "v128.andnot", "v128.or", "v128.xor"] ++
  ternary 82 ["v128.bitselect"] ++
  questions 83 ["v128.any_true"] ++
  unary 94 ["f32x4.demote_f64x2_zero", "f64x2.promote_low_f32x4"]

/-- Operations on lanes of 8 bits. -/
def onBytes : List Operation :=
  unary 96 (ofShape "i8x16" ["abs", "neg", "popcnt"]) ++
  questions 99 (ofShape "i8x16" ["all_true", "bitmask"]) ++
  binary 101 (ofShape "i8x16" ["narrow_i16x8_s", "narrow_i16x8_u"]) ++
  unary 103 (ofShape "f32x4" ["ceil", "floor", "trunc", "nearest"]) ++
  shifts 107 (ofShape "i8x16" ["shl", "shr_s", "shr_u"]) ++
  binary 110 (ofShape "i8x16" ["add", "add_sat_s", "add_sat_u", "sub", "sub_sat_s", "sub_sat_u"]) ++
  unary 116 (ofShape "f64x2" ["ceil", "floor"]) ++
  binary 118 (ofShape "i8x16" ["min_s", "min_u", "max_s", "max_u"]) ++
  unary 122 (ofShape "f64x2" ["trunc"]) ++
  binary 123 (ofShape "i8x16" ["avgr_u"])

/-- Operations on lanes of 16 bits. -/
def onHalves : List Operation :=
  unary 124 (ofShape "i16x8" ["extadd_pairwise_i8x16_s", "extadd_pairwise_i8x16_u"]) ++
  unary 126 (ofShape "i32x4" ["extadd_pairwise_i16x8_s", "extadd_pairwise_i16x8_u"]) ++
  unary 128 (ofShape "i16x8" ["abs", "neg"]) ++
  binary 130 (ofShape "i16x8" ["q15mulr_sat_s"]) ++
  questions 131 (ofShape "i16x8" ["all_true", "bitmask"]) ++
  binary 133 (ofShape "i16x8" ["narrow_i32x4_s", "narrow_i32x4_u"]) ++
  unary 135 (ofShape "i16x8"
    ["extend_low_i8x16_s", "extend_high_i8x16_s", "extend_low_i8x16_u", "extend_high_i8x16_u"]) ++
  shifts 139 (ofShape "i16x8" ["shl", "shr_s", "shr_u"]) ++
  binary 142 (ofShape "i16x8" ["add", "add_sat_s", "add_sat_u", "sub", "sub_sat_s", "sub_sat_u"]) ++
  unary 148 ["f64x2.nearest"] ++
  binary 149 (ofShape "i16x8" ["mul", "min_s", "min_u", "max_s", "max_u"]) ++
  binary 155 (ofShape "i16x8" ["avgr_u", "extmul_low_i8x16_s", "extmul_high_i8x16_s",
    "extmul_low_i8x16_u", "extmul_high_i8x16_u"])

/-- Operations on lanes of 32 bits. -/
def onWords : List Operation :=
  unary 160 (ofShape "i32x4" ["abs", "neg"]) ++
  questions 163 (ofShape "i32x4" ["all_true", "bitmask"]) ++
  unary 167 (ofShape "i32x4"
    ["extend_low_i16x8_s", "extend_high_i16x8_s", "extend_low_i16x8_u", "extend_high_i16x8_u"]) ++
  shifts 171 (ofShape "i32x4" ["shl", "shr_s", "shr_u"]) ++
  binary 174 ["i32x4.add"] ++
  binary 177 ["i32x4.sub"] ++
  binary 181 (ofShape "i32x4" ["mul", "min_s", "min_u", "max_s", "max_u", "dot_i16x8_s"]) ++
  binary 188 (ofShape "i32x4"
    ["extmul_low_i16x8_s", "extmul_high_i16x8_s", "extmul_low_i16x8_u", "extmul_high_i16x8_u"])

/-- Operations on lanes of 64 bits. -/
def onLongs : List Operation :=
  unary 192 (ofShape "i64x2" ["abs", "neg"]) ++
  questions 195 (ofShape "i64x2" ["all_true", "bitmask"]) ++
  unary 199 (ofShape "i64x2"
    ["extend_low_i32x4_s", "extend_high_i32x4_s", "extend_low_i32x4_u", "extend_high_i32x4_u"]) ++
  shifts 203 (ofShape "i64x2" ["shl", "shr_s", "shr_u"]) ++
  binary 206 ["i64x2.add"] ++
  binary 209 ["i64x2.sub"] ++
  binary 213 (ofShape "i64x2" ["mul", "eq", "ne", "lt_s", "gt_s", "le_s", "ge_s",
    "extmul_low_i32x4_s", "extmul_high_i32x4_s", "extmul_low_i32x4_u", "extmul_high_i32x4_u"])

/-- Operations on lanes that are floating point numbers. -/
def onFloats : List Operation :=
  unary 224 (ofShape "f32x4" ["abs", "neg"]) ++
  unary 227 ["f32x4.sqrt"] ++
  binary 228 (ofShape "f32x4" ["add", "sub", "mul", "div", "min", "max", "pmin", "pmax"]) ++
  unary 236 (ofShape "f64x2" ["abs", "neg"]) ++
  unary 239 ["f64x2.sqrt"] ++
  binary 240 (ofShape "f64x2" ["add", "sub", "mul", "div", "min", "max", "pmin", "pmax"]) ++
  unary 248 ["i32x4.trunc_sat_f32x4_s", "i32x4.trunc_sat_f32x4_u", "f32x4.convert_i32x4_s",
    "f32x4.convert_i32x4_u", "i32x4.trunc_sat_f64x2_s_zero", "i32x4.trunc_sat_f64x2_u_zero",
    "f64x2.convert_low_i32x4_s", "f64x2.convert_low_i32x4_u"]

/-- Operations whose results may differ from one machine to another. -/
def relaxed : List Operation :=
  binary 0x100 ["i8x16.relaxed_swizzle"] ++
  unary 0x101 ["i32x4.relaxed_trunc_f32x4_s", "i32x4.relaxed_trunc_f32x4_u",
    "i32x4.relaxed_trunc_f64x2_s_zero", "i32x4.relaxed_trunc_f64x2_u_zero"] ++
  ternary 0x105 ["f32x4.relaxed_madd", "f32x4.relaxed_nmadd", "f64x2.relaxed_madd",
    "f64x2.relaxed_nmadd", "i8x16.relaxed_laneselect", "i16x8.relaxed_laneselect",
    "i32x4.relaxed_laneselect", "i64x2.relaxed_laneselect"] ++
  binary 0x10D ["f32x4.relaxed_min", "f32x4.relaxed_max", "f64x2.relaxed_min",
    "f64x2.relaxed_max", "i16x8.relaxed_q15mulr_s", "i16x8.relaxed_dot_i8x16_i7x16_s"] ++
  ternary 0x113 ["i32x4.relaxed_dot_i8x16_i7x16_add_s"]

/-- All operations. -/
def all : List Operation :=
  onNumbers ++ onLanes ++ onBits ++ onBytes ++ onHalves ++ onWords ++ onLongs ++ onFloats ++ relaxed

def ofCode? (code : Code) : Option Operation := all.find? (·.code == code)

def ofName? (name : String) : Option Operation := all.find? (·.name == name)

end LiveUnits.Wasm.Operation
