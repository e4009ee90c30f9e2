import LiveUnits.Wasm.Operation

/-!
# Accesses to memory

The instructions that read or write a place in memory.  All of them take an address first; what else
they take and give is listed here, with the natural alignment of the place.
-/

namespace LiveUnits.Wasm

/-- An instruction that reads or writes memory. -/
structure Access where
  /-- Its name in the text form. -/
  name : String
  code : Code
  /-- What it takes besides the address. -/
  params : List ValueType
  /-- What it gives. -/
  results : List ValueType
  /-- The natural alignment, as a power of two. -/
  alignment : Nat
  /-- Whether no other alignment will do. -/
  exact : Bool := false
  /-- The number of lanes, of which one is chosen in the instruction; absent if none is. -/
  lanes : Option Nat := none
  deriving DecidableEq, Repr

namespace Access

/-- Reads and writes of one number. -/
def plain : List Access :=
  [("i32.load", [], [.i32], 2), ("i64.load", [], [.i64], 3), ("f32.load", [], [.f32], 2),
   ("f64.load", [], [.f64], 3), ("i32.load8_s", [], [.i32], 0), ("i32.load8_u", [], [.i32], 0),
   ("i32.load16_s", [], [.i32], 1), ("i32.load16_u", [], [.i32], 1),
   ("i64.load8_s", [], [.i64], 0), ("i64.load8_u", [], [.i64], 0),
   ("i64.load16_s", [], [.i64], 1), ("i64.load16_u", [], [.i64], 1),
   ("i64.load32_s", [], [.i64], 2), ("i64.load32_u", [], [.i64], 2),
   ("i32.store", [.i32], [], 2), ("i64.store", [.i64], [], 3), ("f32.store", [.f32], [], 2),
   ("f64.store", [.f64], [], 3), ("i32.store8", [.i32], [], 0), ("i32.store16", [.i32], [], 1),
   ("i64.store8", [.i64], [], 0), ("i64.store16", [.i64], [], 1),
   ("i64.store32", [.i64], [], 2)].mapIdx
    fun i (name, params, results, alignment) =>
      { name, code := ⟨0, 0x28 + i⟩, params, results, alignment }

/-- Reads of vectors and parts of vectors with consecutive codes. -/
def vectorLoads (first : Nat) (names : List (String × Nat)) : List Access :=
  names.mapIdx fun i (name, alignment) =>
    { name, code := ⟨Code.vector, first + i⟩, params := [], results := [.v128], alignment }

/-- Reads and writes of one lane of a vector. -/
def laneAccesses : List Access :=
  [("v128.load8_lane", [.v128], 0), ("v128.load16_lane", [.v128], 1),
   ("v128.load32_lane", [.v128], 2), ("v128.load64_lane", [.v128], 3),
   ("v128.store8_lane", [], 0), ("v128.store16_lane", [], 1), ("v128.store32_lane", [], 2),
   ("v128.store64_lane", [], 3)].mapIdx
    fun i (name, results, alignment) => {
      name, code := ⟨Code.vector, 84 + i⟩, params := [.v128], results, alignment
      lanes := some (16 / Nat.pow 2 alignment) }

def onVectors : List Access :=
  vectorLoads 0 [("v128.load", 4), ("v128.load8x8_s", 3), ("v128.load8x8_u", 3),
    ("v128.load16x4_s", 3), ("v128.load16x4_u", 3), ("v128.load32x2_s", 3),
    ("v128.load32x2_u", 3), ("v128.load8_splat", 0), ("v128.load16_splat", 1),
    ("v128.load32_splat", 2), ("v128.load64_splat", 3)] ++
  [{ name := "v128.store", code := ⟨Code.vector, 11⟩, params := [.v128], results := []
     alignment := 4 }] ++
  laneAccesses ++
  vectorLoads 92 [("v128.load32_zero", 2), ("v128.load64_zero", 3)]

/-- An access that is not interrupted by other threads. -/
def atomic (name : String) (number : Nat) (params results : List ValueType) (alignment : Nat) :
    Access :=
  { name, code := ⟨Code.atomic, number⟩, params, results, alignment, exact := true }

/-- The places in memory that are changed at once: their name, the type of the value, and whether the
value is a part of that type. -/
def cells : List (String × String × ValueType × Nat) :=
  [("i32.atomic.", "", .i32, 2), ("i64.atomic.", "", .i64, 3), ("i32.atomic.", "8", .i32, 0),
   ("i32.atomic.", "16", .i32, 1), ("i64.atomic.", "8", .i64, 0), ("i64.atomic.", "16", .i64, 1),
   ("i64.atomic.", "32", .i64, 2)]

/-- Accesses of one kind to all places that are changed at once. -/
def toCells (first : Nat) (before after : String) (partEnd : String)
    (params results : ValueType → List ValueType) : List Access :=
  cells.mapIdx fun i (start, width, t, alignment) =>
    atomic (start ++ before ++ width ++ after ++ (if width = "" then "" else partEnd)) (first + i)
      (params t) (results t) alignment

/-- Accesses that are not interrupted by other threads. -/
def atomics : List Access :=
  [atomic "memory.atomic.notify" 0 [.i32] [.i32] 2,
   atomic "memory.atomic.wait32" 1 [.i32, .i64] [.i32] 2,
   atomic "memory.atomic.wait64" 2 [.i64, .i64] [.i32] 3] ++
  toCells 0x10 "load" "" "_u" (fun _ => []) (fun t => [t]) ++
  toCells 0x17 "store" "" "" (fun t => [t]) (fun _ => []) ++
  toCells 0x1E "rmw" ".add" "_u" (fun t => [t]) (fun t => [t]) ++
  toCells 0x25 "rmw" ".sub" "_u" (fun t => [t]) (fun t => [t]) ++
  toCells 0x2C "rmw" ".and" "_u" (fun t => [t]) (fun t => [t]) ++
  toCells 0x33 "rmw" ".or" "_u" (fun t => [t]) (fun t => [t]) ++
  toCells 0x3A "rmw" ".xor" "_u" (fun t => [t]) (fun t => [t]) ++
  toCells 0x41 "rmw" ".xchg" "_u" (fun t => [t]) (fun t => [t]) ++
  toCells 0x48 "rmw" ".cmpxchg" "_u" (fun t => [t, t]) (fun t => [t])

def all : List Access := plain ++ onVectors ++ atomics

def ofCode? (code : Code) : Option Access := all.find? (·.code == code)

def ofName? (name : String) : Option Access := all.find? (·.name == name)

end Access

end LiveUnits.Wasm
