import LiveUnits.Wasm.Malformation

/-!
# Reading the binary form

The pieces that the binary form of a module is made of: bytes, numbers in groups of seven bits, names
and sequences that start with their length.  A reader takes bytes off the front and returns what they
stand for, or says why they stand for nothing.
-/

namespace LiveUnits.Wasm

abbrev Reader (α : Type) := StateT Bytes (Except Malformation) α

namespace Reader

/-- Refuses the bytes. -/
def refuse {α : Type} (m : Malformation) : Reader α := fun _ => .error m

/-- The next byte. -/
def byte : Reader UInt8 := fun bytes =>
  match bytes with
  | [] => .error .truncated
  | b :: rest => .ok (b, rest)

/-- The next `count` bytes. -/
def take (count : Nat) : Reader Bytes := fun bytes =>
  if bytes.length < count then .error .truncated else .ok (bytes.take count, bytes.drop count)

/-- Everything that is left. -/
def rest : Reader Bytes := fun bytes => .ok (bytes, [])

/-- A number without a sign, in at most `groups` groups of seven bits that hold `width` bits. -/
def unsignedIn : Nat → Nat → Reader Nat
  | 0, _ => refuse .badNumber
  | groups + 1, width => do
    let b := (← byte).toNat
    if b < 0x80 then
      if b < Nat.pow 2 width then pure b else refuse .badNumber
    else
      let high ← unsignedIn groups (width - 7)
      pure (b - 0x80 + 0x80 * high)

/-- A number of 32 bits without a sign. -/
def u32 : Reader Nat := unsignedIn 5 32

/-- A number of 64 bits without a sign. -/
def u64 : Reader Nat := unsignedIn 10 64

/-- A number with a sign, in at most `groups` groups of seven bits that hold `width` bits.  The
unused bits of the last group repeat the sign. -/
def signedIn : Nat → Nat → Reader Int
  | 0, _ => refuse .badNumber
  | groups + 1, width => do
    let b := (← byte).toNat
    if b < 0x80 then
      let value : Int := if b < 0x40 then b else b - 0x80
      let bound : Int := Int.pow 2 (width - 1)
      if -bound ≤ value ∧ value < bound then pure value else refuse .badNumber
    else
      let high ← signedIn groups (width - 7)
      pure ((b - 0x80 : Nat) + 0x80 * high)

/-- A number of 32 bits with a sign. -/
def s32 : Reader Int := signedIn 5 32

/-- A number of 33 bits with a sign. -/
def s33 : Reader Int := signedIn 5 33

/-- A number of 64 bits with a sign. -/
def s64 : Reader Int := signedIn 10 64

/-- The number of bytes of the longest name. -/
def nameLimit : Nat := 100000

def name : Reader String := do
  let count ← u32
  if nameLimit < count then refuse .badName
  else
    match Utf8.decode? (← take count) with
    | some s => pure s
    | none => refuse .badName

/-- `count` items. -/
def times {α : Type} (item : Reader α) : Nat → Reader (List α)
  | 0 => pure []
  | count + 1 => do
    let first ← item
    let others ← times item count
    pure (first :: others)

/-- Items that are preceded by their number.  An item takes at least one byte. -/
def sequence {α : Type} (item : Reader α) : Reader (List α) := do
  let count ← u32
  if (← get).length < count then refuse .truncated else times item count

/-- Runs a reader over all of a byte string. -/
def runAll {α : Type} (r : Reader α) (bytes : Bytes) : Except Malformation α :=
  match r bytes with
  | .ok (a, []) => .ok a
  | .ok (_, _ :: _) => .error .trailingBytes
  | .error m => .error m

end Reader

end LiveUnits.Wasm
