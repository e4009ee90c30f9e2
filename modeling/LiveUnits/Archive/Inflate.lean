import LiveUnits.Text.Utf8

/-!
# Inflating

The deflate format: blocks that are stored or compressed with two prefix codes, one for literals and
lengths and one for distances.  The input is read as a list of bits, the lowest bit of each byte
first.  A code is a binary tree; every symbol takes at least one bit, so the number of bits bounds
the number of steps.

Bits that break a rule of the format make the whole input damaged.  Bits that merely end too early do
not: what was written until then is the result, and it is for the checksum to tell whether anything
is missing.
-/

namespace LiveUnits.Archive.Inflate

/-- A stream of bits. -/
abbrev Bits := List Bool

/-- The bits of a byte, the lowest first. -/
def bitsOfByte (b : UInt8) : Bits := (List.range 8).map b.toNat.testBit

/-- The bits of a byte string. -/
def ofBytes (bytes : Bytes) : Bits := bytes.flatMap bitsOfByte

/-- Why reading stops before the end of the last block. -/
inductive Stop where
  /-- The bits end. -/
  | short
  /-- The bits break a rule of the format. -/
  | damaged
  deriving DecidableEq, Repr

/-- How far the work has come. -/
structure Stream where
  bits : Bits
  /-- What was written. -/
  out : Array UInt8

/-- A step of the work.  What was written before it stopped is kept. -/
abbrev Reader (α : Type) := ExceptT Stop (StateM Stream) α

/-- The next bit. -/
def bit : Reader Bool := do
  match (← get).bits with
  | [] => throw .short
  | b :: rest => do
    modify fun s => { s with bits := rest }
    pure b

/-- Writes a byte. -/
def write (b : UInt8) : Reader Unit := modify fun s => { s with out := s.out.push b }

/-- A number of `count` bits, the lowest first. -/
def number : Nat → Reader Nat
  | 0 => pure 0
  | count + 1 => do
    let b ← bit
    let high ← number count
    pure (b.toNat + 2 * high)

/-- A prefix code. -/
inductive Code where
  /-- No symbol has this start. -/
  | vacant
  /-- The symbol ends here. -/
  | symbol (s : Nat)
  /-- The next bit decides. -/
  | choice (zero one : Code)

namespace Code

/-- Gives a symbol a word of the code. -/
def insert (s : Nat) : List Bool → Code → Code
  | [], _ => symbol s
  | false :: w, choice zero one => choice (zero.insert s w) one
  | true :: w, choice zero one => choice zero (one.insert s w)
  | false :: w, _ => choice (vacant.insert s w) vacant
  | true :: w, _ => choice vacant (vacant.insert s w)

/-- The symbol that comes next. -/
def next : Code → Reader Nat
  | vacant => throw .damaged
  | symbol s => pure s
  | choice zero one => do if ← bit then one.next else zero.next

/-- The bits of a word of the code, the highest first. -/
def word (length value : Nat) : List Bool := (List.range length).reverse.map value.testBit

/-- The longest word of a code. -/
def longest : Nat := 15

/-- The number of symbols with words of one length. -/
def countOf (lengths : List Nat) (length : Nat) : Nat := lengths.count length

/-- The first word of every length, in order of the lengths: words of one length are consecutive,
and the shorter words come first. -/
def firstWords (lengths : List Nat) : Nat → Nat → Nat → List Nat
  | 0, _, _ => []
  | more + 1, length, value =>
    value :: firstWords lengths more (length + 1) ((value + countOf lengths length) * 2)

/-- Inserts the symbols from `s` on; `values` holds the next word of each length from one on. -/
def fill : Nat → List Nat → List Nat → Code → Code
  | _, [], _, code => code
  | s, length :: rest, values, code =>
    match length with
    | 0 => fill (s + 1) rest values code
    | k + 1 =>
      let value := values.getD k 0
      fill (s + 1) rest (values.set k (value + 1)) (code.insert s (word (k + 1) value))

/-- How much of all words the symbols use, in units of the longest words. -/
def usage (lengths : List Nat) : Nat :=
  ((lengths.filter (· ≠ 0)).map fun l => Nat.pow 2 (longest - l)).foldl (· + ·) 0

/-- Whether there is no word, or a single one of a single bit. -/
def isSparse (lengths : List Nat) : Bool :=
  let used := lengths.filter (· ≠ 0)
  used = [] || used = [1]

/-- The code in which each symbol has a word of the given length, none if that is zero.  The words
must be used up, or be sparse where that is allowed. -/
def ofLengths? (allowSparse : Bool) (lengths : List Nat) : Option Code :=
  if usage lengths = Nat.pow 2 longest || (allowSparse && isSparse lengths) then
    some (fill 0 lengths (firstWords lengths longest 1 0) (choice vacant vacant))
  else none

end Code

/-- The base and the number of further bits of the lengths from symbol 257 on. -/
def lengthTable : List (Nat × Nat) :=
  [(3, 0), (4, 0), (5, 0), (6, 0), (7, 0), (8, 0), (9, 0), (10, 0), (11, 1), (13, 1), (15, 1),
   (17, 1), (19, 2), (23, 2), (27, 2), (31, 2), (35, 3), (43, 3), (51, 3), (59, 3), (67, 4),
   (83, 4), (99, 4), (115, 4), (131, 5), (163, 5), (195, 5), (227, 5), (258, 0)]

/-- The base and the number of further bits of the distances. -/
def distanceTable : List (Nat × Nat) :=
  [(1, 0), (2, 0), (3, 0), (4, 0), (5, 1), (7, 1), (9, 2), (13, 2), (17, 3), (25, 3), (33, 4),
   (49, 4), (65, 5), (97, 5), (129, 6), (193, 6), (257, 7), (385, 7), (513, 8), (769, 8),
   (1025, 9), (1537, 9), (2049, 10), (3073, 10), (4097, 11), (6145, 11), (8193, 12),
   (12289, 12), (16385, 13), (24577, 13)]

/-- A number from one of the tables. -/
def fromTable (table : List (Nat × Nat)) (index : Nat) : Reader Nat :=
  match table[index]? with
  | some (base, more) => do pure (base + (← number more))
  | none => throw .damaged

/-- The two codes of a block. -/
structure Codes where
  /-- Literals, the end of the block and lengths. -/
  literals : Code
  distances : Code

/-- The code with given lengths. -/
def code (allowSparse : Bool) (lengths : List Nat) : Reader Code :=
  match Code.ofLengths? allowSparse lengths with
  | some c => pure c
  | none => throw .damaged

/-- The lengths of the words of the fixed code for literals. -/
def fixedLiterals : List Nat :=
  List.replicate 144 8 ++ List.replicate 112 9 ++ List.replicate 24 7 ++ List.replicate 8 8

def fixedCodes : Reader Codes := do
  pure ⟨← code false fixedLiterals, ← code false (List.replicate 32 5)⟩

/-- The order in which the lengths of the code of lengths are given. -/
def lengthOrder : List Nat := [16, 17, 18, 0, 8, 7, 9, 6, 10, 5, 11, 4, 12, 3, 13, 2, 14, 1, 15]

/-- `count` numbers of three bits. -/
def shortLengths : Nat → Reader (List Nat)
  | 0 => pure []
  | count + 1 => do
    let l ← number 3
    let rest ← shortLengths count
    pure (l :: rest)

/-- The lengths of words, themselves in a code in which some symbols stand for repetitions.  They
are collected in reverse order until there are `total`. -/
def codedLengths (lengthCode : Code) (total : Nat) : Nat → List Nat → Reader (List Nat)
  | 0, _ => throw .damaged
  | fuel + 1, done => do
    if done.length = total then pure done.reverse
    else if total < done.length then throw .damaged
    else
      match ← lengthCode.next with
      | 16 =>
        let n ← number 2
        match done with
        | [] => throw .damaged
        | last :: _ => codedLengths lengthCode total fuel (List.replicate (n + 3) last ++ done)
      | 17 => do
        let n ← number 3
        codedLengths lengthCode total fuel (List.replicate (n + 3) 0 ++ done)
      | 18 => do
        let n ← number 7
        codedLengths lengthCode total fuel (List.replicate (n + 11) 0 ++ done)
      | l => codedLengths lengthCode total fuel (l :: done)

/-- The symbol that ends a block. -/
def blockEnd : Nat := 256

/-- The codes that a block brings along.  There must be a word for the end of the block. -/
def ownCodes : Reader Codes := do
  let literalCount := 257 + (← number 5)
  let distanceCount := 1 + (← number 5)
  let shortCount := 4 + (← number 4)
  if 286 < literalCount || 30 < distanceCount then throw .damaged
  let given := lengthOrder.zip (← shortLengths shortCount)
  let lengthCode ← code false ((List.range 19).map fun s => (given.lookup s).getD 0)
  let total := literalCount + distanceCount
  let lengths ← codedLengths lengthCode total (total + 1) []
  if lengths[blockEnd]? = some 0 then throw .damaged
  pure ⟨← code true (lengths.take literalCount), ← code true (lengths.drop literalCount)⟩

/-- Writes `count` bytes, each the one that stands `distance` before the end. -/
def copy (distance : Nat) : Nat → Array UInt8 → Array UInt8
  | 0, out => out
  | count + 1, out => copy distance count (out.push (out.getD (out.size - distance) 0))

/-- The symbols of a compressed block up to its end. -/
def symbols (codes : Codes) : Nat → Reader Unit
  | 0 => throw .short
  | fuel + 1 => do
    let s ← codes.literals.next
    if s < blockEnd then
      write (UInt8.ofNat s)
      symbols codes fuel
    else if s = blockEnd then pure ()
    else
      let count ← fromTable lengthTable (s - 257)
      let distance ← fromTable distanceTable (← codes.distances.next)
      if (← get).out.size < distance then throw .damaged
      modify fun s => { s with out := copy distance count s.out }
      symbols codes fuel

/-- `count` bytes as they are. -/
def storedBytes : Nat → Reader Unit
  | 0 => pure ()
  | count + 1 => do
    write (UInt8.ofNat (← number 8))
    storedBytes count

/-- Skips what is left of a byte. -/
def align : Reader Unit := modify fun s => { s with bits := s.bits.drop (s.bits.length % 8) }

/-- A stored block: its length, the complement of that, and the bytes. -/
def stored : Reader Unit := do
  align
  let count ← number 16
  let complement ← number 16
  if count + complement = 0xFFFF then storedBytes count else throw .damaged

def block : Reader Unit := do
  match ← number 2 with
  | 0 => stored
  | 1 => symbols (← fixedCodes) (← get).bits.length
  | 2 => do
    let codes ← ownCodes
    symbols codes (← get).bits.length
  | _ => throw .damaged

/-- Blocks up to the last one. -/
def blocks : Nat → Reader Unit
  | 0 => throw .short
  | fuel + 1 => do
    let last ← bit
    block
    if last then pure () else blocks fuel

/-- The bytes that a deflated byte string stands for, as far as it goes; none if it is damaged.
What follows its last block is ignored. -/
def inflate? (bytes : Bytes) : Option Bytes :=
  let bits := ofBytes bytes
  match (blocks (bits.length + 1)).run ⟨bits, #[]⟩ with
  | (.error .damaged, _) => none
  | (_, s) => some s.out.toList

end LiveUnits.Archive.Inflate
