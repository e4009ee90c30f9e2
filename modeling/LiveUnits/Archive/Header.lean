import LiveUnits.Archive.Basic
import LiveUnits.Text.CodePage

/-!
# Headers of the central directory

A header has a fixed part, a name, extra fields and a comment.  Extra fields may say more about the
entry: sizes that do not fit into the fixed part, a cipher, or the name and the comment in UTF-8 with
the checksum of what they stand for.  Extra fields that end too early are ignored from there on;
those that contradict themselves make the header useless.
-/

namespace LiveUnits.Archive

/-- What is known about an entry while its header is read. -/
structure Details where
  nameBytes : Bytes
  name : String
  comment : String
  method : Nat
  /-- The number of bytes kept in the archive. -/
  size : Nat
  /-- The number of bytes of the entry. -/
  fullSize : Nat
  /-- The place of the local header, not counting the bytes in front of the archive. -/
  place : Nat
  hasCipher : Bool

/-! ## Extra fields -/

/-- Why extra fields are not read to their end. -/
inductive Halt where
  /-- They end too early. -/
  | short
  /-- They contradict themselves. -/
  | invalid
  deriving DecidableEq, Repr

/-- Extra fields as they are read. -/
structure Extra where
  rest : Bytes
  /-- What is known so far. -/
  details : Details

namespace Extra

/-- A step in reading extra fields.  What it found before it stopped is kept. -/
abbrev Step (α : Type) := ExceptT Halt (StateM Extra) α

/-- The next `count` bytes. -/
def take (count : Nat) : Step Bytes := do
  let bytes := (← get).rest
  if bytes.length < count then throw .short
  modify fun x => { x with rest := bytes.drop count }
  pure (bytes.take count)

/-- A number of `width` bytes. -/
def number (width : Nat) : Step Nat := do pure (littleEndian (← take width))

/-- Notes something about the entry. -/
def note (f : Details → Details) : Step Unit := modify fun x => { x with details := f x.details }

/-- Goes on only if a condition holds. -/
def ensure (b : Bool) : Step Unit := if b then pure () else throw .invalid

/-- The value of a fixed number that asks for an extra field. -/
def placeholder : Nat := 0xFFFFFFFF

/-- One of the large numbers, if it is there: it is when the field is long enough for all of them,
or when the fixed part asks for it.  The result is the number of bytes it takes. -/
def largeNumber (size : Nat) (read : Details → Nat) (store : Nat → Details → Details) :
    Step Nat := do
  if 24 ≤ size || read (← get).details = placeholder then
    note (store (← number 8))
    pure 8
  else pure 0

/-- Sizes and a place that do not fit into the fixed part. -/
def largeNumbers (size : Nat) : Step Unit := do
  let full ← largeNumber size (·.fullSize) fun n d => { d with fullSize := n }
  let kept ← largeNumber size (·.size) fun n d => { d with size := n }
  let place ← largeNumber size (·.place) fun n d => { d with place := n }
  let used := full + kept + place
  ensure (used ≤ size)
  let _ ← take (size - used)

/-- Times in units of a hundred nanoseconds. -/
def fineTimes (size : Nat) : Step Unit := do
  ensure (size = 32)
  let _ ← take 4
  ensure ((← number 2) = 1)
  ensure ((← number 2) = 24)
  let _ ← take 24

/-- A cipher: its version, its maker, its strength, and the method below it. -/
def cipher (size : Nat) : Step Unit := do
  ensure (size = 7)
  let version ← number 2
  let maker ← number 2
  let strength ← number 1
  let method ← number 2
  ensure (maker = 0x4541)
  ensure (version = 1 || version = 2)
  ensure (1 ≤ strength && strength ≤ 3)
  note fun d => { d with hasCipher := true, method }

/-- Times in seconds; the bits of the first byte tell which of them are given. -/
def coarseTimes (size : Nat) : Step Unit := do
  let flags ← number 1
  let count := ((List.range 8).filter flags.testBit).length
  ensure (size = 5 || size = 1 + 4 * count)
  if flags.testBit 0 || size = 5 then let _ ← take 4
  if flags.testBit 1 && 5 < size then let _ ← take 4
  if flags.testBit 2 && 5 < size then let _ ← take 4

/-- A text in UTF-8, which stands for one whose checksum it gives. -/
def text (size : Nat) (standsFor : Details → Bytes) : Step (Bytes × String) := do
  let _ ← take 1
  let sum ← number 4
  ensure (5 ≤ size)
  let bytes ← take (size - 5)
  ensure ((checksum (standsFor (← get).details)).toNat = sum)
  match Utf8.decode? bytes with
  | some s => pure (bytes, s)
  | none => throw .invalid

/-- One extra field. -/
def field : Step Unit := do
  let kind ← number 2
  let size ← number 2
  match kind with
  | 0x0001 => largeNumbers size
  | 0x000A => fineTimes size
  | 0x9901 => cipher size
  | 0x5455 => coarseTimes size
  | 0x6375 =>
    let (_, s) ← text size fun d => Utf8.encode d.comment
    note fun d => { d with comment := s }
  | 0x7075 =>
    let (bytes, s) ← text size (·.nameBytes)
    note fun d => { d with nameBytes := bytes, name := s }
  | _ => let _ ← take size

/-- All extra fields; each takes at least one byte. -/
def fields : Nat → Step Unit
  | 0 => pure ()
  | fuel + 1 => do
    if (← get).rest = [] then pure ()
    else
      field
      fields fuel

/-- What extra fields add to what is known, unless they contradict themselves. -/
def amend? (d : Details) (bytes : Bytes) : Option Details :=
  match (fields bytes.length).run ⟨bytes, d⟩ with
  | (.error .invalid, _) => none
  | (_, x) => some x.details

end Extra

/-! ## Headers -/

/-- Starts a header. -/
def headerMark : Bytes := [0x50, 0x4B, 0x01, 0x02]

/-- The number of bytes of a header, without what varies. -/
def headerSize : Nat := 46

/-- The number of the method that leaves the real one to the extra field of a cipher. -/
def cipherMethod : Nat := 99

/-- A header of the central directory. -/
structure Header where
  name : String
  entry : Entry
  rest : Bytes

/-- A text of an archive: UTF-8 if it is marked so, or else in the old code page. -/
def textOf (isUtf8 : Bool) (bytes : Bytes) : String :=
  if isUtf8 then Utf8.lossy bytes else CodePage.text bytes

/-- Reads a header.  `shift` is the number of bytes in front of the archive, `directory` the place
of the central directory; an entry starts before that. -/
def header? (shift directory : Nat) (bytes : Bytes) : Option Header := do
  let nameSize := numberAt bytes 28 2
  let extraSize := numberAt bytes 30 2
  let commentSize := numberAt bytes 32 2
  let flags := numberAt bytes 8 2
  let body := bytes.drop headerSize
  if !headerMark.isPrefixOf bytes
    || bytes.length < headerSize + nameSize + extraSize + commentSize then none
  let nameBytes := body.take nameSize
  let d ← Extra.amend? {
      nameBytes
      name := textOf (flags.testBit 11) nameBytes
      comment := textOf (flags.testBit 11) ((body.drop (nameSize + extraSize)).take commentSize)
      method := numberAt bytes 10 2
      size := numberAt bytes 20 4
      fullSize := numberAt bytes 24 4
      place := numberAt bytes 42 4
      hasCipher := false }
    ((body.drop nameSize).take extraSize)
  if (d.method = cipherMethod && !d.hasCipher) || directory ≤ d.place + shift then none
  some {
    name := d.name
    entry := {
      encrypted := flags.testBit 0
      hasCipher := d.hasCipher
      method := Method.ofNumber d.method
      checksum := numberAt bytes 16 4
      size := d.size
      fullSize := d.fullSize
      place := d.place + shift }
    rest := body.drop (nameSize + extraSize + commentSize) }

/-- Adds an entry; one of the same name gives way to it but keeps its position. -/
def putEntry (name : String) (e : Entry) : List (String × Entry) → List (String × Entry)
  | [] => [(name, e)]
  | (other, x) :: rest =>
    if other = name then (name, e) :: rest else (other, x) :: putEntry name e rest

/-- Reads `count` headers. -/
def headers? (shift directory : Nat) :
    Nat → Bytes → List (String × Entry) → Option (List (String × Entry))
  | 0, _, done => some done
  | count + 1, bytes, done => do
    let h ← header? shift directory bytes
    headers? shift directory count h.rest (putEntry h.name h.entry done)

end LiveUnits.Archive
