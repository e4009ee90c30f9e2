import LiveUnits.Archive.Checksum
import LiveUnits.Archive.Inflate

/-!
# Archives

An open archive knows the name, the place and the size of every entry.  The bytes of an entry are
read only on request: they follow its local header, and are inflated and checked against the
checksum.
-/

namespace LiveUnits

/-- Why an archive or one of its entries cannot be read. -/
inductive ArchiveFault where
  /-- The bytes end inside a record, or there are none to read. -/
  | unreadable
  /-- The bytes are no archive, or a record is not where it should be. -/
  | invalid
  /-- The entry is encrypted or compressed in an unknown way. -/
  | unsupported
  /-- The entry describes its encryption without being marked as encrypted. -/
  | locked
  deriving DecidableEq, Repr

/-- The text of an archive fault. -/
def ArchiveFault.message : ArchiveFault → String
  | .unreadable => "unexpected end of the archive"
  | .invalid => "not an archive"
  | .unsupported => "unsupported archive entry"
  | .locked => "the password is wrong"

namespace Archive

/-- How the bytes of an entry are kept. -/
inductive Method where
  | stored
  | deflated
  | other
  deriving DecidableEq, Repr

def Method.ofNumber : Nat → Method
  | 0 => stored
  | 8 => deflated
  | _ => other

/-- An entry, as the central directory describes it. -/
structure Entry where
  /-- Whether the entry is marked as encrypted. -/
  encrypted : Bool
  /-- Whether the entry says how it is encrypted. -/
  hasCipher : Bool
  /-- How the bytes are kept. -/
  method : Method
  checksum : Nat
  /-- The number of bytes kept in the archive. -/
  size : Nat
  /-- The number of bytes that the entry announces. -/
  fullSize : Nat
  /-- The place of the local header. -/
  place : Nat
  deriving DecidableEq, Repr

end Archive

/-- An open archive. -/
structure Archive where
  data : Bytes
  /-- The entries by name.  No name occurs twice. -/
  entries : List (String × Archive.Entry)

namespace Archive

/-- The value of a number that is written with its lowest byte first. -/
def littleEndian (bytes : Bytes) : Nat := bytes.foldr (fun b n => b.toNat + 256 * n) 0

/-- The number of `width` bytes at a place. -/
def numberAt (bytes : Bytes) (place width : Nat) : Nat :=
  littleEndian ((bytes.drop place).take width)

/-- Starts a local header. -/
def localMark : Bytes := [0x50, 0x4B, 0x03, 0x04]

/-- The number of bytes of a local header, without what varies. -/
def localSize : Nat := 30

/-- The number of entries. -/
def entryCount (a : Archive) : Nat := a.entries.length

/-- The names of the entries that are files. -/
def fileNames (a : Archive) : List String :=
  (a.entries.map (·.1)).filter fun name => name.toList.getLast? ≠ some '/'

/-- The bytes of an entry as they are kept, once its local header has been found in its place. -/
def kept (a : Archive) (e : Entry) : Except ArchiveFault Bytes :=
  let start := a.data.drop e.place
  if e.encrypted then .error .unsupported
  else if !localMark.isPrefixOf start then .error .invalid
  else if e.method = .other then .error .unsupported
  else if e.hasCipher then .error .locked
  else .ok ((start.drop (localSize + numberAt start 26 2 + numberAt start 28 2)).take e.size)

/-- The number of bytes from which on no memory can hold them. -/
def memoryLimit : Nat := Nat.pow 2 63

/-- Whether an entry announces more bytes than any memory can hold. -/
def Entry.isHuge (e : Entry) : Bool := memoryLimit ≤ e.fullSize

/-- Undoes the compression.  It fails if the bytes are damaged. -/
def Entry.unpack? (e : Entry) (kept : Bytes) : Option Bytes := do
  let bytes ← if e.method = .deflated then Inflate.inflate? kept else some kept
  if (Archive.checksum bytes).toNat = e.checksum then some bytes else none

end Archive

end LiveUnits
