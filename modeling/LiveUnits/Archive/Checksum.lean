import LiveUnits.Text.Utf8

/-!
# The checksum of archive entries

The cyclic redundancy check of 32 bits with the reflected polynomial `0xEDB88320`, taken bit by bit.
-/

namespace LiveUnits.Archive

/-- Divides by the polynomial, one bit at a time. -/
def divideBits : Nat → UInt32 → UInt32
  | 0, r => r
  | n + 1, r => divideBits n (if r &&& 1 = 1 then (r >>> 1) ^^^ 0xEDB88320 else r >>> 1)

/-- The remainder after one more byte. -/
def checksumStep (r : UInt32) (b : UInt8) : UInt32 := divideBits 8 (r ^^^ b.toUInt32)

/-- The checksum of a byte string. -/
def checksum (bytes : Bytes) : UInt32 := bytes.foldl checksumStep 0xFFFFFFFF ^^^ 0xFFFFFFFF

end LiveUnits.Archive
