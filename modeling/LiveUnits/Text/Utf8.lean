/-!
# UTF-8

Byte strings and their reading as UTF-8.  `pieces` cuts any byte string into scalar values and
broken pieces, where a broken piece is the longest start of a well-formed sequence that the bytes
leave unfinished.  Everything else is read off it: `decode` accepts the byte strings without a
broken piece and otherwise reports the first one, `lossy` writes U+FFFD for each broken piece.
-/

namespace LiveUnits

/-- A byte string. -/
abbrev Bytes := List UInt8

namespace Utf8

/-- One step of reading a byte string as UTF-8. -/
inductive Piece where
  /-- A well-formed sequence. -/
  | scalar (c : Char)
  /-- The start of a sequence that does not go on, either because the next byte cannot follow or,
  if `cut`, because the bytes end. -/
  | broken (bytes : Bytes) (cut : Bool)
  deriving Repr, DecidableEq

/-- What a lead byte asks for: how many bytes follow it and the range of the first of them. -/
structure Lead where
  /-- The number of bytes after the lead byte. -/
  tail : Nat
  /-- The least second byte. -/
  low : UInt8
  /-- The greatest second byte. -/
  high : UInt8

/-- The lead bytes of sequences of two to four bytes.  The ranges of the second byte leave out
overlong forms, surrogates and values above U+10FFFF. -/
def lead (a : UInt8) : Option Lead :=
  if 0xC2 ≤ a && a ≤ 0xDF then some ⟨1, 0x80, 0xBF⟩
  else if a == 0xE0 then some ⟨2, 0xA0, 0xBF⟩
  else if a == 0xED then some ⟨2, 0x80, 0x9F⟩
  else if 0xE1 ≤ a && a ≤ 0xEF then some ⟨2, 0x80, 0xBF⟩
  else if a == 0xF0 then some ⟨3, 0x90, 0xBF⟩
  else if 0xF1 ≤ a && a ≤ 0xF3 then some ⟨3, 0x80, 0xBF⟩
  else if a == 0xF4 then some ⟨3, 0x80, 0x8F⟩
  else none

/-- A byte that continues a sequence. -/
def isTail (b : UInt8) : Bool := 0x80 ≤ b && b ≤ 0xBF

/-- The low six bits, which is what a continuation byte carries. -/
def payload (b : UInt8) : Nat := b.toNat % 64

/-- Cuts a byte string into scalar values and broken pieces. -/
def pieces : Bytes → List Piece
  | [] => []
  | a :: rest =>
    if a < 0x80 then .scalar (Char.ofNat a.toNat) :: pieces rest
    else match lead a with
      | none => .broken [a] false :: pieces rest
      | some l =>
        match rest with
        | [] => [.broken [a] true]
        | b :: rest₂ =>
          if !(l.low ≤ b && b ≤ l.high) then .broken [a] false :: pieces (b :: rest₂)
          else if l.tail == 1 then
            .scalar (Char.ofNat (a.toNat % 32 * 64 + payload b)) :: pieces rest₂
          else
            match rest₂ with
            | [] => [.broken [a, b] true]
            | c :: rest₃ =>
              if !isTail c then .broken [a, b] false :: pieces (c :: rest₃)
              else if l.tail == 2 then
                .scalar (Char.ofNat ((a.toNat % 16 * 64 + payload b) * 64 + payload c))
                  :: pieces rest₃
              else
                match rest₃ with
                | [] => [.broken [a, b, c] true]
                | d :: rest₄ =>
                  if !isTail d then .broken [a, b, c] false :: pieces (d :: rest₄)
                  else
                    .scalar (Char.ofNat
                      (((a.toNat % 8 * 64 + payload b) * 64 + payload c) * 64 + payload d))
                      :: pieces rest₄

/-- Why a byte string is not UTF-8: where the first broken piece starts, and its length unless the
bytes end inside it. -/
structure Fault where
  /-- The number of bytes read without a fault. -/
  index : Nat
  /-- The length of the broken piece, absent if the input ends too early. -/
  width : Option Nat
  deriving Repr, DecidableEq

/-- The text of a fault. -/
def Fault.message (f : Fault) : String :=
  match f.width with
  | some n => s!"invalid utf-8 sequence of {n} bytes from index {f.index}"
  | none => s!"incomplete utf-8 byte sequence from index {f.index}"

/-- The characters of a list of pieces, or the first broken one. -/
def gather (index : Nat) : List Piece → Except Fault (List Char)
  | [] => .ok []
  | .broken bytes cut :: _ => .error ⟨index, if cut then none else some bytes.length⟩
  | .scalar c :: rest => (gather (index + c.utf8Size) rest).map (c :: ·)

/-- Reads a byte string as UTF-8. -/
def decode (bytes : Bytes) : Except Fault String :=
  (gather 0 (pieces bytes)).map String.ofList

/-- Reads a byte string as UTF-8, forgetting why it is not. -/
def decode? (bytes : Bytes) : Option String := (decode bytes).toOption

/-- Reads a byte string as UTF-8 with U+FFFD in place of every broken piece. -/
def lossy (bytes : Bytes) : String :=
  String.ofList <| (pieces bytes).map fun
    | .scalar c => c
    | .broken _ _ => '\uFFFD'

/-- The UTF-8 form of a text. -/
def encode (s : String) : Bytes := s.toList.flatMap String.utf8EncodeChar

end Utf8

end LiveUnits
