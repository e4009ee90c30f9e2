import LiveUnits.Wasm.Reader

/-!
# Sections

A binary module is a header and a sequence of numbered sections.  `Sections.ofBytes` walks over them
without looking into their items: it gives the sections in order, and the damage that ended the walk
if there is one.  A component is walked in the same way, together with the modules inside it.
-/

namespace LiveUnits.Wasm

/-- A part of the binary form. -/
inductive Section where
  | custom (name : String) (data : Bytes)
  /-- A section of a module: its number and its contents. -/
  | plain (number : Nat) (contents : Bytes)
  /-- A section with a number that no section has. -/
  | unknown (number : Nat)
  /-- A section of a component. -/
  | foreign (number : Nat)
  deriving DecidableEq

/-- What a walk found: the sections up to the first damage. -/
structure Sections where
  /-- The sections in order. -/
  items : List Section
  /-- What ended the walk too early. -/
  damage : Option Malformation

namespace Sections

/-- How often the items of certain sections are announced, and how far the walk has come. -/
structure Progress where
  /-- The place of the last section in the prescribed order. -/
  rank : Nat := 0
  functions : Option Nat := none
  /-- The number of function bodies. -/
  bodies : Option Nat := none
  /-- The number of data segments. -/
  segments : Option Nat := none
  /-- The number of data segments that is announced. -/
  announced : Option Nat := none

/-- The place of a section in the prescribed order, absent if there is no such section. -/
def rank? (number : Nat) : Option Nat :=
  match [1, 2, 3, 4, 5, 13, 6, 7, 8, 9, 12, 10, 11].idxOf? number with
  | some i => some (i + 1)
  | none => none

/-- The number of functions agrees with the number of bodies. -/
def bodiesAgree (p : Progress) : Bool := p.functions.getD 0 == p.bodies.getD 0

/-- The number of data segments agrees with the one announced. -/
def segmentsAgree (p : Progress) : Bool :=
  match p.segments, p.announced with
  | some n, some m => n == m
  | none, some m => m == 0
  | _, none => true

/-- Reads over function bodies. -/
def bodies : Reader Unit := do
  let count ← Reader.u32
  if (← get).length < count then Reader.refuse .truncated
  else
    let _ ← Reader.times (do Reader.take (← Reader.u32)) count
    pure ()

/-- Looks at the front of a section: most start with the number of their items. -/
def glance (number : Nat) (contents : Bytes) : Except Malformation Nat :=
  match number with
  | 8 | 12 => Reader.runAll Reader.u32 contents
  | 10 => do
    let _ ← Reader.runAll bodies contents
    let (count, _) ← Reader.u32 contents
    pure count
  | _ => do
    let (count, _) ← Reader.u32 contents
    pure count

/-- Takes a section of a module into account. -/
def Progress.next (p : Progress) (number rank : Nat) (contents : Bytes) :
    Except Malformation Progress := do
  if rank ≤ p.rank then throw (.sectionOrder number)
  let count ← glance number contents
  let p := { p with rank }
  match number with
  | 3 => pure { p with functions := some count }
  | 10 =>
    let p := { p with bodies := some count }
    if bodiesAgree p then pure p else throw .countMismatch
  | 11 =>
    let p := { p with segments := some count }
    if segmentsAgree p then pure p else throw .countMismatch
  | 12 => pure { p with announced := some count }
  | _ => pure p

/-- The next section: its number and its contents. -/
def frame : Reader (Nat × Bytes) := do
  let number := (← Reader.byte).toNat
  if 0x80 ≤ number then Reader.refuse (.badSectionNumber number)
  else
    let contents ← Reader.take (← Reader.u32)
    pure (number, contents)

def customSection (contents : Bytes) : Except Malformation Section := do
  let (name, data) ← Reader.name contents
  pure (.custom name data)

/-- The sections of a walk that starts with `s`. -/
def cons (s : Section) (ss : Sections) : Sections := { ss with items := s :: ss.items }

/-- A walk that ends here. -/
def stop (damage : Option Malformation) : Sections := ⟨[], damage⟩

/-- One walk after another, unless the first one is damaged. -/
def append (a b : Sections) : Sections :=
  match a.damage with
  | some _ => a
  | none => ⟨a.items ++ b.items, b.damage⟩

/-- Walks over the sections of a module. -/
def walkModule : Nat → Progress → Bytes → Sections
  | 0, _, _ => stop (some .truncated)
  | _, p, [] => stop (if bodiesAgree p && segmentsAgree p then none else some .countMismatch)
  | fuel + 1, p, bytes =>
    match frame bytes with
    | .error m => stop (some m)
    | .ok ((number, contents), rest) =>
      if number = 0 then
        match customSection contents with
        | .error m => stop (some m)
        | .ok s => cons s (walkModule fuel p rest)
      else
        match rank? number with
        | none => cons (.unknown number) (walkModule fuel p rest)
        | some rank =>
          match p.next number rank contents with
          | .error m => stop (some m)
          | .ok p => cons (.plain number contents) (walkModule fuel p rest)

def moduleHeader : Bytes := [0x00, 0x61, 0x73, 0x6D, 0x01, 0x00, 0x00, 0x00]

def componentHeader : Bytes := [0x00, 0x61, 0x73, 0x6D, 0x0D, 0x00, 0x01, 0x00]

/-- The greatest number of a section of a component. -/
def lastForeign : Nat := 11

/-- The section of a component that says what runs at the start. -/
def foreignStart : Nat := 9

/-- The greatest number of values that the start of a component takes or gives. -/
def startLimit : Nat := 1000

/-- Reads over what runs at the start of a component: a function, the values it takes, and the number
of values it gives. -/
def startItem : Reader Unit := do
  let _ ← Reader.u32
  let taken ← Reader.u32
  if startLimit < taken then Reader.refuse .tooMany
  else
    let _ ← Reader.times Reader.u32 taken
    if startLimit < (← Reader.u32) then Reader.refuse .tooMany else pure ()

/-- Looks at the front of a section of a component: all but the start begin with the number of their
items. -/
def glanceForeign (number : Nat) (contents : Bytes) : Except Malformation Unit :=
  if number = foreignStart then Reader.runAll startItem contents
  else (Reader.u32 contents).map fun _ => ()

mutual

/-- Walks over the sections of a component.  Modules and components inside it have headers of their
own. -/
def walkComponent : Nat → Bytes → Sections
  | 0, _ => stop (some .truncated)
  | _, [] => stop none
  | fuel + 1, bytes =>
    match frame bytes with
    | .error m => stop (some m)
    | .ok ((number, contents), rest) =>
      if number = 0 then
        match customSection contents with
        | .error m => stop (some m)
        | .ok s => cons s (walkComponent fuel rest)
      else if number = 1 ∨ number = 4 then
        cons (.foreign number) (append (walkWith fuel contents) (walkComponent fuel rest))
      else if lastForeign < number then cons (.unknown number) (walkComponent fuel rest)
      else
        match glanceForeign number contents with
        | .error m => stop (some m)
        | .ok _ => cons (.foreign number) (walkComponent fuel rest)

/-- Walks over a module or a component. -/
def walkWith : Nat → Bytes → Sections
  | 0, _ => stop (some .truncated)
  | fuel + 1, bytes =>
    if moduleHeader.isPrefixOf bytes then
      walkModule (fuel + 1) {} (bytes.drop moduleHeader.length)
    else if componentHeader.isPrefixOf bytes then
      cons (.foreign 0) (walkComponent fuel (bytes.drop componentHeader.length))
    else stop (some (if bytes.length < moduleHeader.length then .truncated else .badHeader))

end

/-- The sections of a byte string. -/
def ofBytes (bytes : Bytes) : Sections := walkWith (bytes.length + 1) bytes

end Sections

end LiveUnits.Wasm
