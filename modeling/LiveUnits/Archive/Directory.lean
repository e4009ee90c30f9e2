import LiveUnits.Archive.Header

/-!
# Finding the central directory

An archive is read from its end: the end record tells where the central directory starts.  Bytes in
front of the archive move all places by the same distance, which is found by looking for the record
that should stand at a known place.  A large archive has a wide end record as well; a locator in
front of the end record tells where that is.
-/

namespace LiveUnits.Archive

/-- Starts the end record. -/
def endMark : Bytes := [0x50, 0x4B, 0x05, 0x06]

/-- The number of bytes of an end record without its comment. -/
def endSize : Nat := 22

/-- Starts the locator of a wide end record. -/
def locatorMark : Bytes := [0x50, 0x4B, 0x06, 0x07]

/-- The number of bytes of a locator. -/
def locatorSize : Nat := 20

/-- Starts a wide end record. -/
def wideMark : Bytes := [0x50, 0x4B, 0x06, 0x06]

/-- The number of bytes of a wide end record without what varies. -/
def wideSize : Nat := 56

/-- Whether a mark stands at a place. -/
def isAt (mark data : Bytes) (place : Nat) : Bool := mark.isPrefixOf (data.drop place)

/-- The places, from `place` on, where a mark stands. -/
def placesOf (mark : Bytes) : Nat → Bytes → List Nat
  | _, [] => []
  | place, b :: rest =>
    if mark.isPrefixOf (b :: rest) then place :: placesOf mark (place + 1) rest
    else placesOf mark (place + 1) rest

/-- The places between two places where a mark stands. -/
def placesBetween (mark data : Bytes) (low high : Nat) : List Nat :=
  placesOf mark low ((data.drop low).take (high - low))

/-- What the end record at a place leads to. -/
inductive Ending where
  /-- The record itself cannot be read. -/
  | broken (fault : ArchiveFault)
  /-- The record points to nothing. -/
  | astray (fault : ArchiveFault)
  /-- The record is good, but the central directory is not. -/
  | useless
  | found (archive : Archive)

/-- The archive with `count` headers from a place on. -/
def directoryAt (data : Bytes) (count directory shift : Nat) : Ending :=
  match headers? shift directory count (data.drop directory) [] with
  | some entries => .found ⟨data, entries⟩
  | none => .useless

/-! ## Wide end records -/

/-- Why a wide end record at a place cannot be the one that a locator at another place means. -/
def wideFault? (data : Bytes) (loc place : Nat) : Option ArchiveFault :=
  let size := numberAt data (place + 4) 8
  if data.length < place + wideSize then some .unreadable
  else if size < 44 || size + 12 ≠ loc - place
    || numberAt data (place + 20) 4 ≠ numberAt data (loc + 4) 4
    || place < numberAt data (place + 32) 8 * headerSize + numberAt data (place + 48) 8 then
    some .invalid
  else none

/-- Follows the wide end record at a place in front of which there are `shift` bytes too many. -/
def wideEnding (data : Bytes) (place shift : Nat) : Ending :=
  let count := numberAt data (place + 32) 8
  if count < numberAt data (place + 24) 8
    || numberAt data (place + 12) 2 < numberAt data (place + 14) 2
    || numberAt data (place + 16) 4 ≠ numberAt data (place + 20) 4 then .useless
  else directoryAt data count (numberAt data (place + 48) 8 + shift) shift

/-- Tries places of wide end records in turn, and remembers why the last of them failed. -/
def searchWide (data : Bytes) (loc start : Nat) : List Nat → ArchiveFault → Ending
  | [], fault => .astray fault
  | place :: rest, _ =>
    match wideFault? data loc place with
    | none => wideEnding data place (place - start)
    | some fault => searchWide data loc start rest fault

/-- Follows the locator at a place. -/
def located (data : Bytes) (loc : Nat) : Ending :=
  let start := numberAt data (loc + 8) 8
  if loc ≤ start || 1 < numberAt data (loc + 16) 4 then .astray .invalid
  else searchWide data loc start (placesBetween wideMark data start loc) .invalid

/-! ## End records -/

/-- Whether the end record at a place leaves something to a wide end record, and there is a locator
in front of it. -/
def hasLocator (data : Bytes) (place : Nat) : Bool :=
  (numberAt data (place + 10) 2 = 0xFFFF || numberAt data (place + 16) 4 = 0xFFFFFFFF)
    && locatorSize ≤ place && isAt locatorMark data (place - locatorSize)

/-- The archive whose central directory should start at `relative`, but starts `shift` later. -/
def narrowEnding (data : Bytes) (place relative shift : Nat) : Ending :=
  if numberAt data (place + 4) 2 ≠ numberAt data (place + 6) 2 then .useless
  else directoryAt data (numberAt data (place + 8) 2) (relative + shift) shift

/-- Follows the end record at a place. -/
def ending (data : Bytes) (place : Nat) : Ending :=
  let relative := numberAt data (place + 16) 4
  if data.length < place + endSize then .broken .unreadable
  else if data.length < place + endSize + numberAt data (place + 20) 2 then .broken .invalid
  else if hasLocator data place then located data (place - locatorSize)
  else if numberAt data (place + 10) 2 = 0 then narrowEnding data place relative (place - relative)
  else if place ≤ relative then .astray .invalid
  else
    match placesBetween headerMark data relative place with
    | first :: _ => narrowEnding data place relative (first - relative)
    | [] => .astray .invalid

/-- Tries the places of end records in turn, and remembers why the last of them failed.  A record
that cannot be read adds to what is remembered only if there is nothing yet. -/
def search (data : Bytes) : List Nat → Option ArchiveFault → Except ArchiveFault Archive
  | [], fault => .error (fault.getD .invalid)
  | place :: rest, fault =>
    match ending data place with
    | .found a => .ok a
    | .useless => search data rest none
    | .astray f => search data rest (some f)
    | .broken f => search data rest (some (fault.getD f))

/-- Opens the archive that a byte string holds. -/
def parse (data : Bytes) : Except ArchiveFault Archive :=
  search data (placesOf endMark 0 data).reverse none

end LiveUnits.Archive
