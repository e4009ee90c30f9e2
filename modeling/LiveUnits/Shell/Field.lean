import LiveUnits.FileSystem.Walk
import LiveUnits.Shell.Pattern

/-!
# Fields

What is left of words once their parts have values: fields, which may be patterns, and the names of
files that a pattern stands for.  A value is divided where a separator stands.  Separators that are
blank count as one, and as none at the beginning; around another separator they do not count.
-/

namespace LiveUnits.Shell

/-- A character of an expanded word, or a mark. -/
inductive Atom where
  /-- A character: whether it may be special in a pattern, and whether it can divide fields. -/
  | char (c : Char) (special divides : Bool)
  /-- Marks that there is a field, even if it is empty. -/
  | present
  /-- Marks the end of a field. -/
  | split
  /-- Marks the beginning of a value. -/
  | border

/-- The atoms of a value. -/
def atoms (isQuoted : Bool) (r : Raw) : List Atom :=
  if isQuoted then .present :: r.map (.char · false false) else .border :: r.map (.char · true true)

/-- The pattern that atoms are, if they are not divided into fields. -/
def patternOf (as : List Atom) : Pattern :=
  as.filterMap fun
    | .char c special _ => some (c, special)
    | _ => none

/-- Fields that are being made. -/
structure Fields where
  /-- The fields that are complete, the newest first. -/
  complete : List Pattern := []
  /-- The field that has been begun, its last character first. -/
  current : Option Pattern := none
  /-- Whether a blank has just ended a field. -/
  afterBlank : Bool := false

namespace Fields

/-- Ends the field that has been begun. -/
def close (f : Fields) : Fields :=
  match f.current with
  | some p => { complete := p.reverse :: f.complete }
  | none => { complete := f.complete }

def take (separators : Raw) (f : Fields) : Atom → Fields
  | .split => f.close
  | .present => { f with current := some (f.current.getD []), afterBlank := false }
  | .border => { f with afterBlank := false }
  | .char c special divides =>
    if divides && separators.contains c then
      let isBlank := blanks.contains c
      if f.afterBlank then (if isBlank then f else { f with afterBlank := false })
      else if isBlank && f.current.isNone then f
      else { ({ f with current := some (f.current.getD []) } : Fields).close with afterBlank := isBlank }
    else { f with current := some ((c, special) :: f.current.getD []), afterBlank := false }

/-- The fields that atoms make up. -/
def ofAtoms (separators : Raw) (as : List Atom) : List Pattern :=
  (as.foldl (take separators) {}).close.complete.reverse

end Fields

/-- Divides a line among at most `most` names, the last of which takes what is left, without the blanks
at its end.  A character that is escaped divides nothing.  `current` is the field that has been begun,
its last character first; `keep` is how much of what is left stays, if not all. -/
def shares (separators : Raw) :
    Nat → Raw → Bool → Bool → Option Nat → List (Char × Bool) → List Raw
  | _, current, begun, _, keep, [] =>
    let field := match keep with
      | some n => current.reverse.take n
      | none => current.reverse
    if begun && !field.isEmpty then [field] else []
  | most, current, begun, afterBlank, keep, (c, escaped) :: rest =>
    let isSeparator := !escaped && separators.contains c
    let isBlank := isSeparator && blanks.contains c
    if escaped then shares separators most (c :: current) true false keep rest
    else
      match most with
      | 0 =>
        if isBlank then
          shares separators 0 (c :: current) true afterBlank (some (keep.getD current.length)) rest
        else
          shares separators 0 (c :: current) true false (if isSeparator && afterBlank then keep else none)
            rest
      | more + 1 =>
        if afterBlank && isBlank then shares separators (more + 1) [] false true keep rest
        else if afterBlank && isSeparator then shares separators (more + 1) [] false false keep rest
        else if isSeparator then
          if isBlank && !begun then shares separators (more + 1) [] false false keep rest
          else if more = 0 then
            shares separators 0 (c :: current) true isBlank (some current.length) rest
          else current.reverse :: shares separators more [] false isBlank keep rest
        else shares separators (more + 1) (c :: current) true false keep rest

/-! ## Names of files -/

/-- The path that a text spells. -/
def pathOf (r : Raw) : Path := ⟨bytes r⟩

/-- Whether there is a file or a link at a path. -/
def isThere (fs : FileSystem) (r : Raw) : Bool :=
  match fs.locate false (pathOf r) with
  | .ok (.found _ _) => true
  | _ => false

/-- The names in a directory, in order. -/
def namesIn (fs : FileSystem) (directory : Raw) : List Raw :=
  match fs.list (pathOf (if directory.isEmpty then ['.'] else directory)) with
  | .ok entries => (entries.map fun e => raw e.1).mergeSort notAfter
  | .error _ => []

/-- The files under a prefix that a pattern stands for, given by its parts between slashes. -/
def filesUnder (fs : FileSystem) : Raw → List Pattern → List Raw
  | start, [] => [start]
  | start, p :: rest =>
    let next (name : Raw) : List Raw :=
      if rest.isEmpty then [start ++ name] else filesUnder fs (start ++ name ++ ['/']) rest
    if p.isSpecial then
      let isHidden := (p.head?.map (·.1)) == some '.'
      let names := if fs.isDirectory (pathOf (if start.isEmpty then ['.'] else start)) then
        ['.'] :: ['.', '.'] :: namesIn fs start else []
      (names.filter fun n => (isHidden || n.head? != some '.') && p.matchesAll n).flatMap next
    else if rest.isEmpty && !isThere fs (start ++ p.text) then []
    else next p.text

/-- What a field stands for: the files that it matches, or else itself. -/
def Pattern.files (fs : FileSystem) (p : Pattern) : List Raw :=
  if p.isSpecial then
    match (filesUnder fs [] p.steps).mergeSort notAfter with
    | [] => [p.text]
    | found => found
  else [p.text]

end LiveUnits.Shell
