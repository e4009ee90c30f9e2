import LiveUnits.Shell.Command

/-!
# The source of a script

A script is read character by character.  In between come the values of aliases: a value is read in
place of the word that is its name, and while that lasts the name is no alias.  Texts that a line asks
for stand after its end; they are skipped when the line has been read.
-/

namespace LiveUnits.Shell

/-- A mistake in a script. -/
structure SyntaxFault where
  /-- The line on which it was noticed. -/
  line : Nat
  /-- What is wrong. -/
  message : String

/-- A word, an operator, or the like. -/
inductive Token where
  | word (w : Word)
  /-- A word of the language. -/
  | keyword (s : String)
  /-- An operator between commands, or the end of a line. -/
  | operator (s : String)
  /-- An operator of a redirection of a stream. -/
  | redirect (stream : Nat) (direction : Direction)
  /-- The beginning of a text in the script, with what the stream is and whether tabulators are to be
  dropped. -/
  | document (stream : Nat) (strip : Bool)
  /-- The end of the script. -/
  | finish

/-- A value of an alias that is being read. -/
structure Insertion where
  name : Raw
  /-- Whether the value ends with a blank, so that the next word may be an alias as well. -/
  continues : Bool
  /-- What follows the name. -/
  after : Raw

/-- What is left of a script. -/
structure Source where
  /-- What is read next. -/
  rest : Raw
  /-- The values of aliases that are being read, the innermost first. -/
  insertions : List Insertion := []
  line : Nat := 1
  /-- What follows the texts for which the line has asked, and how many lines they take. -/
  resume : Option (Raw × Nat) := none
  /-- The token that comes next, if it has been looked at. -/
  pending : Option Token := none
  /-- Whether the next word may be an alias, for a value that ended with a blank. -/
  continues : Bool := false
  /-- The aliases and their values. -/
  aliases : List (Raw × Raw) := []

/-- A reader of a script. -/
abbrev Parse := StateT Source (Except SyntaxFault)

namespace Source

/-- Leaves the values that have been read to their end. -/
def settleWith : List Insertion → Raw → Bool → List Insertion × Raw × Bool
  | i :: outer, [], continues => settleWith outer i.after (continues || i.continues)
  | insertions, rest, continues => (insertions, rest, continues)

/-- The source with something to read, if anything is left. -/
def settle (s : Source) : Source :=
  if s.rest.isEmpty then
    let (insertions, rest, continues) := settleWith s.insertions s.rest s.continues
    { s with insertions, rest, continues }
  else s

/-- What follows ends of lines that do not count, and how many there are. -/
def dropJoints : Raw → Raw × Nat
  | '\\' :: '\n' :: rest => let (r, n) := dropJoints rest; (r, n + 1)
  | r => (r, 0)

/-- The source after ends of lines that do not count. -/
def joinLines (s : Source) : Source :=
  let (rest, n) := dropJoints s.rest
  { s with rest, line := s.line + n }

/-- The source after some characters. -/
def skip (s : Source) (n : Nat) : Source :=
  { s with rest := s.rest.drop n, line := s.line + (s.rest.take n).count '\n' }

end Source

/-- Gives up. -/
def faulty {α : Type} (message : String) : Parse α := fun s => .error ⟨s.line, message⟩

/-- The next character as it stands. -/
def lookRaw : Parse (Option Char) := fun s =>
  let s := s.settle
  .ok (s.rest.head?, s)

/-- The next character; ends of lines after a backslash do not count. -/
def look : Parse (Option Char) := fun s =>
  let s := s.settle.joinLines.settle
  .ok (s.rest.head?, s)

/-- Takes a character away. -/
def skipOne : Parse Unit := modify (·.skip 1)

/-- Takes the characters away that satisfy a test. -/
def takeRun (p : Char → Bool) : Parse Raw := fun s =>
  let run := s.rest.takeWhile p
  .ok (run, s.skip run.length)

/-- Takes the given character, if it comes next. -/
def tryChar (c : Char) : Parse Bool := do
  if (← look) == some c then
    skipOne
    pure true
  else pure false

/-- The name at the front, which ends of lines may divide. -/
def takeName (p : Char → Bool) : Nat → Parse Raw
  | 0 => pure []
  | n + 1 => do
    match ← look with
    | some c =>
      if p c then
        let run ← takeRun p
        let more ← takeName p n
        pure (run ++ more)
      else pure []
    | none => pure []

/-! ## Texts in the script -/

/-- Whether a line goes on after its end. -/
def isContinued (line : Raw) : Bool := (line.reverse.takeWhile (· == '\\')).length % 2 == 1

/-- The lines of a text up to the line `mark`, what follows that line, and how many lines that takes.
With `strip`, tabulators at the beginning of a line do not count; with `joins`, a line may go on after
its end, and what goes on is no mark.  The first argument is a bound on the lines. -/
def linesBefore (mark : Raw) (strip joins : Bool) : Nat → Bool → Raw → Raw × Raw × Nat
  | 0, _, r => ([], r, 0)
  | _, _, [] => ([], [], 0)
  | fuel + 1, continued, r =>
    let full := r.takeWhile (· != '\n')
    let hasEnd := full.length < r.length
    let after := r.drop (full.length + 1)
    let line := if strip && !continued then full.dropWhile (· == '\t') else full
    if line == mark && !continued then ([], after, if hasEnd then 1 else 0)
    else
      let (text, rest, n) := linesBefore mark strip joins fuel (joins && isContinued full) after
      (line ++ (if hasEnd then '\n' :: text else text), rest, if hasEnd then n + 1 else n)

/-- Takes the text up to a mark that the line asks for. -/
def takeDocument (mark : Raw) (strip joins : Bool) : Parse Raw := fun s =>
  let bottom := (s.insertions.getLast?.map (·.after)).getD s.rest
  let (start, n) := s.resume.getD ((bottom.dropWhile (· != '\n')).drop 1, 0)
  let (text, rest, m) := linesBefore mark strip joins (start.length + 1) false start
  .ok (text, { s with resume := some (rest, n + m) })

/-- Takes the end of a line away, and the texts for which the line has asked. -/
def skipLineEnd : Parse Unit := modify fun s =>
  match s.resume with
  | none => s.skip 1
  | some (rest, n) => { s with rest, insertions := [], line := s.line + 1 + n, resume := none }

end LiveUnits.Shell
