import LiveUnits.Text.Split
import LiveUnits.Tool.Regular

/-!
# Scripts that edit lines

The scripts of `sed`: commands with addresses, which choose the lines on which a command acts.  A script
is read from its characters; the place where a mistake is noticed is the number of characters before it.
-/

namespace LiveUnits.Tool

open Shell

namespace Edit

/-- A regular expression of a script; without one, the last one that was used is meant. -/
structure Expression where
  /-- The expression, and the number of its groups. -/
  regular : Option (Regular × Nat)

/-- What chooses a line. -/
inductive Address where
  | line (n : Nat)
  /-- Every so many lines, from a line on. -/
  | every (first step : Nat)
  | last
  | matching (e : Expression)

/-- Whether an address is the line before the first one. -/
def Address.isZero : Address → Bool
  | .line 0 => true
  | _ => false

/-- Where a range of lines ends. -/
inductive Bound where
  /-- At a line with an address. -/
  | at (a : Address)
  /-- After some more lines. -/
  | after (n : Nat)
  /-- At a line whose number is a multiple of another one. -/
  | multiple (n : Nat)

/-- A piece of a text that takes the place of a match. -/
inductive Piece where
  /-- A character. -/
  | char (c : Char)
  /-- What a group has matched; group zero is the whole match. -/
  | group (n : Nat)
  /-- A change of case: one of the letters `U`, `L`, `E`, `u` and `l`. -/
  | case (letter : Char)

structure Substitution where
  /-- What is replaced. -/
  target : Expression
  /-- What takes its place. -/
  pieces : List Piece
  /-- The first match that is replaced. -/
  first : Nat := 1
  /-- Whether all matches after it are replaced as well. -/
  all : Bool := false
  /-- Whether a line that was changed is printed. -/
  prints : Bool := false
  /-- The file to which a line that was changed is written. -/
  file : Option Raw := none

/-- What a command does. -/
inductive Deed where
  /-- Goes to the end of the commands in braces, if the line is not chosen. -/
  | block
  /-- The end of commands in braces, or a label. -/
  | nothing
  /-- A command that is nothing but a letter. -/
  | plain (letter : Char)
  /-- Text before, after or in place of a line: the letters `i`, `a` and `c`. -/
  | text (letter : Char) (r : Raw)
  /-- Goes to a label, or to the end: the letters `b`, `t` and `T`. -/
  | jump (letter : Char) (label : Raw)
  /-- Reads or writes a file: the letters `r`, `R`, `w` and `W`. -/
  | file (letter : Char) (name : Raw)
  /-- A command with a number: the letters `q`, `Q` and `l`. -/
  | number (letter : Char) (n : Option Nat)
  | substitute (s : Substitution)
  /-- Characters for characters. -/
  | translate (pairs : List (Char × Char))

structure Command where
  /-- The lines on which it acts, if not on all: the first one, and where a range of them ends. -/
  lines : Option (Address × Option Bound) := none
  /-- Whether it acts on the other lines. -/
  inverted : Bool := false
  /-- Whether a range is open from the beginning. -/
  startsOpen : Bool := false
  deed : Deed
  label : Option Raw := none

/-! ## Reading -/

/-- A mistake in a script. -/
structure Mistake where
  /-- How many characters were read before it was noticed, if that is told. -/
  place : Option Nat
  /-- What is wrong. -/
  message : Raw
  /-- The exit code. -/
  status : Nat := 1

/-- A reader of a script: what is left, and how many characters have been read. -/
abbrev Reader := StateT (Raw × Nat) (Except Mistake)

/-- Gives up. -/
def bad {α : Type} (message : Raw) : Reader α := fun (_, n) => .error ⟨some n, message, 1⟩

/-- The next character, taken away. -/
def next : Reader (Option Char) := fun (r, n) =>
  match r with
  | c :: rest => .ok (some c, rest, n + 1)
  | [] => .ok (none, [], n)

/-- The next character. -/
def peek : Reader (Option Char) := fun (r, n) => .ok (r.head?, r, n)

/-- Takes the characters away that pass a test. -/
def takeRun (p : Char → Bool) : Reader Raw := fun (r, n) =>
  let run := r.takeWhile p
  .ok (run, r.drop run.length, n + run.length)

def skipBlanks : Reader Unit := do
  let _ ← takeRun fun c => c == ' ' || c == '\t'

/-- The part of a set of characters up to its closing bracket, which goes with it. -/
def bracketLength (r : Raw) : Nat :=
  let n := if Regular.starts "^" r then 1 else 0
  let n := if (r.drop n).head? == some ']' then n + 1 else n
  go (r.length + 1) n
where
  /-- The part up to the closing bracket, from a place on. -/
  go : Nat → Nat → Nat
    | 0, n => n
    | fuel + 1, n =>
      match r.drop n with
      | [] => n
      | '\n' :: _ => n
      | ']' :: _ => n + 1
      | '[' :: m :: rest =>
        if ":.=".toList.contains m then
          let inner := (rest.takeWhile fun c => c != ']' && c != '\n').length
          if (rest.drop inner).head? == some ']' then go fuel (n + 2 + inner + 1) else go fuel (n + 1)
        else go fuel (n + 1)
      | _ => go fuel (n + 1)

/-- The text up to a mark, which is taken away; nothing if the mark does not come.  The first argument
bounds the characters. -/
def delimited (mark : Char) (isRegular : Bool) : Nat → Reader (Option Raw)
  | 0 => pure none
  | fuel + 1 => do
    let more (r : Raw) : Reader (Option Raw) := do
      pure ((← delimited mark isRegular fuel).map (r ++ ·))
    match ← peek with
    | none => pure none
    | some c =>
      if c == '\n' && isRegular then pure none
      else
        let _ ← next
        if c == mark then pure (some [])
        else if c == '\\' then
          match ← next with
          | none => pure none
          | some d =>
            if d == mark then more (if !isRegular && d == '&' then ['\\', '&'] else [d])
            else if d == 'n' && isRegular then more ['\n']
            else if d == '\n' && isRegular then more ['\n']
            else more ['\\', d]
        else if c == '[' && isRegular then
          let (r, n) ← get
          let taken := bracketLength r
          set ((r.drop taken, n + taken) : Raw × Nat)
          more ('[' :: r.take taken)
        else more [c]

/-- The character that an escape with digits or letters stands for, and what follows. -/
def numberedEscape? (r : Raw) : Option (Char × Raw) :=
  let spelled (base most : Nat) (rest : Raw) : Option (Char × Raw) :=
    let ds := (rest.take most).takeWhile (isDigitIn base)
    if ds.isEmpty then none else some (Char.ofNat (numberIn base ds % 256), rest.drop ds.length)
  match r with
  | 'a' :: rest => some ('\x07', rest)
  | 'f' :: rest => some ('\x0c', rest)
  | 't' :: rest => some ('\t', rest)
  | 'v' :: rest => some ('\x0b', rest)
  | 'r' :: rest => some ('\r', rest)
  | 'd' :: rest => spelled 10 3 rest
  | 'o' :: rest => spelled 8 3 rest
  | 'x' :: rest => spelled 16 2 rest
  | 'c' :: x :: rest => some (Char.ofNat (x.toUpper.toNat ^^^ 64), rest)
  | _ => none

/-- The text of an expression with its escapes for single characters resolved. -/
def resolve : Nat → Raw → Raw
  | 0, r => r
  | _, [] => []
  | fuel + 1, '\\' :: rest =>
    match numberedEscape? rest with
    | some (c, after) => c :: resolve fuel after
    | none =>
      match rest with
      | c :: after => '\\' :: c :: resolve fuel after
      | [] => ['\\']
  | fuel + 1, '[' :: rest =>
    let taken := bracketLength rest
    '[' :: inside (rest.take taken) ++ resolve fuel (rest.drop taken)
  | fuel + 1, c :: rest => c :: resolve fuel rest
where
  /-- The members of a set with their escapes resolved. -/
  inside : Raw → Raw
    | '\\' :: 'n' :: rest => '\n' :: inside rest
    | '\\' :: 't' :: rest => '\t' :: inside rest
    | c :: rest => c :: inside rest
    | [] => []

/-- The expression that a text spells. -/
def expression (extended : Bool) (flags : List Char) (r : Raw) : Reader Expression := do
  if r.isEmpty then pure ⟨none⟩
  else
    let d : Regular.Dialect :=
      { extended, foldsCase := flags.contains 'I', hasLines := flags.contains 'M', isStrict := true }
    match Regular.ofText d (resolve (r.length + 1) r) with
    | .ok e => pure ⟨some e⟩
    | .error message =>
      if message == Regular.bareClass then throw ⟨none, message, 1⟩ else bad message

def numeral : Reader Nat := do pure (number (← takeRun Char.isDigit))

/-- An address, if one comes next. -/
def address? (extended : Bool) : Reader (Option Address) := do
  let matching (mark : Char) : Reader (Option Address) := do
    let length := (← get).1.length
    match ← delimited mark true (length + 1) with
    | none => bad "unterminated address regex"
    | some r =>
      let flags ← takeRun "IM".toList.contains
      pure (some (.matching (← expression extended flags r)))
  match ← peek with
  | some '/' =>
    let _ ← next
    matching '/'
  | some '\\' =>
    let _ ← next
    match ← next with
    | some mark => matching mark
    | none => bad "unexpected `,'"
  | some '$' =>
    let _ ← next
    pure (some .last)
  | some c =>
    if c.isDigit then
      let n ← numeral
      skipBlanks
      if (← peek) == some '~' then
        let _ ← next
        skipBlanks
        let step ← numeral
        pure (some (if step = 0 then .line n else .every n step))
      else pure (some (.line n))
    else pure none
  | none => pure none

/-- Where a range ends, after its comma. -/
def bound (extended : Bool) : Reader Bound := do
  skipBlanks
  let counted (f : Nat → Bound) : Reader Bound := do
    let _ ← next
    skipBlanks
    match ← peek with
    | some c => if c.isDigit then pure (f (← numeral)) else bad "expected number"
    | none => bad "unexpected `,'"
  match ← peek with
  | some '+' => counted .after
  | some '~' => counted .multiple
  | _ =>
    match ← address? extended with
    | some a => pure (.at a)
    | none =>
      let _ ← next
      bad "unexpected `,'"

def endCommand : Reader Unit := do
  skipBlanks
  match ← peek with
  | none | some '}' | some '#' => pure ()
  | some c =>
    let _ ← next
    if c == '\n' || c == ';' then pure () else bad "extra characters after command"

def label : Reader Raw := do
  skipBlanks
  takeRun fun c => !isSpace c && c != ';' && c != '}'

/-- The name of a file, up to the end of the line. -/
def fileName : Reader Raw := do
  skipBlanks
  let r ← takeRun (· != '\n')
  if r.isEmpty then bad "missing filename in r/R/w/W commands" else pure r

/-- The text of a command, up to the end of a line that does not go on.  The first argument bounds the
characters. -/
def textLines : Nat → Reader Raw
  | 0 => pure []
  | fuel + 1 => do
    match ← next with
    | none => pure ['\n']
    | some '\n' => pure ['\n']
    | some '\\' =>
      let (r, n) ← get
      match if r.head? == some 'n' then none else numberedEscape? r with
      | some (c, after) =>
        set ((after, n + (r.length - after.length)) : Raw × Nat)
        pure (c :: (← textLines fuel))
      | none =>
        match ← next with
        | some c => pure ((if c == 'n' then '\n' else c) :: (← textLines fuel))
        | none => pure []
    | some c => pure (c :: (← textLines fuel))

/-- The text after `a`, `i` or `c`. -/
def text : Reader Raw := do
  skipBlanks
  let length := (← get).1.length
  match ← peek with
  | none => bad "expected \\ after `a', `c' or `i'"
  | some '\\' =>
    let (r, n) ← get
    let blank := ((r.drop 1).takeWhile fun c => c == ' ' || c == '\t').length
    match r.drop (1 + blank) with
    | [] =>
      set (([], n + r.length) : Raw × Nat)
      pure []
    | '\n' :: rest =>
      set ((rest, n + 2 + blank) : Raw × Nat)
      if rest.isEmpty then pure ['\n'] else textLines (length + 1)
    | _ =>
      set ((r.drop 1, n + 1) : Raw × Nat)
      textLines (length + 1)
  | some _ => textLines (length + 1)

/-- The pieces of a text that takes the place of a match. -/
def pieces : Nat → Raw → List Piece
  | 0, _ => []
  | _, [] => []
  | fuel + 1, '&' :: rest => .group 0 :: pieces fuel rest
  | fuel + 1, '\\' :: c :: rest =>
    if c.isDigit then .group (c.toNat - '0'.toNat) :: pieces fuel rest
    else if "ULEul".toList.contains c then .case c :: pieces fuel rest
    else if c == 'n' then .char '\n' :: pieces fuel rest
    else
      match numberedEscape? (c :: rest) with
      | some (x, after) => .char x :: pieces fuel after
      | none => .char c :: pieces fuel rest
  | fuel + 1, c :: rest => .char c :: pieces fuel rest

/-- What follows the marks of a substitution. -/
structure Flags where
  letters : List Char := []
  number : Option Nat := none
  file : Option Raw := none

/-- What follows the marks of a substitution, after what has been read. -/
def flags : Nat → Flags → Reader Flags
  | 0, f => pure f
  | fuel + 1, f => do
    match ← peek with
    | none | some '}' | some '#' => pure f
    | some c =>
      if c.isDigit then
        if f.number.isSome then
          let _ ← next
          bad "multiple number options to `s' command"
        else
          let ds ← takeRun Char.isDigit
          if number ds = 0 then bad "number option to `s' command may not be zero"
          else flags fuel { f with number := some (number ds) }
      else
        let _ ← next
        match c with
        | '\n' | ';' => pure f
        | ' ' | '\t' => flags fuel f
        | 'w' => do pure { f with file := some (← fileName) }
        | 'p' | 'g' =>
          if f.letters.contains c then bad ("multiple `" ++ [c] ++ "' options to `s' command")
          else flags fuel { f with letters := c :: f.letters }
        | 'i' | 'I' => flags fuel { f with letters := 'I' :: f.letters }
        | 'm' | 'M' => flags fuel { f with letters := 'M' :: f.letters }
        | 'e' => flags fuel f
        | _ => bad "unknown option to `s'"

/-- A substitution, after its letter. -/
def substitution (extended : Bool) : Reader Substitution := do
  let length := (← get).1.length + 1
  let unterminated {α : Type} : Reader α := bad "unterminated `s' command"
  match ← next with
  | none => unterminated
  | some mark =>
    match ← delimited mark true length with
    | none => unterminated
    | some target =>
      match ← delimited mark false length with
      | none => unterminated
      | some value =>
        let f ← flags length {}
        let e ← expression extended f.letters target
        let ps := pieces (value.length + 1) value
        let groups := match e.regular with
          | some (_, n) => n
          | none => 9
        match ps.find? fun p => match p with
            | .group n => groups < n
            | _ => false with
        | some (.group n) => bad ("invalid reference \\" ++ digits n ++ " on `s' command's RHS")
        | _ =>
          pure { target := e, pieces := ps, first := f.number.getD 1, all := f.letters.contains 'g'
                 prints := f.letters.contains 'p', file := f.file }

/-- The characters of one side of a translation. -/
def characters (c : Char) : Nat → Raw → List Char
  | 0, _ => []
  | _, [] => []
  | fuel + 1, '\\' :: x :: rest =>
    if x == 'n' then '\n' :: characters c fuel rest
    else
      match numberedEscape? (x :: rest) with
      | some (y, after) => y :: characters c fuel after
      | none => x :: characters c fuel rest
  | fuel + 1, x :: rest => x :: characters c fuel rest

/-- A translation, after its letter. -/
def translation : Reader (List (Char × Char)) := do
  let length := (← get).1.length + 1
  let unterminated {α : Type} : Reader α := bad "unterminated `y' command"
  match ← next with
  | none => unterminated
  | some mark =>
    match ← delimited mark false length with
    | none => unterminated
    | some from_ =>
      match ← delimited mark false length with
      | none => unterminated
      | some to_ =>
        let xs := characters mark (from_.length + 1) from_
        let ys := characters mark (to_.length + 1) to_
        if xs.length != ys.length then bad "strings for `y' command are different lengths"
        else
          endCommand
          pure (xs.zip ys)

/-- What a command does, after its letter. -/
def deed (extended : Bool) (c : Char) : Reader Deed := do
  match c with
  | 'd' | 'D' | 'e' | 'F' | 'g' | 'G' | 'h' | 'H' | 'n' | 'N' | 'p' | 'P' | 'x' | 'z' | '=' =>
    endCommand
    pure (.plain c)
  | 'a' | 'i' | 'c' => pure (.text c (← text))
  | 'b' | 't' | 'T' =>
    let l ← label
    if (← peek) != some '}' then endCommand
    pure (.jump c l)
  | 'r' | 'R' | 'w' | 'W' => pure (.file c (← fileName))
  | 'q' | 'Q' | 'l' | 'L' =>
    skipBlanks
    let ds ← takeRun Char.isDigit
    endCommand
    pure (.number c (if ds.isEmpty then none else some (number ds)))
  | 's' => pure (.substitute (← substitution extended))
  | 'y' => pure (.translate (← translation))
  | 'v' =>
    skipBlanks
    let version ← takeRun fun x => !isSpace x && x != ';'
    if number (version.takeWhile Char.isDigit) ≥ 5 then bad "expected newer version of sed"
    endCommand
    pure .nothing
  | c => bad ("unknown command: `" ++ [c, '\x27'])

/-- The lines of a command: its addresses, and whether a range is open from the beginning. -/
def range (extended : Bool) : Reader (Option (Address × Option Bound) × Bool) := do
  match ← peek with
  | some '+' | some '~' =>
    let _ ← next
    let _ ← takeRun Char.isDigit
    bad "invalid usage of +N or ~N as first address"
  | _ => pure ()
  match ← address? extended with
  | none => pure (none, false)
  | some a =>
    skipBlanks
    if (← peek) == some ',' then
      let _ ← next
      let b ← bound extended
      let isMatching := match b with
        | .at (.matching _) => true
        | _ => false
      if a.isZero && !isMatching then
        let _ ← next
        bad "invalid usage of line address 0"
      pure (some (a, some b), a.isZero)
    else
      if a.isZero then
        let _ ← next
        bad "invalid usage of line address 0"
      pure (some (a, none), false)

/-- The commands of a script, after those that have been read, the last one first; `depth` counts the
braces that are open. -/
def commands (extended : Bool) : Nat → Nat → List Command → Reader (List Command)
  | 0, _, done => pure done.reverse
  | fuel + 1, depth, done => do
    let _ ← takeRun fun c => isSpace c || c == ';'
    match ← peek with
    | none => if 0 < depth then throw ⟨some 0, "unmatched `\x7b'", 1⟩ else pure done.reverse
    | some '#' =>
      let _ ← takeRun (· != '\n')
      commands extended fuel depth done
    | some _ =>
      let (chosen, startsOpen) ← range extended
      skipBlanks
      let inverted ← (do
        if (← peek) == some '!' then
          let _ ← next
          skipBlanks
          if (← peek) == some '!' then
            let _ ← next
            bad "multiple `!'s"
          pure true
        else pure false)
      let more (depth : Nat) (d : Deed) (l : Option Raw) : Reader (List Command) :=
        commands extended fuel depth ({ lines := chosen, inverted, startsOpen, deed := d, label := l } :: done)
      match ← next with
      | none => bad "missing command"
      | some '\x7b' => more (depth + 1) .block none
      | some '\x7d' =>
        if depth = 0 then bad "unexpected `\x7d'"
        else if chosen.isSome then bad "\x7d doesn't want any addresses"
        else
          endCommand
          more (depth - 1) .nothing (some ['\x7d'])
      | some '#' => bad "comments don't accept any addresses"
      | some ':' =>
        if chosen.isSome then bad ": doesn't want any addresses"
        else
          let l ← label
          if l.isEmpty then bad "\":\" lacks a label" else more depth .nothing (some (':' :: l))
      | some c =>
        let isRange := match chosen with
          | some (_, some _) => true
          | _ => false
        let d ← deed extended c
        if isRange && "qQ".toList.contains c then bad "command only uses one address"
        more depth d none

/-- The commands of a script. -/
def ofText (extended : Bool) (r : Raw) : Except Mistake (List Command) := do
  let (cs, _) ← (commands extended (r.length + 2) 0 []).run (r, 0)
  let labels := cs.filterMap (·.label)
  match cs.findSome? fun c => match c.deed with
      | .jump _ l => if l.isEmpty || labels.contains (':' :: l) then none else some l
      | _ => none with
  | some l => .error ⟨none, "can't find label for jump to `" ++ l ++ "'", 4⟩
  | none => pure cs

end Edit

end LiveUnits.Tool
