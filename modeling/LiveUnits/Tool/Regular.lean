import LiveUnits.Shell.Numeral

/-!
# Regular expressions of the tools

Expressions of the basic and the extended kind: characters, `.`, sets in brackets, groups, choices,
repetitions, anchors, and references back to groups.  A match is the leftmost one, and the longest one
there.
-/

namespace LiveUnits.Tool

open Shell

/-- A regular expression. -/
inductive Regular where
  /-- Nothing. -/
  | empty
  /-- A character that passes a test. -/
  | one (p : Char → Bool)
  /-- One expression after the other. -/
  | sequence (a b : Regular)
  /-- One expression or the other. -/
  | choice (a b : Regular)
  /-- An expression again and again. -/
  | repeated (a : Regular) (least : Nat) (most : Option Nat)
  /-- An expression whose match has a number. -/
  | group (n : Nat) (a : Regular)
  /-- What the group with a number has matched. -/
  | back (n : Nat)
  /-- A place between two characters, if there are any. -/
  | place (p : Option Char → Option Char → Bool)

/-- What the groups have matched: from where to where. -/
abbrev Groups := List (Nat × (Nat × Nat))

/-- A match: from where to where, and the matches of the groups. -/
structure Match where
  /-- Where it begins. -/
  start : Nat
  /-- Where it ends. -/
  stop : Nat
  groups : Groups

namespace Regular

/-! ## Reading -/

/-- Which kind of expressions is read. -/
structure Dialect where
  /-- Whether operators stand without a backslash. -/
  extended : Bool := false
  /-- Whether the case of letters does not count. -/
  foldsCase : Bool := false
  /-- Whether a text has lines that begin and end inside it. -/
  hasLines : Bool := false
  /-- Whether an operator with nothing to act on is a mistake, and not the character itself. -/
  isStrict : Bool := false
  /-- Whether a range may be empty. -/
  emptyRanges : Bool := false

/-- A reader of a regular expression: what is left, and the number of groups so far. -/
abbrev Reader := StateT (Raw × Nat) (Except String)

/-- What is left. -/
def rest : Reader Raw := return (← get).1

/-- Takes characters away. -/
def skip (n : Nat) : Reader Unit := modify fun (r, g) => (r.drop n, g)

/-- Whether a character is part of a word. -/
def isWordChar (c : Char) : Bool := isNameChar c

/-- A test for one character. -/
def character (d : Dialect) (c : Char) : Regular :=
  if d.foldsCase then .one fun x => x.toLower == c.toLower else .one (· == c)

/-- Whether a text begins with another one. -/
def starts (front : String) (r : Raw) : Bool := front.toList.isPrefixOf r

/-- The message for a set that does not end. -/
def openSet : String := "Unmatched [, [^, [:, [., or [="

/-- The message for a class of characters without its outer brackets. -/
def bareClass : String := "character class syntax is [[:space:]], not [:space:]"

/-- Whether a set is written like a class of characters without its outer brackets. -/
def isBareClass (body : Raw) : Bool :=
  match body with
  | ':' :: rest =>
    let name := rest.takeWhile Char.isAlpha
    !name.isEmpty && starts ":]" (rest.drop name.length)
  | _ => false

/-- The members of a set up to its closing bracket, and what follows. -/
def setMembers (d : Dialect) : Nat → Bool → Raw → Except String ((Char → Bool) × Raw)
  | 0, _, _ => .error openSet
  | _, isFirst, [] => .error (if isFirst then "Invalid regular expression" else openSet)
  | fuel + 1, isFirst, c :: r =>
    if c == ']' && !isFirst then .ok (fun _ => false, r)
    else do
      let more (p : Char → Bool) (after : Raw) : Except String ((Char → Bool) × Raw) := do
        let (q, out) ← setMembers d fuel false after
        pure (fun x => p x || q x, out)
      let named (mark : Char) (after : Raw) : Option (Raw × Raw) :=
        let name := after.takeWhile (· != mark)
        match after.drop name.length with
        | _ :: ']' :: out => some (name, out)
        | _ => none
      match c, r with
      | '[', ':' :: after =>
        match named ':' after with
        | some (name, out) =>
          match characterClass? name with
          | some p => more p out
          | none => .error "Invalid character class name"
        | none => .error openSet
      | '[', '=' :: after =>
        match named '=' after with
        | some (name, out) => more (name.contains ·) out
        | none => .error openSet
      | '[', '.' :: after =>
        match named '.' after with
        | some (name, out) => range more (name.head?.getD ' ') out
        | none => .error openSet
      | c, after => range more c after
where
  /-- A character, or the range that begins with it. -/
  range (more : (Char → Bool) → Raw → Except String ((Char → Bool) × Raw)) (low : Char) :
      Raw → Except String ((Char → Bool) × Raw)
    | '-' :: ']' :: after => more (· == low) ('-' :: ']' :: after)
    | '-' :: '[' :: '.' :: high :: '.' :: ']' :: after => bounded low high after more
    | '-' :: high :: after => bounded low high after more
    | after => more (· == low) after
  /-- A range. -/
  bounded (low high : Char) (after : Raw)
      (more : (Char → Bool) → Raw → Except String ((Char → Bool) × Raw)) :
      Except String ((Char → Bool) × Raw) :=
    if high < low && !d.emptyRanges then .error "Invalid range end" else more (fun x => low ≤ x && x ≤ high) after

/-- A set, after its opening bracket. -/
def set (d : Dialect) : Reader Regular := fun (r, g) => do
  let (isNegated, body) := match r with
    | '^' :: body => (true, body)
    | body => (false, body)
  if !d.emptyRanges && isBareClass r then throw bareClass
  let (p, out) ← setMembers d (body.length + 1) true body
  let q (x : Char) : Bool := if d.foldsCase then p x.toLower || p x.toUpper else p x
  pure (.one fun x => q x != isNegated, out, g)

/-- A place at the beginning or the end of a word. -/
def wordEdge (before after : Bool) : Regular :=
  .place fun a b => (a.any isWordChar == before) && (b.any isWordChar == after)

/-- A place at the beginning of a line. -/
def lineStart (d : Dialect) : Regular := .place fun a _ => a.all fun c => d.hasLines && c == '\n'

def lineEnd (d : Dialect) : Regular := .place fun _ b => b.all fun c => d.hasLines && c == '\n'

/-- What a backslash and a letter stand for. -/
def escaped? (c : Char) : Option Regular :=
  match c with
  | 'w' => some (.one isWordChar)
  | 'W' => some (.one fun x => !isWordChar x)
  | 's' => some (.one isSpace)
  | 'S' => some (.one fun x => !isSpace x)
  | 'b' => some (.place fun a b => a.any isWordChar != b.any isWordChar)
  | 'B' => some (.place fun a b => a.any isWordChar == b.any isWordChar)
  | '<' => some (wordEdge false true)
  | '>' => some (wordEdge true false)
  | '\x60' => some (.place fun a _ => a.isNone)
  | '\x27' => some (.place fun _ b => b.isNone)
  | _ => none

/-- The numbers of a repetition in braces, after the opening one: least, most, and how many characters
they take; `close` is what ends them. -/
def interval? (close : String) (r : Raw) : Option (Nat × Option Nat × Nat) :=
  let low := r.takeWhile Char.isDigit
  let after := r.drop low.length
  match after with
  | ',' :: after =>
    let high := after.takeWhile Char.isDigit
    if starts close (after.drop high.length) then
      some (number low, if high.isEmpty then none else some (number high),
        low.length + 1 + high.length + close.length)
    else none
  | after =>
    if !low.isEmpty && starts close after then
      some (number low, some (number low), low.length + close.length)
    else none

/-- Repeats an expression as the operators after it say; the first argument bounds their number. -/
def repetitions (d : Dialect) : Nat → Regular → Reader Regular
  | 0, a => pure a
  | fuel + 1, a => do
    let r ← rest
    let op (n least : Nat) (most : Option Nat) : Reader Regular := do
      skip n
      let after ← rest
      if d.isStrict && !d.extended && (starts "*" after || starts "\\\x7b" after) then
        throw "Invalid preceding regular expression"
      repetitions d fuel (.repeated a least most)
    let braces (n : Nat) (close : String) : Reader Regular := do
      match interval? close (r.drop n) with
      | some (least, most, m) =>
        if most.any (· < least) || 32767 < least || most.any (32767 < ·) then
          throw (if 32767 < least || most.any (32767 < ·) then "Regular expression too big"
            else "Invalid content of \\\x7b\\\x7d")
        else op (n + m) least most
      | none =>
        if d.extended && !d.isStrict then pure a
        else throw (if (r.drop n).any (· == '\x7d') then "Invalid content of \\\x7b\\\x7d" else "Unmatched \\\x7b")
    if starts "*" r then op 1 0 none
    else if d.extended then
      if starts "+" r then op 1 1 none
      else if starts "?" r then op 1 0 (some 1)
      else if starts "\x7b" r then braces 1 "\x7d"
      else pure a
    else if starts "\\+" r then op 2 1 none
    else if starts "\\?" r then op 2 0 (some 1)
    else if starts "\\\x7b" r then braces 2 "\\\x7d"
    else pure a

/-- Whether a sequence of expressions ends here. -/
def endsBranch (d : Dialect) (depth : Nat) (r : Raw) : Bool :=
  r.isEmpty ||
    (if d.extended then starts "|" r || (0 < depth && starts ")" r) else starts "\\|" r || starts "\\)" r)

mutual

/-- Expressions of which one is chosen; `depth` is the number of groups around them. -/
def choices (d : Dialect) : Nat → Nat → Reader Regular
  | 0, _ => throw "Regular expression too big"
  | fuel + 1, depth => do
    let a ← branch d fuel depth true .empty
    let r ← rest
    if starts (if d.extended then "|" else "\\|") r then
      skip (if d.extended then 1 else 2)
      return .choice a (← choices d fuel depth)
    else pure a

/-- Expressions one after the other, after those that have been read. -/
def branch (d : Dialect) : Nat → Nat → Bool → Regular → Reader Regular
  | 0, _, _, _ => throw "Regular expression too big"
  | fuel + 1, depth, isFirst, before => do
    let r ← rest
    if endsBranch d depth r then pure before
    else
      let isStar := starts "*" r
      if isFirst && !d.extended && isStar then
        skip 1
        let a ← repetitions d fuel (character d '*')
        branch d fuel depth false a
      else if isFirst && d.extended && (isStar || starts "+" r || starts "?" r ||
          (starts "\x7b" r && (interval? "\x7d" (r.drop 1)).isSome)) then
        if d.isStrict then throw "Invalid preceding regular expression"
        else
          skip (match interval? "\x7d" (r.drop 1) with
            | some (_, _, n) => if starts "\x7b" r then n + 1 else 1
            | none => 1)
          branch d fuel depth true before
      else
        let isAnchor := starts "^" r && (isFirst || d.extended)
        let a ← atom d fuel depth isFirst
        let a ← if isAnchor && isFirst then pure a else repetitions d fuel a
        branch d fuel depth (isAnchor && isFirst) (match before with
          | .empty => a
          | b => .sequence b a)

/-- A single expression. -/
def atom (d : Dialect) : Nat → Nat → Bool → Reader Regular
  | 0, _, _ => throw "Regular expression too big"
  | fuel + 1, depth, isFirst => do
    let r ← rest
    match r with
    | [] => pure .empty
    | c :: after =>
      skip 1
      match c with
      | '.' => pure (.one fun _ => true)
      | '[' => set d
      | '^' => if isFirst || d.extended then pure (lineStart d) else pure (character d '^')
      | '$' =>
        let isEnd := d.extended || after.isEmpty || starts "\\)" after || starts "\\|" after
        if isEnd then pure (lineEnd d) else pure (character d '$')
      | '(' => if d.extended then grouped d fuel depth else pure (character d '(')
      | ')' => if d.extended && d.isStrict then throw "Unmatched ) or \\)" else pure (character d ')')
      | '\\' =>
        match after with
        | [] => throw "Trailing backslash"
        | x :: _ =>
          skip 1
          if !d.extended && x == '(' then grouped d fuel depth
          else if !d.extended && x == ')' then throw "Unmatched ) or \\)"
          else if !d.extended && x == '\x7b' then
            if isFirst && d.isStrict then throw "Invalid preceding regular expression"
            else pure (character d '\x7b')
          else if x.isDigit && x != '0' then
            let n := x.toNat - '0'.toNat
            if n ≤ (← get).2 then pure (.back n) else throw "Invalid back reference"
          else pure ((escaped? x).getD (character d (if x == 'n' then '\n' else x)))
      | c => pure (character d c)

/-- A group, after its opening parenthesis. -/
def grouped (d : Dialect) : Nat → Nat → Reader Regular
  | 0, _ => throw "Regular expression too big"
  | fuel + 1, depth => do
    let (r, g) ← get
    StateT.set (r, g + 1)
    let a ← choices d fuel (depth + 1)
    let r ← rest
    let close := if d.extended then ")" else "\\)"
    if starts close r then
      skip close.length
      pure (.group (g + 1) a)
    else throw "Unmatched ( or \\("

end

/-- The regular expression that a text spells, and the number of its groups. -/
def ofText (d : Dialect) (r : Raw) : Except String (Regular × Nat) := do
  let (e, left, groups) ← (choices d (8 * r.length + 8) 0).run (r, 0)
  if left.isEmpty then pure (e, groups) else .error "Unmatched ) or \\)"

/-- The regular expression that matches a text itself. -/
def literal (d : Dialect) (r : Raw) : Regular :=
  r.foldr (fun c e => match e with
    | .empty => character d c
    | e => .sequence (character d c) e) .empty

/-! ## Matching -/

/-- Whether the first match that is found may be shorter than another one there. -/
def isLoose : Regular → Bool
  | .sequence a b => isLoose a || isLoose b
  | .choice _ _ => true
  | .repeated (.one _) _ most => most.isSome
  | .repeated _ _ _ => true
  | .group _ a => isLoose a
  | _ => false

/-- The size of an expression. -/
def size : Regular → Nat
  | .sequence a b => size a + size b + 1
  | .choice a b => size a + size b + 1
  | .repeated a least most => size a + least + most.getD 0 + 1
  | .group _ a => size a + 1
  | _ => 1

/-- What to do after a match: given the place and the groups, the rest of the match. -/
abbrev Continuation := Nat → Groups → Option (Nat × Groups)

/-- The better one of two ends of a match. -/
def better (thorough : Bool) (last : Nat) (first : Option (Nat × Groups))
    (second : Unit → Option (Nat × Groups)) : Option (Nat × Groups) :=
  match first with
  | none => second ()
  | some (stop, groups) =>
    if !thorough || stop == last then some (stop, groups)
    else
      match second () with
      | some (stop₂, groups₂) => if stop < stop₂ then some (stop₂, groups₂) else some (stop, groups)
      | none => some (stop, groups)

/-- How many characters from a place on pass a test, at most `most`. -/
def runLength (text : Array Char) (p : Char → Bool) : Nat → Nat → Nat
  | 0, _ => 0
  | most + 1, i =>
    match text[i]? with
    | some c => if p c then runLength text p most (i + 1) + 1 else 0
    | none => 0

/-- Tries the continuation after `n` characters, after fewer, and so on down to `least`. -/
def backOff (thorough : Bool) (last least i : Nat) (groups : Groups) (k : Continuation) :
    Nat → Option (Nat × Groups)
  | 0 => if least = 0 then k i groups else none
  | n + 1 =>
    if n + 1 < least then none
    else better thorough last (k (i + n + 1) groups) fun _ => backOff thorough last least i groups k n

/-- Where a match of an expression from a place on ends, together with what follows it. -/
def endOf (text : Array Char) (thorough : Bool) :
    Nat → Regular → Nat → Groups → Continuation → Option (Nat × Groups)
  | 0, _, _, _, _ => none
  | fuel + 1, e, i, groups, k =>
    match e with
    | .empty => k i groups
    | .one p =>
      match text[i]? with
      | some c => if p c then k (i + 1) groups else none
      | none => none
    | .sequence a b =>
      endOf text thorough fuel a i groups fun j groups => endOf text thorough fuel b j groups k
    | .choice a b =>
      better thorough text.size (endOf text thorough fuel a i groups k) fun _ =>
        endOf text thorough fuel b i groups k
    | .repeated (.one p) least most =>
      let n := runLength text p (min (text.size - i) (most.getD (text.size - i))) i
      backOff thorough text.size least i groups k n
    | .repeated a least most =>
      let leave (_ : Unit) : Option (Nat × Groups) := if least = 0 then k i groups else none
      if most == some 0 then leave ()
      else
        better thorough text.size
          (endOf text thorough fuel a i groups fun j groups =>
            if j == i && least = 0 then none
            else endOf text thorough fuel (.repeated a (least - 1) (most.map (· - 1))) j groups k) leave
    | .group n a =>
      endOf text thorough fuel a i groups fun j groups => k j ((n, i, j) :: groups.filter (·.1 != n))
    | .back n =>
      match groups.lookup n with
      | some (a, b) =>
        let found := text.extract a b
        if text.extract i (i + found.size) == found then k (i + found.size) groups else none
      | none => none
    | .place p =>
      if p (if i = 0 then none else text[i - 1]?) text[i]? then k i groups else none

/-- The match of an expression that begins at a place. -/
def matchAt? (e : Regular) (text : Array Char) (i : Nat) : Option Match :=
  (endOf text e.isLoose (e.size + text.size + 8) e i [] fun j groups => some (j, groups)).map
    fun (j, groups) => ⟨i, j, groups⟩

/-- The first match of an expression from a place on; the second argument is how many places are left. -/
def findFrom? (e : Regular) (text : Array Char) : Nat → Nat → Option Match
  | 0, i => e.matchAt? text i
  | left + 1, i =>
    match e.matchAt? text i with
    | some m => some m
    | none => findFrom? e text left (i + 1)

/-- The first match of an expression in a text, from a place on. -/
def find? (e : Regular) (text : Array Char) (start : Nat) : Option Match :=
  e.findFrom? text (text.size - start) start

/-- Whether an expression matches somewhere in a text. -/
def isIn (e : Regular) (r : Raw) : Bool := (e.find? r.toArray 0).isSome

end Regular

namespace Match

/-- The part of a text that a match takes. -/
def text (m : Match) (t : Array Char) : Raw := (t.extract m.start m.stop).toList

/-- The part of a text that a group of a match takes. -/
def group (m : Match) (t : Array Char) (n : Nat) : Raw :=
  match m.groups.lookup n with
  | some (a, b) => (t.extract a b).toList
  | none => []

end Match

end LiveUnits.Tool
