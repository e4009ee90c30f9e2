import LiveUnits.Shell.Raw

/-!
# Patterns

A pattern matches whole texts: `*` stands for any text, `?` for one character, and a bracket expression
for a character of a set.  Each character of a pattern tells whether it may be special; a special
backslash makes the character after it mean itself.
-/

namespace LiveUnits.Shell

/-- A pattern: characters, each with whether it may be special. -/
abbrev Pattern := List (Char × Bool)

def Pattern.text (p : Pattern) : Raw := p.map (·.1)

/-- A set of characters in brackets. -/
structure Bracket where
  /-- Whether the characters of the set are the ones that match. -/
  inside : Bool
  ranges : List (Char × Char)
  classes : List (Char → Bool)

/-- Whether a set matches a character. -/
def Bracket.holds (b : Bracket) (c : Char) : Bool :=
  ((b.ranges.any fun (low, high) => low ≤ c && c ≤ high) || b.classes.any (· c)) == b.inside

namespace Pattern

/-- The name of a class between colons at the front of a pattern, and what follows the bracket that
closes it. -/
def className? : Pattern → Option (Raw × Pattern)
  | (':', _) :: rest =>
    let name := rest.takeWhile (·.1.isAlpha)
    match rest.drop name.length with
    | (':', _) :: (']', _) :: after => some (text name, after)
    | _ => none
  | _ => none

/-- The next character of a set, as itself, and what follows it. -/
def plainChar : Pattern → Option (Char × Pattern)
  | ('\\', true) :: (c, _) :: rest => some (c, rest)
  | (c, _) :: rest => some (c, rest)
  | [] => none

/-- The members of a set up to the bracket that closes it, and what follows that.  A bracket that comes
first is a member.  The first argument is a bound on the members. -/
def members : Nat → Bool → Pattern → Option (List (Char × Char) × List (Char → Bool) × Pattern)
  | 0, _, _ => none
  | _, _, [] => none
  | fuel + 1, isFirst, (c, special) :: rest =>
    if c == ']' && special && !isFirst then some ([], [], rest)
    else
      match if c == '[' && special then (className? rest).bind fun (name, after) =>
          (characterClass? name).map fun p => (p, after) else none with
      | some (p, after) =>
        (members fuel false after).map fun (ranges, classes, r) => (ranges, p :: classes, r)
      | none =>
        match plainChar ((c, special) :: rest) with
        | none => none
        | some (low, after) =>
          let single := (members fuel false after).map fun (ranges, classes, r) =>
            ((low, low) :: ranges, classes, r)
          match after with
          | ('-', true) :: (']', true) :: _ => single
          | ('-', true) :: end_ =>
            match plainChar end_ with
            | some (high, r) =>
              (members fuel false r).map fun (ranges, classes, r) => ((low, high) :: ranges, classes, r)
            | none => none
          | _ => single

/-- The set after an opening bracket, and what follows it. -/
def bracket? (p : Pattern) : Option (Bracket × Pattern) :=
  let (inside, body) := match p with
    | ('!', true) :: rest => (false, rest)
    | rest => (true, rest)
  (members (body.length + 1) true body).map fun (ranges, classes, after) =>
    (⟨inside, ranges, classes⟩, after)

/-- Whether a pattern matches a whole text, with a bound on the steps. -/
def matchesWithin : Nat → Pattern → Raw → Bool
  | 0, _, _ => false
  | _, [], r => r.isEmpty
  | fuel + 1, ('*', true) :: rest, r =>
    matchesWithin fuel rest r ||
      (match r with
        | _ :: r' => matchesWithin fuel (('*', true) :: rest) r'
        | [] => false)
  | fuel + 1, ('?', true) :: rest, _ :: r => matchesWithin fuel rest r
  | fuel + 1, ('[', true) :: rest, c :: r =>
    match bracket? rest with
    | some (set, after) => set.holds c && matchesWithin fuel after r
    | none => c == '[' && matchesWithin fuel rest r
  | fuel + 1, ('\\', true) :: (p, _) :: rest, c :: r => p == c && matchesWithin fuel rest r
  | fuel + 1, (p, _) :: rest, c :: r => p == c && matchesWithin fuel rest r
  | _, _ :: _, [] => false

/-- Whether a pattern matches a whole text. -/
def matchesAll (p : Pattern) (r : Raw) : Bool := matchesWithin (p.length + r.length + 1) p r

/-- Whether a pattern has a special character. -/
def isSpecial (p : Pattern) : Bool := p.any fun (c, special) => special && "*?[".toList.contains c

/-- A text without a part at its end that a pattern matches, the shortest or the longest one. -/
def cutEnd (p : Pattern) (longest : Bool) (r : Raw) : Raw :=
  let places := (List.range (r.length + 1)).filter fun i => p.matchesAll (r.drop i)
  match if longest then places.head? else places.getLast? with
  | some i => r.take i
  | none => r

/-- A text without a part at its front that a pattern matches, the shortest or the longest one. -/
def cutFront (p : Pattern) (longest : Bool) (r : Raw) : Raw :=
  let places := (List.range (r.length + 1)).filter fun i => p.matchesAll (r.take i)
  match if longest then places.getLast? else places.head? with
  | some i => r.drop i
  | none => r

/-- The parts of a pattern between slashes. -/
def steps : Pattern → List Pattern
  | [] => [[]]
  | (c, special) :: rest =>
    match steps rest with
    | step :: others =>
      if c == '/' then [] :: step :: others else ((c, special) :: step) :: others
    | [] => [[(c, special)]]

end Pattern

end LiveUnits.Shell
