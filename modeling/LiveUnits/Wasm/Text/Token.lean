import LiveUnits.Text.Utf8
import LiveUnits.Wasm.Text.Literal

/-!
# Tokens

The text form of a module is cut into parentheses, strings, numbers, names, keywords and marks of
annotations.  Blanks and comments separate tokens and count for nothing.  An annotation counts for
nothing either, unless its mark is one that the grammar knows or a blank keeps the mark away from its
parenthesis.
-/

namespace LiveUnits.Wasm

/-- A token of the text form. -/
inductive Token where
  | opening
  | closing
  | string (bytes : Bytes)
  /-- A name, without the sign in front of it. -/
  | name (s : String)
  | keyword (s : String)
  /-- The mark of an annotation, without the sign in front of it. -/
  | mark (s : String)
  /-- A whole number. -/
  | integer (i : IntegerLiteral)
  /-- A floating point number. -/
  | float (f : FloatLiteral)
  /-- Anything else; only annotations that count for nothing may hold it. -/
  | other
  deriving DecidableEq, Repr

namespace Token

/-! ## Characters -/

/-- The characters of words. -/
def isWordChar (c : Char) : Bool :=
  c.isAlphanum || "!#$%&\x27*+-./:<=>?@\\^_\x60|~".toList.contains c

/-- The characters that separate tokens. -/
def isBlank (c : Char) : Bool := c == ' ' || c == '\t' || c == '\n' || c == '\r'

/-- The characters besides those of words that are tokens of their own. -/
def isPunctuation (c : Char) : Bool := [',', ';', '[', ']', '\x7b', '\x7d'].contains c

/-- The characters that turn the direction of writing, which no comment and no string may hold. -/
def isConfusing (c : Char) : Bool :=
  [0x202A, 0x202B, 0x202D, 0x202E, 0x2066, 0x2067, 0x2068, 0x206C, 0x2069].contains c.toNat

/-- The characters that stand for themselves in strings. -/
def isPlain (c : Char) : Bool := ' ' ≤ c && c != '\x7f' && !isConfusing c

/-! ## Comments -/

/-- The rest of a line comment. -/
def skipLine : List Char → Option (List Char)
  | [] => some []
  | c :: rest =>
    if c == '\n' || c == '\r' then some (c :: rest)
    else if isConfusing c then none
    else skipLine rest

/-- The rest of a block comment; comments nest. -/
def skipBlock : Nat → List Char → Option (List Char)
  | _, [] => none
  | depth, ';' :: ')' :: rest =>
    match depth with
    | 0 => some rest
    | depth + 1 => skipBlock depth rest
  | depth, '(' :: ';' :: rest => skipBlock (depth + 1) rest
  | depth, c :: rest => if isConfusing c then none else skipBlock depth rest

/-! ## Strings -/

/-- The digits of a character number after the first one.  Underscores may stand between them. -/
def moreHexDigits (value : Nat) (dangling : Bool) : List Char → Option (Nat × List Char)
  | [] => none
  | c :: rest =>
    if c = '_' then moreHexDigits value true rest
    else
      match Literal.hexDigit? c with
      | some d => moreHexDigits (16 * value + d) false rest
      | none => if dangling then none else some (value, c :: rest)

/-- The character with a number. -/
def character? (n : Nat) : Option Char :=
  if n < 0x110000 ∧ ¬(0xD800 ≤ n ∧ n < 0xE000) then some (Char.ofNat n) else none

/-- The bytes of a character. -/
def bytesOf (c : Char) : Bytes := Utf8.encode (String.ofList [c])

/-- What follows a backslash in a string. -/
def escape : List Char → Option (Bytes × List Char)
  | 't' :: rest => some ([0x09], rest)
  | 'n' :: rest => some ([0x0A], rest)
  | 'r' :: rest => some ([0x0D], rest)
  | '"' :: rest => some ([0x22], rest)
  | '\x27' :: rest => some ([0x27], rest)
  | '\\' :: rest => some ([0x5C], rest)
  | 'u' :: '\x7b' :: c :: rest => do
    let first ← Literal.hexDigit? c
    match ← moreHexDigits first false rest with
    | (n, '\x7d' :: rest) => do pure (bytesOf (← character? n), rest)
    | _ => none
  | c :: d :: rest => do
    let high ← Literal.hexDigit? c
    let low ← Literal.hexDigit? d
    pure ([UInt8.ofNat (16 * high + low)], rest)
  | _ => none

/-- The rest of a string.  `before` holds the bytes so far, the last one first. -/
def closeString : Nat → Bytes → List Char → Option (Bytes × List Char)
  | 0, _, _ => none
  | fuel + 1, before, cs =>
    match cs with
    | '"' :: rest => some (before.reverse, rest)
    | '\\' :: rest => do
      let (bytes, rest) ← escape rest
      closeString fuel (bytes.reverse ++ before) rest
    | c :: rest =>
      if isPlain c then closeString fuel ((bytesOf c).reverse ++ before) rest else none
    | [] => none

/-! ## Words -/

/-- A piece of a word: a run of its characters, or a string. -/
inductive Piece where
  | run (cs : List Char)
  | string (bytes : Bytes)

/-- The pieces that follow each other without a blank. -/
def pieces : Nat → List Char → Option (List Piece × List Char)
  | 0, _ => none
  | fuel + 1, cs =>
    match cs with
    | '"' :: rest => do
      let (bytes, rest) ← closeString fuel [] rest
      let (others, rest) ← pieces fuel rest
      pure (.string bytes :: others, rest)
    | c :: rest =>
      if isWordChar c then do
        let (others, rest') ← pieces fuel (rest.dropWhile isWordChar)
        pure (.run (c :: rest.takeWhile isWordChar) :: others, rest')
      else some ([], c :: rest)
    | [] => some ([], [])

/-- A token with a text that is not empty. -/
def named (token : String → Token) (cs : List Char) : Token :=
  if cs.isEmpty then .other else token (String.ofList cs)

/-- A token with a text in quotes. -/
def quoted (token : String → Token) (bytes : Bytes) : Token :=
  match Utf8.decode? bytes with
  | some s => named token s.toList
  | none => .other

/-- The token that a run of characters is. -/
def ofRun (cs : List Char) : Token :=
  match Literal.ofWord? cs with
  | some (.integer i) => .integer i
  | some (.float f) => .float f
  | none =>
    match cs with
    | '$' :: rest => named .name rest
    | '@' :: rest => named .mark rest
    | c :: _ => if 'a' ≤ c && c ≤ 'z' then .keyword (String.ofList cs) else .other
    | [] => .other

def ofPieces : List Piece → Token
  | [.run cs] => ofRun cs
  | [.string bytes] => .string bytes
  | [.run ['$'], .string bytes] => quoted .name bytes
  | [.run ['@'], .string bytes] => quoted .mark bytes
  | _ => .other

/-! ## Texts -/

/-- The marks that the grammar knows. -/
def knownMarks : List String :=
  ["custom", "producers", "name", "dylink.0", "metadata.code.branch_hint"]

/-- Whether a mark that the grammar does not know comes at once. -/
def opensNote (fuel : Nat) (cs : List Char) : Bool :=
  cs.head? == some '@' &&
    match pieces fuel cs with
    | some (ps, _) =>
      match ofPieces ps with
      | .mark s => !knownMarks.contains s
      | _ => false
    | none => false

/-- The tokens of a text, of which `before` are read, the last one first.  `depth` is the number of
parentheses that are open in an annotation that counts for nothing. -/
def scan : Nat → Nat → List Token → List Char → Option (List Token)
  | 0, _, _, _ => none
  | fuel + 1, depth, before, cs =>
    match cs with
    | [] => if depth = 0 then some before.reverse else none
    | ';' :: ';' :: rest => (skipLine rest).bind (scan fuel depth before)
    | '(' :: ';' :: rest => (skipBlock 0 rest).bind (scan fuel depth before)
    | '(' :: rest =>
      if depth ≠ 0 then scan fuel (depth + 1) before rest
      else if opensNote fuel rest then scan fuel 1 before rest
      else scan fuel 0 (.opening :: before) rest
    | ')' :: rest =>
      if depth ≠ 0 then scan fuel (depth - 1) before rest
      else scan fuel 0 (.closing :: before) rest
    | c :: rest =>
      if isBlank c then scan fuel depth before rest
      else
        let keep (t : Token) : List Token := if depth = 0 then t :: before else before
        if isPunctuation c then scan fuel depth (keep .other) rest
        else if c = '"' || isWordChar c then
          (pieces fuel cs).bind fun (ps, rest) => scan fuel depth (keep (ofPieces ps)) rest
        else none

def ofText? (cs : List Char) : Option (List Token) := scan (cs.length + 1) 0 [] cs

/-- Whether a text holds nothing but blanks and comments. -/
def isVoid : Nat → List Char → Bool
  | 0, _ => true
  | fuel + 1, cs =>
    match cs with
    | [] => true
    | ';' :: ';' :: rest => (skipLine rest).all (isVoid fuel)
    | '(' :: ';' :: rest => (skipBlock 0 rest).all (isVoid fuel)
    | c :: rest => isBlank c && isVoid fuel rest

end Token

end LiveUnits.Wasm
