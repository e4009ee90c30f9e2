import LiveUnits.Text.Scan
import LiveUnits.Toml.Value

/-!
# Reading TOML

The grammar of a TOML document over a list of characters.  Fewer than `depthLimit` arrays and inline
tables nest in each other, and a dotted key has fewer parts than that.  A document is a sequence of lines; each adds a value
to the table that is open or opens another one (`Toml.Table`).
-/

namespace LiveUnits.Toml

open Scan

/-- The depth that nested values and dotted keys stay below. -/
def depthLimit : Nat := 80

/-- Space and tab. -/
def isSpace (c : Char) : Bool := c == ' ' || c == '\t'

/-- Spaces and tabs. -/
def spaces : Scan Unit := do let _ ← takeWhile isSpace

/-- A line break. -/
def newline : Scan Unit := Scan.char '\n' <|> Scan.text "\r\n"

/-- The characters of a comment. -/
def isCommentChar (c : Char) : Bool :=
  c == '\t' || (' ' ≤ c && c ≤ '~') || 0x80 ≤ c.toNat

def comment? : Scan Unit := do
  if (← optional? (Scan.char '#')).isSome then
    let _ ← takeWhile isCommentChar

/-- What may end a line: spaces, a comment, and a line break or the end of the text. -/
def lineEnd : Scan Unit := do
  spaces
  comment?
  newline <|> finish

/-- Spaces, comments and line breaks inside an array. -/
def gap : Scan Unit := do
  spaces
  let _ ← many (do comment?; newline; spaces)

/-- The value of a digit in base sixteen. -/
def hexValue? (c : Char) : Option Nat :=
  if '0' ≤ c && c ≤ '9' then some (c.toNat - '0'.toNat)
  else if 'a' ≤ c && c ≤ 'f' then some (c.toNat - 'a'.toNat + 10)
  else if 'A' ≤ c && c ≤ 'F' then some (c.toNat - 'A'.toNat + 10)
  else none

/-- A number of `count` digits in base sixteen. -/
def hexNumber (count : Nat) : Scan Nat := fun cs => do
  if cs.length < count then none
  let digits ← (cs.take count).mapM hexValue?
  some (digits.foldl (fun n d => n * 16 + d) 0, cs.drop count)

/-- The character with a given number, if there is one. -/
def scalar (n : Nat) : Scan Char := fun cs =>
  if n.isValidChar then some (Char.ofNat n, cs) else none

/-- The rest of an escape, after the backslash. -/
def escape : Scan Char := do
  match ← satisfy (fun _ => true) with
  | 'b' => pure '\x08'
  | 't' => pure '\t'
  | 'n' => pure '\n'
  | 'f' => pure '\x0c'
  | 'r' => pure '\r'
  | '"' => pure '"'
  | '\\' => pure '\\'
  | 'u' => do scalar (← hexNumber 4)
  | 'U' => do scalar (← hexNumber 8)
  | _ => failure

/-- The characters that stand for themselves between double quotes. -/
def isBasicChar (c : Char) : Bool :=
  c == '\t' || (' ' ≤ c && c ≤ '~' && c != '"' && c != '\\') || 0x80 ≤ c.toNat

/-- The characters that stand for themselves between single quotes. -/
def isLiteralChar (c : Char) : Bool :=
  c == '\t' || (' ' ≤ c && c ≤ '~' && c != '\x27') || 0x80 ≤ c.toNat

/-- A string between double quotes on one line. -/
def basicString : Scan String := do
  Scan.char '"'
  let cs ← many (satisfy isBasicChar <|> (do Scan.char '\\'; escape))
  Scan.char '"'
  pure (String.ofList cs)

/-- A string between single quotes on one line. -/
def literalString : Scan String := do
  Scan.char '\x27'
  let cs ← takeWhile isLiteralChar
  Scan.char '\x27'
  pure (String.ofList cs)

/-- The end of a string of several lines: three quotes, before which up to two more belong to the
string. -/
def multilineEnd (quote : Char) : Scan (List Char) := do
  let run ← takeWhile (· == quote)
  if 3 ≤ run.length && run.length ≤ 5 then pure (run.drop 3) else failure

/-- One or two quotes inside a string of several lines. -/
def innerQuotes (quote : Char) : Scan (List Char) := do
  let run ← takeWhile (· == quote)
  if run.length = 1 || run.length = 2 then pure run else failure

/-- A backslash at the end of a line, with the blank characters after it. -/
def lineContinuation : Scan (List Char) := do
  Scan.char '\\'
  spaces
  newline
  let _ ← many (newline <|> (do let _ ← satisfy isSpace))
  pure []

/-- A string of several lines between triple double quotes. -/
def multilineBasic : Scan String := do
  Scan.text "\"\"\""
  let _ ← optional? newline
  let body ← many ((do pure [← satisfy isBasicChar]) <|> (do newline; pure ['\n'])
    <|> lineContinuation <|> (do Scan.char '\\'; pure [← escape]) <|> innerQuotes '"')
  let quotes ← multilineEnd '"'
  pure (String.ofList (body.flatten ++ quotes))

/-- A string of several lines between triple single quotes. -/
def multilineLiteral : Scan String := do
  Scan.text "\x27\x27\x27"
  let _ ← optional? newline
  let body ← many ((do pure [← satisfy isLiteralChar]) <|> (do newline; pure ['\n'])
    <|> innerQuotes '\x27')
  let quotes ← multilineEnd '\x27'
  pure (String.ofList (body.flatten ++ quotes))

def string : Scan String := do
  multilineBasic <|> multilineLiteral <|> basicString <|> literalString

/-- The characters of a bare key. -/
def isBareKeyChar (c : Char) : Bool := c.isAlphanum || c == '-' || c == '_'

/-- A key without dots. -/
def simpleKey : Scan String := do
  match ← peek? with
  | some '"' => basicString
  | some '\x27' => literalString
  | _ => do
    let cs ← takeWhile isBareKeyChar
    if cs.isEmpty then failure else pure (String.ofList cs)

/-- A key: the parts before the last dot, and the last part. -/
def key : Scan (List String × String) := do
  let parts ← separated (do spaces; let k ← simpleKey; spaces; pure k) (Scan.char '.')
  if depthLimit ≤ parts.length then failure
  match parts.getLast? with
  | some last => pure (parts.dropLast, last)
  | none => failure

/-- A digit of base ten. -/
def isDigit (c : Char) : Bool := '0' ≤ c && c ≤ '9'

/-- Digits with single underscores between them. -/
def digitsOf (p : Char → Bool) : Scan (List Char) := do
  let first ← satisfy p
  let rest ← many (satisfy p <|> (do Scan.char '_'; satisfy p))
  pure (first :: rest)

/-- A sign, if there is one: whether it is a minus. -/
def sign : Scan Bool := do
  match ← peek? with
  | some '+' => do Scan.char '+'; pure false
  | some '-' => do Scan.char '-'; pure true
  | _ => pure false

/-- Digits of base ten without a leading zero. -/
def decimalDigits : Scan (List Char) := do
  let cs ← digitsOf isDigit
  if cs.head? == some '0' && 1 < cs.length then failure else pure cs

/-- The number written by digits. -/
def numberOf (base : Nat) (cs : List Char) : Nat :=
  cs.foldl (fun n c => n * base + (hexValue? c).getD 0) 0

/-- An integer that fits in 64 bits with a sign. -/
def boundedInteger (n : Int) : Scan Int :=
  if -Int.pow 2 63 ≤ n && n < Int.pow 2 63 then pure n else failure

def markedInteger (mark : String) (base : Nat) (p : Char → Bool) : Scan Int := do
  Scan.text mark
  boundedInteger (numberOf base (← digitsOf p))

def integer : Scan Int :=
  markedInteger "0x" 16 (fun c => (hexValue? c).isSome)
  <|> markedInteger "0o" 8 (fun c => '0' ≤ c && c ≤ '7')
  <|> markedInteger "0b" 2 (fun c => c == '0' || c == '1')
  <|> (do
    let negative ← sign
    let n := numberOf 10 (← decimalDigits)
    boundedInteger (if negative then -(n : Int) else n))

/-- The exponent of a floating point number. -/
def exponent : Scan Int := do
  Scan.char 'e' <|> Scan.char 'E'
  let negative ← sign
  let n := numberOf 10 (← digitsOf isDigit)
  pure (if negative then -(n : Int) else n)

/-- The double nearest to `digits · 10^power`. -/
def toDouble (negative : Bool) (digits : Nat) (power : Int) : Float :=
  let x := Float.ofScientific digits (power < 0) power.natAbs
  if negative then -x else x

/-- A floating point number with a fraction or an exponent. -/
def plainFloat : Scan Float := do
  let negative ← sign
  let whole ← decimalDigits
  let fraction ← optional? (do Scan.char '.'; digitsOf isDigit)
  let power ← match fraction with
    | none => some <$> exponent
    | some _ => optional? exponent
  let places := (fraction.getD []).length
  let x := toDouble negative (numberOf 10 (whole ++ fraction.getD []))
    (power.getD 0 - places)
  if x.isInf && !negative then failure else pure x

/-- Infinity, and what is no number. -/
def specialFloat : Scan Float := do
  let negative ← sign
  let x ← (do Scan.text "inf"; pure (1.0 / 0.0 : Float))
    <|> (do Scan.text "nan"; pure (0.0 / 0.0 : Float))
  pure (if negative then -x else x)

/-- A number of exactly `count` digits. -/
def fixedDigits (count : Nat) : Scan Nat := fun cs =>
  let ds := cs.take count
  if ds.length = count && ds.all isDigit then some (numberOf 10 ds, cs.drop count) else none

/-- The number of days of a month. -/
def daysInMonth (year month : Nat) : Nat :=
  if month = 2 then
    if year % 4 = 0 && (year % 100 != 0 || year % 400 = 0) then 29 else 28
  else if month = 4 || month = 6 || month = 9 || month = 11 then 30
  else 31

def date : Scan Unit := do
  let year ← fixedDigits 4
  Scan.char '-'
  let month ← fixedDigits 2
  Scan.char '-'
  let day ← fixedDigits 2
  if 1 ≤ month && month ≤ 12 && 1 ≤ day && day ≤ daysInMonth year month then pure ()
  else failure

/-- A time of day. -/
def time : Scan Unit := do
  let hour ← fixedDigits 2
  Scan.char ':'
  let minute ← fixedDigits 2
  Scan.char ':'
  let second ← fixedDigits 2
  let _ ← optional? (do Scan.char '.'; let _ ← satisfy isDigit; takeWhile isDigit)
  if hour ≤ 23 && minute ≤ 59 && second ≤ 60 then pure () else failure

/-- The offset of a time zone. -/
def offset : Scan Unit :=
  Scan.char 'Z' <|> Scan.char 'z' <|> (do
    let _ ← satisfy fun c => c == '+' || c == '-'
    let hour ← fixedDigits 2
    Scan.char ':'
    let minute ← fixedDigits 2
    if hour ≤ 23 && minute ≤ 59 then pure () else failure)

/-- A date, a time, or both. -/
def moment : Scan Unit :=
  (do
    date
    let _ ← optional? (do
      let _ ← satisfy fun c => c == 'T' || c == 't' || c == ' '
      time
      let _ ← optional? offset)
  ) <|> time

/-- A value that begins with a sign or a digit. -/
def numeric : Scan Value :=
  (do moment; pure .moment)
  <|> (do pure (.float (← plainFloat)))
  <|> (do pure (.float (← specialFloat)))
  <|> (do pure (.integer (← integer)))

/-- The elements of an array, after its bracket. -/
def elements (value : Scan Value) : Scan (List Value) := do
  gap
  let first ← optional? value
  match first with
  | none => do
    Scan.char ']'
    pure []
  | some v => do
    gap
    let others ← many (do Scan.char ','; gap; let w ← value; gap; pure w)
    let _ ← optional? (do Scan.char ','; gap)
    Scan.char ']'
    pure (v :: others)

/-- The table that pairs of keys and values make. -/
def tableOfPairs (pairs : List ((List String × String) × Value)) : Option Table :=
  pairs.foldlM (fun t p => t.insert p.1.1 p.1.2 p.2) (.mk false false [])

/-- The pairs of an inline table, after its brace. -/
def inlinePairs (value : Scan Value) : Scan Value := do
  let pair : Scan ((List String × String) × Value) := do
    let k ← key
    Scan.char '='
    spaces
    let v ← value
    spaces
    pure (k, v)
  spaces
  let pairs ← (separated pair (Scan.char ',')) <|> pure []
  spaces
  Scan.char '\x7d'
  match tableOfPairs pairs with
  | some t => pure (.table t.toFields)
  | none => failure

/-- A value that is neither an array nor an inline table. -/
def plainValue : Scan Value := do
  match ← peek? with
  | some '"' | some '\x27' => do pure (.string (← string))
  | some 't' => do Scan.text "true"; pure (.boolean true)
  | some 'f' => do Scan.text "false"; pure (.boolean false)
  | some 'i' | some 'n' => do pure (.float (← specialFloat))
  | some c => if c == '+' || c == '-' || isDigit c then numeric else failure
  | none => failure

/-- A value in which at most `depth` arrays and inline tables nest in each other. -/
def valueUpTo : Nat → Scan Value
  | 0 => plainValue
  | depth + 1 => do
    match ← peek? with
    | some '[' => do
      Scan.char '['
      pure (.array (← elements (valueUpTo depth)))
    | some '\x7b' => do
      Scan.char '\x7b'
      inlinePairs (valueUpTo depth)
    | _ => plainValue

def value : Scan Value := valueUpTo (depthLimit - 1)

/-- A line of a document. -/
inductive Line where
  /-- A blank line or a comment. -/
  | blank
  | pair (parents : List String) (key : String) (v : Value)
  | table (parents : List String) (key : String)
  /-- The header of an element of an array of tables. -/
  | element (parents : List String) (key : String)

/-- A line of a document. -/
def line : Scan Line := do
  spaces
  match ← peek? with
  | none => failure
  | some '#' => do lineEnd; pure .blank
  | some '\n' | some '\r' => do newline; pure .blank
  | some '[' => do
    Scan.char '['
    if (← optional? (Scan.char '[')).isSome then
      let k ← key
      Scan.text "]]"
      lineEnd
      pure (.element k.1 k.2)
    else
      let k ← key
      Scan.char ']'
      lineEnd
      pure (.table k.1 k.2)
  | some _ => do
    let k ← key
    Scan.char '='
    spaces
    let v ← value
    lineEnd
    pure (.pair k.1 k.2 v)

/-- A document as it is read: the root table and the path of the open one. -/
structure Document where
  root : Table
  /-- The path of the table that further pairs go to. -/
  current : List String

def Document.add (d : Document) : Line → Option Document
  | .blank => some d
  | .pair parents key v => do
    let root ← d.root.modifyAt false (Table.insert parents key v) d.current
    some { d with root }
  | .table parents key => do
    some ⟨← d.root.openTable parents key, parents ++ [key]⟩
  | .element parents key => do
    some ⟨← d.root.openElement parents key, parents ++ [key]⟩

/-- Reads a document: the keys of its root table with their values. -/
def read? (s : String) : Option (List (String × Value)) := do
  let cs := s.toList
  let body := if cs.head? == some '\uFEFF' then cs.drop 1 else cs
  let lines ← all? (do let ls ← many line; spaces; pure ls) body
  let d ← lines.foldlM Document.add ⟨.mk false false [], []⟩
  some d.root.toFields

end LiveUnits.Toml
