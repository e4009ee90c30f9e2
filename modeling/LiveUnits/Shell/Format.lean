import LiveUnits.Shell.Escape
import LiveUnits.Shell.Numeral

/-!
# Formats

What `printf` makes of a format and arguments: the format is used again until no arguments are left,
and arguments that are missing count as empty.
-/

namespace LiveUnits.Shell

/-- A directive of a format. -/
structure Directive where
  /-- What is to be shown first, and how it is to be padded. -/
  flags : List Char := []
  /-- The least number of characters. -/
  width : Nat := 0
  /-- How many characters of a text, or digits of a number. -/
  precision : Option Nat := none
  /-- What kind of value is shown. -/
  kind : Char := 's'

namespace Directive

/-- Whether a flag is set. -/
def has (d : Directive) (c : Char) : Bool := d.flags.contains c

/-- Fills a text up with blanks. -/
def fill (d : Directive) (r : Raw) : Raw :=
  let gap := List.replicate (d.width - r.length) ' '
  if d.has '-' then r ++ gap else gap ++ r

/-- Fills a number up behind its sign. -/
def fillNumber (d : Directive) (zeros : Bool) (sign body : Raw) : Raw :=
  if zeros && d.has '0' && !d.has '-' then
    sign ++ List.replicate (d.width - sign.length - body.length) '0' ++ body
  else d.fill (sign ++ body)

/-- The sign that a number shows. -/
def signOf (d : Directive) (isNegative : Bool) : Raw :=
  if isNegative then ['-'] else if d.has '+' then ['+'] else if d.has ' ' then [' '] else []

def showDigits (d : Directive) (sign body : Raw) : Raw :=
  match d.precision with
  | some n =>
    let body := if n = 0 && body == ['0'] then [] else body
    d.fillNumber false sign (List.replicate (n - body.length) '0' ++ body)
  | none => d.fillNumber true sign body

/-- Shows a whole number. -/
def showInt (d : Directive) (n : Int) : Raw := d.showDigits (d.signOf (n < 0)) (digits n.natAbs)

/-- Shows a number in a base. -/
def showBase (d : Directive) (base : Nat) (n : Nat) : Raw :=
  let body := Nat.toDigits base n
  if base = 16 then
    let shown := d.showDigits (if d.has '#' && n != 0 then ['0', 'x'] else []) body
    if d.kind == 'X' then shown.map Char.toUpper else shown
  else if base = 8 && d.has '#' then
    let least := if n = 0 then 1 else body.length + 1
    ({ d with precision := match d.precision with
        | some p => some (max p least)
        | none => if d.has '0' && !d.has '-' then some (max least d.width) else some least } :
      Directive).showDigits [] body
  else d.showDigits [] body

/-- Shows a number with a fraction. -/
def showFraction (d : Directive) (x : Fraction) : Raw :=
  let cased (r : Raw) : Raw := if d.kind.isUpper then r.map Char.toUpper else r
  match x with
  | .infinite negative => d.fill (d.signOf negative ++ cased "inf")
  | .undefined negative => d.fill (d.signOf negative ++ cased "nan")
  | .finite b =>
    let sharp := d.has '#'
    let places := d.precision.getD 6
    let body := match d.kind.toLower with
      | 'f' => b.fixed places sharp
      | 'e' => b.scientific places sharp
      | 'g' => b.general places sharp
      | _ => b.hexadecimal d.precision sharp
    if d.kind.toLower == 'a' then
      cased (d.fillNumber true (d.signOf b.negative ++ body.take 2) (body.drop 2))
    else cased (d.fillNumber true (d.signOf b.negative) body)

def showText (d : Directive) (r : Raw) : Raw := d.fill ((d.precision.map fun n => r.take n).getD r)

end Directive

/-- What is wrong with an argument or with the format. -/
inductive Complaint where
  /-- An argument has no number at its front. -/
  | notNumeric (r : Raw)
  /-- Something follows the number at the front of an argument. -/
  | partly (r : Raw)
  /-- A number does not have 64 bits. -/
  | outOfRange (r : Raw)
  /-- A directive is none. -/
  | invalid (r : Raw)
  /-- The format ends within a directive. -/
  | unfinished

namespace Complaint

/-- What the shell says. -/
def text : Complaint → Raw
  | notNumeric r => r ++ ": expected numeric value"
  | partly r => r ++ ": not completely converted"
  | outOfRange r => r ++ ": Numerical result out of range"
  | invalid r => r ++ ": invalid directive"
  | unfinished => "missing format character"

end Complaint

/-- What a format makes of arguments. -/
structure Printed where
  /-- What is written, the last piece first. -/
  out : List Raw := []
  /-- What is wrong with arguments, the last piece first. -/
  complaints : List Complaint := []
  /-- What is wrong with the format. -/
  fault : Option Complaint := none
  /-- Whether an argument asked to be cut short. -/
  isCut : Bool := false
  /-- The arguments that have not been used. -/
  left : List Raw

namespace Printed

/-- Writes a text. -/
def put (p : Printed) (r : Raw) : Printed := { p with out := r :: p.out }

/-- The next argument, if there is one. -/
def next (p : Printed) : Option Raw × Printed := (p.left.head?, { p with left := p.left.drop 1 })

/-- Notes what is wrong with a number: `rest` is what could not be read. -/
def check (p : Printed) (r rest : Raw) (found fits : Bool) : Printed :=
  let note (what : Complaint) : Printed := { p with complaints := what :: p.complaints }
  if !rest.isEmpty then
    if found then note (.partly r) else note (.notNumeric r)
  else if fits then p
  else note (.outOfRange r)

/-- The next argument as a whole number. -/
def nextWhole (isSigned : Bool) (p : Printed) : Int × Printed :=
  match p.next with
  | (none, p) => (0, p)
  | (some (mark :: r), p) =>
    if mark == '\x27' || mark == '"' then (((r.head?.getD '\x00').toNat : Int), p)
    else
      let n := readWhole true (mark :: r)
      if isSigned then
        (clamp n.value, p.check (mark :: r) n.rest n.found (isInRange n.value))
      else
        let fits := n.value.natAbs < Nat.pow 2 64
        ((if fits then n.value % Int.pow 2 64 else Int.pow 2 64 - 1), p.check (mark :: r) n.rest n.found fits)
  | (some [], p) => (0, p)

/-- The next argument as a number with a fraction. -/
def nextFraction (p : Printed) : Fraction × Printed :=
  match p.next with
  | (none, p) => (.ofFloat 0, p)
  | (some (mark :: r), p) =>
    if mark == '\x27' || mark == '"' then (.ofFloat (Float.ofNat (r.head?.getD '\x00').toNat), p)
    else
      let n := readDecimal (mark :: r)
      (.ofFloat n.value, p.check (mark :: r) n.rest n.found true)
  | (some [], p) => (.ofFloat 0, p)

/-- A width or a precision: digits, or an argument. -/
def amount (p : Printed) : Raw → Option Int × Raw × Printed
  | '*' :: rest =>
    let (n, p) := p.nextWhole true
    (some n, rest, p)
  | r =>
    let ds := r.takeWhile Char.isDigit
    (if ds.isEmpty then none else some (number ds), r.drop ds.length, p)

/-- The directive after a percent sign without its kind, and what follows. -/
def directive (p : Printed) (r : Raw) : Directive × Raw × Printed :=
  let flags := r.takeWhile "#-+ 0".toList.contains
  let (width, r, p) := p.amount (r.drop flags.length)
  let flags := if width.any (· < 0) then '-' :: flags else flags
  let d : Directive := { flags, width := (width.getD 0).natAbs }
  match r with
  | '.' :: rest =>
    let (precision, r, p) := p.amount rest
    let precision := match precision with
      | some n => if n < 0 then none else some n.toNat
      | none => some 0
    ({ d with precision }, r, p)
  | r => (d, r, p)

/-- Carries a directive out; `spelling` is its text. -/
def carryOut (p : Printed) (d : Directive) (spelling : Raw) : Printed :=
  match d.kind with
  | 's' =>
    let (r, p) := p.next
    p.put (d.showText (r.getD []))
  | 'c' =>
    let (r, p) := p.next
    p.put (d.fill [(r.getD []).head?.getD '\x00'])
  | 'b' =>
    let (r, p) := p.next
    let (text, ends) := unescape ((r.getD []).length + 1) (r.getD [])
    { p.put (d.showText text) with isCut := ends }
  | 'd' | 'i' =>
    let (n, p) := p.nextWhole true
    p.put (d.showInt n)
  | 'u' =>
    let (n, p) := p.nextWhole false
    p.put (d.showBase 10 n.toNat)
  | 'o' =>
    let (n, p) := p.nextWhole false
    p.put (d.showBase 8 n.toNat)
  | 'x' | 'X' =>
    let (n, p) := p.nextWhole false
    p.put (d.showBase 16 n.toNat)
  | 'a' | 'A' | 'e' | 'E' | 'f' | 'F' | 'g' | 'G' =>
    let (x, p) := p.nextFraction
    p.put (d.showFraction x)
  | _ => { p with fault := some (.invalid spelling) }

/-- How the escapes of a format are read: the character that one stands for, and what follows it. -/
abbrev EscapeReader := Raw → Option (Char × Raw)

/-- What one pass over a format makes of arguments; the first argument bounds its pieces. -/
def once (escape : EscapeReader) : Nat → Raw → Printed → Printed
  | 0, _, p => p
  | _, [], p => p
  | fuel + 1, '%' :: '%' :: rest, p => once escape fuel rest (p.put ['%'])
  | fuel + 1, '%' :: rest, p =>
    match p.directive rest with
    | (_, [], p) => { p with fault := some .unfinished }
    | (d, kind :: after, p) =>
      let p := p.carryOut { d with kind } ('%' :: rest.take (rest.length - after.length))
      if p.fault.isSome || p.isCut then p else once escape fuel after p
  | fuel + 1, '\\' :: rest, p =>
    match escape rest with
    | some (c, after) => once escape fuel after (p.put [c])
    | none => once escape fuel rest (p.put ['\\'])
  | fuel + 1, c :: rest, p =>
    let run := rest.takeWhile fun c => c != '%' && c != '\\'
    once escape fuel (rest.drop run.length) (p.put (c :: run))

/-- What a format makes of arguments; the first argument bounds the number of passes. -/
def all (escape : EscapeReader) : Nat → Raw → Printed → Printed
  | 0, _, p => p
  | fuel + 1, format, p =>
    let after := once escape (format.length + 1) format p
    if after.left.isEmpty || after.left.length == p.left.length || after.fault.isSome || after.isCut then after
    else all escape fuel format after

/-- What a format makes of arguments. -/
def ofFormat (escape : EscapeReader) (format : Raw) (args : List Raw) : Printed :=
  all escape (args.length + 1) format { left := args }

/-- What is written. -/
def text (p : Printed) : Raw := p.out.reverse.flatten

/-- The exit code. -/
def status (p : Printed) : Nat := if p.fault.isSome then 2 else if p.complaints.isEmpty then 0 else 1

end Printed

end LiveUnits.Shell
