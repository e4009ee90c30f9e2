import LiveUnits.Shell.Format
import LiveUnits.Tool.Order

/-!
# Small tools

Tools that write what they are given, wait, or tell about the system and the one who uses it.
-/

namespace LiveUnits.Tool

open Shell

/-! ## Writing arguments -/

/-- The escape after a backslash: the character for which it stands, and what follows it. -/
def richEscape? (r : Raw) : Option (Char × Raw) :=
  match r with
  | 'x' :: rest =>
    let ds := (rest.take 2).takeWhile isHexadecimal
    if ds.isEmpty then none else some (Char.ofNat (numberIn 16 ds), rest.drop ds.length)
  | 'e' :: rest => some ('\x1b', rest)
  | r => escape? r

/-- A text with its escapes resolved, and whether it asked to be cut short.  The first argument bounds
the characters. -/
def resolveEscapes : Nat → Raw → Raw × Bool
  | 0, r => (r, false)
  | _, [] => ([], false)
  | _, '\\' :: 'c' :: _ => ([], true)
  | fuel + 1, '\\' :: rest =>
    let start := match rest with
      | '0' :: d :: _ => if isOctal d then rest.drop 1 else rest
      | _ => rest
    let isDigits := rest.head?.any fun c => isOctal c && c != '0'
    match if isDigits then none else richEscape? start with
    | some (c, after) =>
      let (out, cut) := resolveEscapes fuel after
      (c :: out, cut)
    | none =>
      let (out, cut) := resolveEscapes fuel rest
      ('\\' :: out, cut)
  | fuel + 1, c :: rest =>
    let (out, cut) := resolveEscapes fuel rest
    (c :: out, cut)

/-- The tool `echo`. -/
def echo : Program := fun c => do
  let isOption (a : Raw) : Bool := match a with
    | '-' :: letters => !letters.isEmpty && letters.all "neE".toList.contains
    | _ => false
  let given := c.arguments.takeWhile isOption
  let letters := given.flatten
  let joined := [' '].intercalate (c.arguments.drop given.length)
  let resolves := (letters.filter fun l => l == 'e' || l == 'E').getLast? == some 'e'
  let (text, isCut) := if resolves then resolveEscapes (joined.length + 1) joined else (joined, false)
  print (if isCut || letters.contains 'n' then text else text ++ ['\n'])

/-- What `printf` says about an argument or the format. -/
def complaintText : Complaint → List Raw
  | .notNumeric r => [quote r, ": expected a numeric value"]
  | .partly r => [quote r, ": value not completely converted"]
  | .outOfRange r => [quote r, ": Numerical result out of range"]
  | .invalid r => [r, ": invalid conversion specification"]
  | .unfinished => ["%: invalid conversion specification"]

/-- The tool `printf`. -/
def printf : Program := fun c => do
  let args := if c.arguments.head? == some ['-', '-'] then c.arguments.drop 1 else c.arguments
  match args with
  | [] => lacking c "operand"
  | format :: rest =>
    let p := Printed.ofFormat richEscape? format rest
    for x in p.complaints.reverse do
      blame ([c.name, ": "] ++ complaintText x)
    print p.text
    match p.fault with
    | some x => die ([c.name, ": "] ++ complaintText x)
    | none =>
      match p.left with
      | r :: _ =>
        if !p.isCut then
          warn [c.name, ": warning: ignoring excess arguments, starting with ", quote r]
      | [] => pure ()

/-- The tool `yes`. -/
def yes : Program := fun c => do
  let args := if c.arguments.head? == some ['-', '-'] then c.arguments.drop 1 else c.arguments
  let l := line [[' '].intercalate (if args.isEmpty then [['y']] else args)]
  print (List.replicate (plenty / l.length + 1) l).flatten
  modify fun p => { p with endless := true }

/-- The tool `true`. -/
def succeed : Program := fun _ => pure ()

/-- The tool `false`. -/
def giveUp : Program := fun _ => quit 1

/-! ## Waiting -/

/-- The nanoseconds of a number with a unit. -/
def interval? (r : Raw) : Option Nat :=
  let n := readDecimal r
  if !n.found || n.value < 0 || (r.head?.map isSpace).getD true then none
  else
    let factor : Option Nat := match n.rest with
      | [] | ['s'] => some 1
      | ['m'] => some 60
      | ['h'] => some 3600
      | ['d'] => some 86400
      | _ => none
    factor.map fun f =>
      match Fraction.ofFloat n.value with
      | .finite b => b.scaled 9 * f
      | _ => Nat.pow 10 30

/-- The tool `sleep`. -/
def sleep : Program := fun c => do
  let a ← ({} : Options).read c
  if a.operands.isEmpty then lacking c "operand"
  let mut total := 0
  let mut wrong := false
  for r in a.operands do
    match interval? r with
    | some n => total := total + n
    | none =>
      warn [c.name, ": invalid time interval ", quote r]
      wrong := true
  if wrong then die ["Try '", c.name, " --help' for more information."]
  modify fun p => { p with elapsed := p.elapsed + total }

/-! ## The system -/

/-- The tool `printenv`. -/
def printenv : Program := fun c => do
  let a ← ({ plain := "0", code := 2 } : Options).read c
  if a.operands.isEmpty then
    for (name, value) in c.environment do print (line [name, "=", value])
  else
    for name in a.operands do
      match c.environment.lookup name with
      | some value => print (line [value])
      | none => noteStatus 1

/-- The tool `id`. -/
def identity : Program := fun c => do
  let a ← ({ plain := "agGnruz"
             long := [("user", 'u', none), ("group", 'g', none), ("name", 'n', none), ("groups", 'G', none),
               ("real", 'r', none)] } : Options).read c
  if a.hasAny "ugG" then print (line [if a.has 'n' then "root" else "0"])
  else if a.has 'n' then die [c.name, ": cannot print only names or real IDs in default format"]
  else print "uid=0(root) gid=0(root) groups=0(root)\n"

/-- The tool `whoami`. -/
def whoami : Program := fun c => do
  let a ← ({} : Options).read c
  match a.operands with
  | r :: _ => excess c r
  | [] => print "root\n"

/-- The tool `uname`. -/
def uname : Program := fun c => do
  let a ← ({ plain := "asnrvmpio"
             long := [("all", 'a', none), ("kernel-name", 's', none), ("machine", 'm', none),
               ("operating-system", 'o', none)] } : Options).read c
  match a.operands with
  | r :: _ => excess c r
  | [] =>
    let parts : List (Char × Raw) := [('s', "Linux"), ('m', "x86_64"), ('o', "GNU/Linux")]
    let chosen := if a.options.isEmpty then parts.take 1 else parts.filter fun p => a.has 'a' || a.has p.1
    print (line [[' '].intercalate (chosen.map (·.2))])

/-- The tool `pwd`. -/
def pwd : Program := fun c => do
  let a ← ({ plain := "LP", long := [("logical", 'L', none), ("physical", 'P', none)] } : Options).read c
  let fs ← files
  let place := '/' :: ['/'].intercalate (fs.cwd.map raw)
  print (line [if a.has 'L' then (c.environment.lookup ("PWD" : Raw)).getD place else place])

/-- The tool `tty`. -/
def tty : Program := fun c => do
  let a ← ({ plain := "s", code := 2 } : Options).read c
  if !a.has 's' then print "not a tty\n"
  quit 1

/-- A tool that writes a line. -/
def tells (r : Raw) : Program := fun c => do
  let _ ← ({} : Options).read c
  print (line [r])

/-! ## Letters for bytes -/

/-- The digits in base sixty-four. -/
def digits64 : Array Char :=
  "ABCDEFGHIJKLMNOPQRSTUVWXYZabcdefghijklmnopqrstuvwxyz0123456789+/".toList.toArray

/-- Bytes as digits in base sixty-four. -/
def encode64 : Raw → Raw
  | [] => []
  | [a] =>
    let n := a.toNat * 65536
    [digits64[n / 262144]!, digits64[n / 4096 % 64]!, '=', '=']
  | [a, b] =>
    let n := a.toNat * 65536 + b.toNat * 256
    [digits64[n / 262144]!, digits64[n / 4096 % 64]!, digits64[n / 64 % 64]!, '=']
  | a :: b :: c :: rest =>
    let n := a.toNat * 65536 + b.toNat * 256 + c.toNat
    digits64[n / 262144]! :: digits64[n / 4096 % 64]! :: digits64[n / 64 % 64]! :: digits64[n % 64]! ::
      encode64 rest

/-- The bytes that digits in base sixty-four stand for, and whether all of them could be read. -/
def decode64 : Raw → Raw × Bool
  | [] => ([], true)
  | a :: b :: c :: d :: rest =>
    let place (x : Char) : Option Nat := digits64.findIdx? (· == x)
    match place a, place b, place c, place d with
    | some w, some x, some y, some z =>
      let n := w * 262144 + x * 4096 + y * 64 + z
      let (out, fits) := decode64 rest
      (Char.ofNat (n / 65536) :: Char.ofNat (n / 256 % 256) :: Char.ofNat (n % 256) :: out, fits)
    | some w, some x, some y, none =>
      let n := w * 262144 + x * 4096 + y * 64
      ([Char.ofNat (n / 65536), Char.ofNat (n / 256 % 256)], d == '=' && rest.isEmpty)
    | some w, some x, none, none =>
      ([Char.ofNat ((w * 262144 + x * 4096) / 65536)], c == '=' && d == '=' && rest.isEmpty)
    | _, _, _, _ => ([], false)
  | _ => ([], false)

/-- A text in lines of some width; the first argument bounds their number. -/
def wrapped (width : Nat) : Nat → Raw → Raw
  | 0, _ => []
  | _, [] => []
  | fuel + 1, r => r.take width ++ '\n' :: wrapped width fuel (r.drop width)

/-- The tool `base64`. -/
def base64 : Program := fun c => do
  let a ← ({ plain := "di", valued := "w"
             long := [("decode", 'd', none), ("wrap", 'w', some true), ("ignore-garbage", 'i', none)] } :
    Options).read c
  let width := ((a.last? 'w').bind naturalOf).getD 76
  let r := (a.operands.head?).getD ['-']
  match ← readFile c r with
  | .error f => die [c.name, ": ", r, ": ", phrase f]
  | .ok text =>
    if a.has 'd' then
      let (out, fits) := decode64 (text.filter fun x => x != '\n')
      print out
      if !fits then blame [c.name, ": invalid input"]
    else
      let out := encode64 text
      print (if width = 0 then out else wrapped width (out.length + 1) out)

end LiveUnits.Tool
