import LiveUnits.Shell.Raw

/-!
# Escapes

The escapes of `echo` and of formats: a backslash and a letter, or a backslash and digits in base
eight.
-/

namespace LiveUnits.Shell

/-- The value of digits in base eight. -/
def octal (r : Raw) : Nat := r.foldl (fun n c => n * 8 + (c.toNat - '0'.toNat)) 0

/-- The character that the letter of an escape stands for. -/
def escapeLetter? : Char → Option Char
  | 'n' => some '\n'
  | 't' => some '\t'
  | 'r' => some '\r'
  | 'a' => some '\x07'
  | 'b' => some '\x08'
  | 'f' => some '\x0c'
  | 'v' => some '\x0b'
  | '\\' => some '\\'
  | _ => none

/-- The character that an escape stands for, and what follows the escape. -/
def escape? (rest : Raw) : Option (Char × Raw) :=
  match rest with
  | [] => none
  | c :: after =>
    match escapeLetter? c with
    | some x => some (x, after)
    | none =>
      let ds := (rest.take 3).takeWhile isOctal
      if ds.isEmpty then none else some (Char.ofNat (octal ds % 256), rest.drop ds.length)

/-- The characters of a text with escapes, and whether the text asked to be cut short.  A zero before
the digits of an escape does not count as one of them.  The first argument is a bound on the
characters. -/
def unescape : Nat → Raw → Raw × Bool
  | 0, r => (r, false)
  | _, [] => ([], false)
  | _, '\\' :: 'c' :: _ => ([], true)
  | fuel + 1, '\\' :: rest =>
    let start := if rest.head? == some '0' && ((rest[1]?).map isOctal).getD false
      then rest.drop 1 else rest
    match escape? start with
    | some (c, after) =>
      let (out, cut) := unescape fuel after
      (c :: out, cut)
    | none =>
      let (out, cut) := unescape fuel rest
      ('\\' :: out, cut)
  | fuel + 1, c :: rest =>
    let (out, cut) := unescape fuel rest
    (c :: out, cut)

/-- What `echo` writes. -/
def echoText (args : List Raw) : Raw :=
  let (bare, args) := match args with
    | ['-', 'n'] :: rest => (true, rest)
    | rest => (false, rest)
  let joined := [' '].intercalate args
  let (out, cut) := unescape (joined.length + 1) joined
  if bare || cut then out else out ++ ['\n']

end LiveUnits.Shell
