import LiveUnits.Tool.Basic

/-!
# Tools for files

Copying, moving and removing files, making directories and links, and telling what there is.
-/

namespace LiveUnits.Tool

open Shell

/-- How deep a tree can be. -/
def treeDepth : Nat := 2048

/-- The node at a path; links at its end are followed on request. -/
def nodeAt? (fs : FileSystem) (follow : Bool) (r : Raw) : Except Fault Node :=
  match fs.locate follow (pathOf r) with
  | .ok (.found _ x) => .ok x
  | .ok (.vacant _ _) => .error .notFound
  | .error f => .error f

/-- The place inside a directory that a file comes to have. -/
def placeIn (fs : FileSystem) (source target : Raw) : Raw :=
  if fs.isDirectory (pathOf target) then under target (lastName source) else target

/-- Whether two paths lead to the same file. -/
def areSame (fs : FileSystem) (a b : Raw) : Bool :=
  match fs.canonical (pathOf a), fs.canonical (pathOf b) with
  | .ok x, .ok y => x == y
  | _, _ => false

/-- Gives the permissions of one file to another one. -/
def copyMode (source target : Raw) : Work Unit := modify fun p =>
  match p.modes.lookup (placeOf p.files source) with
  | some mode =>
    let place := placeOf p.files target
    { p with modes := (place, mode) :: p.modes.filter (·.1 != place) }
  | none => p

/-- Checks the target of a call with several files: it has to be a directory. -/
def requireDirectory (c : Call) (target : Raw) : Work Unit := do
  match (← files).node (pathOf target) with
  | .ok x => if !x.isDirectory then die [c.name, ": target ", quote target, ": ", phrase .notDirectory]
  | .error f => die [c.name, ": target ", quote target, ": ", phrase f]

/-- Divides the arguments of a call that copies or moves into the files and the target, and tells
whether the target has to be a directory. -/
def divideTargets (c : Call) (a : Arguments) : Work (List Raw × Raw × Bool) := do
  match a.last? 't' with
  | some target =>
    if a.operands.isEmpty then lacking c "file operand"
    pure (a.operands, target, true)
  | none =>
    match a.operands with
    | [] => lacking c "file operand"
    | [x] => die [c.name, ": missing destination file operand after ", quote x, advice c]
    | [x, target] => pure ([x], target, false)
    | many => pure (many.dropLast, many.getLast?.getD [], true)

/-! ## Copying -/

mutual

/-- Copies a file or a directory to a place. -/
def copyTo (c : Call) (a : Arguments) : Nat → Raw → Raw → Work Unit
  | 0, _, _ => pure ()
  | depth + 1, source, place => do
    let fs ← files
    let deep := a.hasAny "rRa"
    let follow := !a.hasAny "aPd" && !deep
    let there := nodeAt? fs true place
    let show_ : Work Unit :=
      if a.has 'v' then print (line [quote source, " -> ", quote place]) else pure ()
    if isVoid source || source == "/dev/zero".toList then copyContents c source place show_
    else
      match nodeAt? fs (follow || source.getLast? == some '/') source with
      | .error f => blame [c.name, ": cannot stat ", quote source, ": ", phrase f]
      | .ok (.directory entries) =>
        if !deep then blame [c.name, ": -r not specified; omitting directory ", quote source]
        else
          let isInside := match fs.canonical (pathOf source), fs.locate true (pathOf place) with
            | .ok l, .ok (.found m _) => l.isPrefixOf m
            | .ok l, .ok (.vacant m _) => l.isPrefixOf m
            | _, _ => false
          if isInside then
            blame [c.name, ": cannot copy a directory, ", quote source, ", into itself, ", quote place]
          else
            match there with
            | .ok (.directory _) => copyEntries c a depth source place (entries.map fun e => raw e.1)
            | .ok _ =>
              blame [c.name, ": cannot overwrite non-directory ", quote place, " with directory ",
                quote source]
            | .error _ =>
              match ← changeFiles (·.makeDirectory (pathOf place)) with
              | some f => blame [c.name, ": cannot create directory ", quote place, ": ", phrase f]
              | none =>
                show_
                copyEntries c a depth source place (entries.map fun e => raw e.1)
      | .ok x =>
        if areSame fs source place then
          blame [c.name, ": ", quote source, " and ", quote place, " are the same file"]
        else
          match there with
          | .ok (.directory _) =>
            blame [c.name, ": cannot overwrite directory ", quote place, " with non-directory"]
          | .ok _ => if a.has 'n' then pure () else copyNode c a x source place show_
          | .error _ => copyNode c a x source place show_

/-- Copies what is in a directory. -/
def copyEntries (c : Call) (a : Arguments) : Nat → Raw → Raw → List Raw → Work Unit
  | 0, _, _, _ => pure ()
  | _, _, _, [] => pure ()
  | depth + 1, source, place, name :: rest => do
    copyTo c a depth (under source name) (under place name)
    copyEntries c a depth source place rest

/-- Copies a node that is no directory. -/
def copyNode (c : Call) (_ : Arguments) (x : Node) (source place : Raw) (show_ : Work Unit) :
    Work Unit := do
  match x with
  | .link target =>
    let _ ← changeFiles (·.removeFile (pathOf place))
    match ← changeFiles (·.makeLink (pathOf place) target) with
    | some f => blame [c.name, ": cannot create symbolic link ", quote place, ": ", phrase f]
    | none => show_
  | _ => copyContents c source place show_

/-- Copies the contents of a file. -/
def copyContents (c : Call) (source place : Raw) (show_ : Work Unit) : Work Unit := do
  match contents (← files) source with
  | .error f => blame [c.name, ": cannot open ", quote source, " for reading: ", phrase f]
  | .ok text =>
    match ← changeFiles (writeFile place text) with
    | none =>
      copyMode source place
      show_
    | some f =>
      let f := if f == .isDirectory && place.getLast? == some '/' then .notDirectory else f
      blame [c.name, ": cannot create regular file ", quote place, ": ", phrase f]

end

/-- The options of `cp`. -/
def copyOptions : Options :=
  { plain := "rRafnivpPdLTulsHx", valued := "tS"
    long := [("recursive", 'r', none), ("force", 'f', none), ("no-clobber", 'n', none),
      ("verbose", 'v', none), ("archive", 'a', none), ("target-directory", 't', some true),
      ("no-target-directory", 'T', none), ("no-dereference", 'P', none), ("dereference", 'L', none),
      ("update", 'u', some false), ("preserve", 'p', some false)] }

/-- The tool `cp`. -/
def cp : Program := fun c => do
  let a ← copyOptions.read c
  let (sources, target, many) ← divideTargets c a
  if many then requireDirectory c target
  for source in sources do
    let fs ← files
    copyTo c a treeDepth source (if a.has 'T' then target else placeIn fs source target)

/-! ## Moving -/

/-- Moves a file to a place. -/
def moveTo (c : Call) (a : Arguments) (source place : Raw) : Work Unit := do
  let fs ← files
  match fs.locate false (pathOf source) with
  | .error f => blame [c.name, ": cannot stat ", quote source, ": ", phrase f]
  | .ok (.vacant _ _) => blame [c.name, ": cannot stat ", quote source, ": ", phrase .notFound]
  | .ok (.found l x) =>
    let carry (m : Location) : Work Unit := do
      let p ← get
      let old := placeOf fs source
      let mode := p.modes.lookup old
      let moved := (fs.put m (some x)).put l none
      let new := placeOf moved place
      let others := p.modes.filter fun m => m.1 != old && m.1 != new
      set { p with
        files := moved
        modes := match mode with
          | some n => (new, n) :: others
          | none => others }
      if a.has 'v' then print (line ["renamed ", quote source, " -> ", quote place])
    match fs.locate false (pathOf place) with
    | .error f =>
      blame [c.name, ": cannot move ", quote source, " to ", quote place, ": ", phrase f]
    | .ok (.found m y) =>
      if l == m then blame [c.name, ": ", quote source, " and ", quote place, " are the same file"]
      else if a.has 'n' then pure ()
      else if l.isPrefixOf m then
        blame [c.name, ": cannot move ", quote source, " to a subdirectory of itself, ", quote place]
      else if y.isDirectory && !x.isDirectory then
        blame [c.name, ": cannot overwrite directory ", quote place, " with non-directory"]
      else if x.isDirectory && !y.isDirectory then
        blame [c.name, ": cannot overwrite non-directory ", quote place, " with directory ", quote source]
      else if y.isDirectory && !y.entries.isEmpty then
        blame [c.name, ": cannot move ", quote source, " to ", quote place, ": Directory not empty"]
      else carry m
    | .ok (.vacant d n) =>
      if l.isPrefixOf (d ++ [n]) then
        blame [c.name, ": cannot move ", quote source, " to a subdirectory of itself, ", quote place]
      else if place.getLast? == some '/' && !x.isDirectory then
        blame [c.name, ": cannot move ", quote source, " to ", quote place, ": Not a directory"]
      else carry (d ++ [n])

/-- The tool `mv`. -/
def mv : Program := fun c => do
  let a ← ({ plain := "finvTu", valued := "tS"
             long := [("force", 'f', none), ("no-clobber", 'n', none), ("verbose", 'v', none),
               ("target-directory", 't', some true), ("no-target-directory", 'T', none)] } : Options).read c
  let (sources, target, many) ← divideTargets c a
  if many then requireDirectory c target
  for source in sources do
    let fs ← files
    moveTo c a source (if a.has 'T' then target else placeIn fs source target)

/-! ## Removing -/

/-- Forgets the permissions of files that are gone. -/
def forgetModes (place : Raw) : Work Unit := modify fun p =>
  { p with modes := p.modes.filter fun m => m.1 != place && !(place ++ ['/']).isPrefixOf m.1 }

/-- The tool `rm`. -/
def rm : Program := fun c => do
  let a ← ({ plain := "rRfdvi"
             long := [("recursive", 'r', none), ("force", 'f', none), ("dir", 'd', none),
               ("verbose", 'v', none)] } : Options).read c
  let deep := a.hasAny "rR"
  if a.operands.isEmpty && !a.has 'f' then lacking c "operand"
  for r in a.operands do
    let fs ← files
    let name := lastName r
    let there := nodeAt? fs false r
    let isDirectory := (there.toOption.map Node.isDirectory).getD false
    if deep && (name == ['.'] || name == ['.', '.']) then
      blame [c.name, ": refusing to remove '.' or '..' directory: skipping ", quote r]
    else
      let place := placeOf fs r
      let fault ← match there with
        | .error f => pure (some f)
        | .ok _ =>
          if isDirectory && deep then changeFiles (·.remove (pathOf r))
          else if isDirectory && a.has 'd' then changeFiles (·.removeDirectory (pathOf r))
          else changeFiles (·.removeFile (pathOf r))
      match fault with
      | some f =>
        if !(f.isAbsence && a.has 'f') then
          blame [c.name, ": cannot remove ", quote r, ": ", phrase f]
      | none =>
        forgetModes place
        if a.has 'v' then
          print (line [if isDirectory then "removed directory " else "removed ", quote r])

/-- The tool `rmdir`. -/
def rmdir : Program := fun c => do
  let a ← ({ plain := "pv"
             long := [("parents", 'p', none), ("verbose", 'v', none),
               ("ignore-fail-on-non-empty", 'i', none)] } : Options).read c
  if a.operands.isEmpty then lacking c "operand"
  for r in a.operands do
    let parts := (splitOn '/' r).filter (!·.isEmpty)
    let chain := if a.has 'p' then
        (List.range parts.length).map fun i => ['/'].intercalate (parts.take (parts.length - i))
      else [r]
    let mut goesOn := true
    for r in chain do
      if goesOn then
        if a.has 'v' then print (line [c.name, ": removing directory, ", quote r])
        match ← changeFiles (·.removeDirectory (pathOf r)) with
        | none => pure ()
        | some f =>
          goesOn := false
          if !(f == .notEmpty && a.has 'i') then
            blame [c.name, ": failed to remove ", if r == chain.head?.getD [] then [] else "directory ",
              quote r, ": ", phrase f]

/-! ## Making -/

/-- The paths above a path and the path itself, from the top. -/
def pathsTo (r : Raw) : List Raw :=
  let front : Raw := if r.head? == some '/' then ['/'] else []
  let parts := (splitOn '/' r).filter (!·.isEmpty)
  (List.range parts.length).map fun i => front ++ ['/'].intercalate (parts.take (i + 1))

/-- The permissions that digits in base eight spell. -/
def octalMode? (r : Raw) : Option Nat :=
  if !r.isEmpty && r.all isOctal && numberIn 8 r < 0o10000 then some (numberIn 8 r) else none

/-- The bits that letters of permissions stand for, in the place of others. -/
def permissionBits (isDirectory : Bool) (old : Nat) (letters : Raw) : Nat :=
  letters.foldl (fun n l => n ||| match l with
    | 'r' => 0o444
    | 'w' => 0o222
    | 'x' => 0o111
    | 'X' => if isDirectory || old &&& 0o111 != 0 then 0o111 else 0
    | 's' => 0o6000
    | 't' => 0o1000
    | _ => 0) 0

/-- The bits of the users that letters name. -/
def userBits (letters : Raw) : Nat :=
  letters.foldl (fun n l => n ||| match l with
    | 'u' => 0o4700
    | 'g' => 0o2070
    | 'o' => 0o1007
    | _ => 0o7777) 0

/-- Changes permissions by what follows the users; the first argument bounds the number of changes. -/
def applyChanges (isDirectory : Bool) (mask users : Nat) : Nat → Nat → Raw → Option Nat
  | _, mode, [] => some mode
  | 0, _, _ => none
  | fuel + 1, mode, op :: rest =>
    if op == '+' || op == '-' || op == '=' then
      let letters := rest.takeWhile fun l => !"+-=".toList.contains l
      if letters.all "rwxXst".toList.contains then
        let all := permissionBits isDirectory mode letters
        let bits := if users = 0 then all &&& (0o7777 - mask) else all &&& users
        let mode := match op with
          | '+' => mode ||| bits
          | '-' => mode &&& (0o7777 - bits)
          | _ => (mode &&& (0o7777 - (if users = 0 then 0o777 else users))) ||| bits
        applyChanges isDirectory mask users fuel mode (rest.drop letters.length)
      else none
    else none

/-- The permissions that a mode makes of others. -/
def newMode? (isDirectory : Bool) (mask old : Nat) (mode : Raw) : Option Nat :=
  match octalMode? mode with
  | some n => some n
  | none =>
    (splitOn ',' mode).foldlM (fun old clause =>
      let users := clause.takeWhile "ugoa".toList.contains
      let changes := clause.drop users.length
      if changes.isEmpty then none
      else applyChanges isDirectory mask (userBits users) (changes.length + 1) old changes) old

/-- The permissions of a file. -/
def modeOf (p : Progress) (r : Raw) : Nat :=
  (p.modes.lookup (match p.files.canonical (pathOf r) with
    | .ok l => '/' :: ['/'].intercalate (l.map raw)
    | .error _ => r)).getD (if p.files.isDirectory (pathOf r) then 0o755 else 0o644)

/-- Gives a file permissions. -/
def setMode (r : Raw) (mode : Nat) : Work Unit := modify fun p =>
  match p.files.canonical (pathOf r) with
  | .ok l =>
    let place := '/' :: ['/'].intercalate (l.map raw)
    { p with modes := (place, mode) :: p.modes.filter (·.1 != place) }
  | .error _ => p

/-- The tool `mkdir`. -/
def mkdir : Program := fun c => do
  let a ← ({ plain := "pv", valued := "m"
             long := [("parents", 'p', none), ("verbose", 'v', none), ("mode", 'm', some true)] } :
    Options).read c
  if a.operands.isEmpty then lacking c "operand"
  let mode ← match a.last? 'm' with
    | none => pure none
    | some m =>
      match newMode? true 0o22 0o777 m with
      | some n => pure (some n)
      | none => die [c.name, ": invalid mode ", quote m]
  for r in a.operands do
    let before ← files
    let fault ← changeFiles fun fs =>
      if a.has 'p' then fs.makeDirectories (pathOf r) else fs.makeDirectory (pathOf r)
    if a.has 'v' then
      for made in (if a.has 'p' then pathsTo r else [r]) do
        if !isThere before made && isThere (← files) made then
          print (line [c.name, ": created directory ", quote made])
    match fault with
    | some f => blame [c.name, ": cannot create directory ", quote r, ": ", phrase f]
    | none =>
      match mode with
      | some n => setMode r n
      | none => pure ()

/-- The tool `chmod`. -/
def chmod : Program := fun c => do
  let isMode (r : Raw) : Bool := r.length > 1 && (r.drop 1).all "rwxXst,ugoa+=-".toList.contains
  let isOption (r : Raw) : Bool := r.head? == some '-' && r.length > 1 && !isMode r
  let options := c.arguments.filter isOption
  let operands := c.arguments.filter fun r => !isOption r
  match operands with
  | [] => lacking c "operand"
  | [mode] => die [c.name, ": missing operand after ", quote mode, advice c]
  | mode :: names =>
    if (newMode? false 0o22 0o644 mode).isNone then die [c.name, ": invalid mode: ", quote mode, advice c]
    for r in names do
      match (← files).node (pathOf r) with
      | .error f => blame [c.name, ": cannot access ", quote r, ": ", phrase f]
      | .ok x =>
        let below := if options.any (·.contains 'R') then
            x.descendants.map fun d => under r (['/'].intercalate (d.1.map raw)) else []
        for r in r :: below do
          let p ← get
          setMode r ((newMode? (p.files.isDirectory (pathOf r)) 0o22 (modeOf p r) mode).getD 0)

/-- The tool `ln`. -/
def ln : Program := fun c => do
  let a ← ({ plain := "sfnvTrib", valued := "tS"
             long := [("symbolic", 's', none), ("force", 'f', none), ("no-dereference", 'n', none),
               ("verbose", 'v', none), ("target-directory", 't', some true)] } : Options).read c
  let kind : Raw := if a.has 's' then "symbolic" else "hard"
  let make (target place : Raw) : Work Unit := do
    let fs ← files
    if a.has 'f' && isThere fs place && !areSame fs target place then
      let _ ← changeFiles (·.removeFile (pathOf place))
    let fault ← if a.has 's' then changeFiles (·.makeLink (pathOf place) (pathOf target))
      else
        match nodeAt? fs true target with
        | .error f => die [c.name, ": failed to access ", quote target, ": ", phrase f]
        | .ok x =>
          if x.isDirectory then die [c.name, ": ", quoteIfNeeded target, ": hard link not allowed for directory"]
          else if isThere (← files) place then pure (some .alreadyExists)
          else changeFiles (·.write (pathOf place) (((contents fs target).toOption.map bytes).getD []))
    match fault with
    | some f => blame [c.name, ": failed to create ", kind, " link ", quote place, ": ", phrase f]
    | none =>
      if a.has 'v' then print (line [quote place, if a.has 's' then " -> " else " => ", quote target])
  match a.operands, a.last? 't' with
  | [], _ => lacking c "file operand"
  | [target], none => make target (lastName target)
  | [target, place], none =>
    let fs ← files
    let isLink := ((nodeAt? fs false place).toOption.map Node.isLink).getD false
    make target (if a.has 'T' || (a.has 'n' && isLink) then place else placeIn fs target place)
  | many, target =>
    let directory := target.getD (many.getLast?.getD [])
    requireDirectory c directory
    for r in (if target.isSome then many else many.dropLast) do
      make r (under directory (lastName r))

/-- The tool `touch`. -/
def touch : Program := fun c => do
  let a ← ({ plain := "camfh", valued := "tdr"
             long := [("no-create", 'c', none), ("date", 'd', some true), ("reference", 'r', some true)] } :
    Options).read c
  if a.operands.isEmpty then lacking c "file operand"
  for r in a.operands do
    let fs ← files
    match fs.node (pathOf r) with
    | .ok _ => pure ()
    | .error f =>
      if a.has 'c' then pure ()
      else if isVoid r then pure ()
      else if f != .notFound then blame [c.name, ": cannot touch ", quote r, ": ", phrase f]
      else
        match ← changeFiles (writeFile r []) with
        | none => pure ()
        | some f => blame [c.name, ": cannot touch ", quote r, ": ",
            phrase (if f == .isDirectory then .notFound else f)]

/-- The tool `truncate`. -/
def truncate : Program := fun c => do
  let a ← ({ plain := "c", valued := "sr"
             long := [("size", 's', some true), ("no-create", 'c', none)] } : Options).read c
  match a.last? 's' with
  | none => die [c.name, ": you must specify either '--size' or '--reference'", advice c]
  | some size =>
    if a.operands.isEmpty then lacking c "file operand"
    let (mark, body) := match size with
      | m :: rest => if "+-<>".toList.contains m then (some m, rest) else (none, size)
      | [] => (none, [])
    match sizeOf body with
    | none => die [c.name, ": Invalid number: ", quote size]
    | some n =>
      for r in a.operands do
        let before := ((contents (← files) r).toOption).getD []
        if a.has 'c' && !isThere (← files) r then pure ()
        else
          let length := match mark with
            | some '+' => before.length + n
            | some '-' => before.length - n
            | some '<' => min before.length n
            | some '>' => max before.length n
            | _ => n
          let after := before.take length ++ List.replicate (length - before.length) '\x00'
          match ← changeFiles (writeFile r after) with
          | none => pure ()
          | some f => blame [c.name, ": cannot open ", quote r, " for writing: ", phrase f]

/-! ## Telling what there is -/

/-- A mark for the kind of a file. -/
def kindMark (p : Progress) (slashOnly : Bool) (r : Raw) : Raw :=
  match nodeAt? p.files false r with
  | .ok (.directory _) => ['/']
  | .ok (.link _) => if slashOnly then [] else ['@']
  | .ok (.file _) => if !slashOnly && modeOf p r &&& 0o111 != 0 then ['*'] else []
  | .error _ => []

/-- The tool `ls`. -/
def ls : Program := fun c => do
  let a ← ({ plain := "1aAdRrSpFCmUtfhnlLgoQkqcuixXBNGbHvZ", valued := "Iw", code := 2
             long := [("all", 'a', none), ("almost-all", 'A', none), ("directory", 'd', none),
               ("recursive", 'R', none), ("reverse", 'r', none), ("classify", 'F', some false),
               ("color", 'G', some false), ("group-directories-first", 'z', none),
               ("ignore", 'I', some true), ("file-type", 'p', none)] } : Options).read c
  let p ← get
  let size (r : Raw) : Nat := ((contents p.files r).toOption.map List.length).getD 4096
  let arrange (directory : Raw) (names : List Raw) : List Raw :=
    let sorted := names.mergeSort notAfter
    let sorted := if a.has 'S' then sorted.mergeSort fun x y =>
        size (directory ++ y) ≤ size (directory ++ x) else sorted
    let sorted := if a.has 'z' then
        let (ds, others) := sorted.partition fun n => p.files.isDirectory (pathOf (directory ++ n))
        ds ++ others
      else sorted
    if a.has 'r' then sorted.reverse else sorted
  let show_ (directory : Raw) (names : List Raw) : Raw :=
    let marked := names.map fun n =>
      let n' := if a.has 'Q' then '"' :: n ++ ['"'] else n
      if a.has 'F' || a.has 'p' then n' ++ kindMark p (!a.has 'F') (directory ++ n) else n'
    if a.has 'm' then (if marked.isEmpty then [] else line [", ".toList.intercalate marked]) else unlines marked
  let namesOf (directory : Raw) : List Raw :=
    let found := namesIn p.files directory
    let found := if a.hasAny "af" then [['.'], ['.', '.']] ++ found
      else found.filter fun n => a.has 'A' || n.head? != some '.'
    arrange (under directory []) found
  let operands := if a.operands.isEmpty then [['.']] else a.operands
  let (found, missing) := operands.partition (isThere p.files)
  for r in missing do
    let reason := match p.files.node (pathOf r) with
      | .error f => phrase f
      | .ok _ => phrase .notFound
    warn [c.name, ": cannot access ", quote r, ": ", reason]
    noteStatus 2
  let (directories, plain) := (arrange [] found).partition fun r =>
    p.files.isDirectory (pathOf r) && !a.has 'd'
  let below (r : Raw) : List Raw :=
    match p.files.node (pathOf r) with
    | .ok x =>
      ((x.descendants.filter fun d => d.2.isDirectory).map fun d =>
        under r (['/'].intercalate (d.1.map raw))).filter fun path =>
          a.hasAny "aA" || !((splitOn '/' (path.drop (r.length + 1))).any fun s => s.head? == some '.')
    | .error _ => []
  let directories := if a.has 'R' then
      directories.flatMap fun r => r :: (below r).mergeSort notAfter else directories
  let titled := operands.length > 1 || a.has 'R'
  let blocks := (if plain.isEmpty then [] else [show_ [] plain]) ++
    directories.map fun r =>
      (if titled then r ++ [':', '\n'] else []) ++ show_ (under r []) (namesOf r)
  print (['\n'].intercalate blocks)

def kindName (x : Node) : Raw :=
  match x with
  | .directory _ => "directory"
  | .link _ => "symbolic link"
  | .file contents => if contents.isEmpty then "regular empty file" else "regular file"

/-- Permissions as letters. -/
def modeLetters (x : Node) (mode : Nat) : Raw :=
  let triple (shift : Nat) : Raw :=
    [if mode / Nat.pow 2 (shift + 2) % 2 = 1 then 'r' else '-', if mode / Nat.pow 2 (shift + 1) % 2 = 1 then 'w' else '-',
      if mode / Nat.pow 2 shift % 2 = 1 then 'x' else '-']
  (if x.isDirectory then 'd' else if x.isLink then 'l' else '-') :: triple 6 ++ triple 3 ++ triple 0

/-- What a format of `stat` shows of a file. -/
def describe (p : Progress) (r : Raw) (x : Node) : Raw → Raw
  | '%' :: d :: rest =>
    (match d with
      | 'n' => r
      | 'N' => quote r
      | 's' =>
        digits (match x with
          | .file contents => contents.length
          | .link target => target.bytes.length
          | .directory _ => 4096)
      | 'F' => kindName x
      | 'a' => Nat.toDigits 8 (if x.isLink then 0o777 else modeOf p r)
      | 'A' => modeLetters x (if x.isLink then 0o777 else modeOf p r)
      | 'U' | 'G' => "root"
      | 'u' | 'g' => "0"
      | '%' => "%"
      | d => ['?', d]) ++ describe p r x rest
  | c :: rest => c :: describe p r x rest
  | [] => []

/-- The tool `stat`. -/
def stat : Program := fun c => do
  let a ← ({ plain := "Lft", valued := "c"
             long := [("format", 'c', some true), ("printf", 'p', some true), ("dereference", 'L', none)] } :
    Options).read c
  if a.operands.isEmpty then lacking c "operand"
  for r in a.operands do
    let p ← get
    match nodeAt? p.files (a.has 'L') r with
    | .error f => blame [c.name, ": cannot statx ", quote r, ": ", phrase f]
    | .ok x => print (line [describe p r x ((a.last? 'c').getD "%n".toList)])

/-- The path from the top of the tree to a file. -/
def fullPath (l : Location) : Raw := '/' :: ['/'].intercalate (l.map raw)

/-- The full path of a file whose last name may be missing. -/
def resolve? (fs : FileSystem) (mustExist : Bool) (r : Raw) : Except Fault Raw :=
  match fs.locate true (pathOf r) with
  | .ok (.found l _) => .ok (fullPath l)
  | .ok (.vacant d n) => if mustExist then .error .notFound else .ok (fullPath (d ++ [n]))
  | .error f => .error f

/-- The tool `readlink`. -/
def readlink : Program := fun c => do
  let a ← ({ plain := "femnqsvz"
             long := [("canonicalize", 'f', none), ("canonicalize-existing", 'e', none),
               ("no-newline", 'n', none)] } : Options).read c
  if a.operands.isEmpty then lacking c "operand"
  for r in a.operands do
    let fs ← files
    let found := if a.hasAny "fem" then resolve? fs (a.has 'e') r
      else
        match nodeAt? fs false r with
        | .ok (.link target) => .ok (raw target.bytes)
        | .ok _ => .error .invalidArgument
        | .error f => .error f
    match found with
    | .ok text => print (if a.has 'n' then text else line [text])
    | .error f => if a.has 'v' then blame [c.name, ": ", quoteIfNeeded r, ": ", phrase f] else noteStatus 1

/-- The tool `realpath`. -/
def realpath : Program := fun c => do
  let a ← ({ plain := "emqsz", valued := ""
             long := [("canonicalize-existing", 'e', none), ("relative-to", 't', some true)] } :
    Options).read c
  if a.operands.isEmpty then lacking c "operand"
  for r in a.operands do
    match resolve? (← files) (a.has 'e') r with
    | .ok text =>
      match a.last? 't' with
      | none => print (line [text])
      | some base =>
        let from_ := splitOn '/' (((resolve? (← files) false base).toOption).getD [])
        let target := splitOn '/' text
        let common := ((from_.zip target).takeWhile fun (x, y) => x == y).length
        let up := List.replicate (from_.length - common) (['.', '.'] : Raw)
        let steps := up ++ target.drop common
        print (line [if steps.isEmpty then ['.'] else ['/'].intercalate steps])
    | .error f => blame [c.name, ": ", quoteIfNeeded r, ": ", phrase f]

/-- The tool `basename`. -/
def basename : Program := fun c => do
  let a ← ({ plain := "az", valued := "s", strict := true
             long := [("multiple", 'a', none), ("suffix", 's', some true), ("zero", 'z', none)] } :
    Options).read c
  let cut (suffix name : Raw) : Raw :=
    if suffix.length < name.length && suffix.isSuffixOf name then name.take (name.length - suffix.length)
    else name
  if a.operands.isEmpty then lacking c "operand"
  else if a.hasAny "as" then
    for r in a.operands do
      print (line [cut ((a.last? 's').getD []) (lastName r)])
  else
    match a.operands with
    | [r] => print (line [lastName r])
    | [r, suffix] => print (line [cut suffix (lastName r)])
    | _ :: _ :: extra :: _ => excess c extra
    | [] => pure ()

/-- The directory that a path names. -/
def directoryOf (r : Raw) : Raw :=
  let trimmed := (r.reverse.dropWhile (· == '/')).reverse
  if trimmed.isEmpty then (if r.isEmpty then ['.'] else ['/'])
  else
    let above := (trimmed.reverse.dropWhile (· != '/')).reverse
    if above.isEmpty then ['.']
    else
      let kept := (above.reverse.dropWhile (· == '/')).reverse
      if kept.isEmpty then ['/'] else kept

/-- The tool `dirname`. -/
def dirname : Program := fun c => do
  let a ← ({ plain := "z" } : Options).read c
  if a.operands.isEmpty then lacking c "operand"
  for r in a.operands do
    print (line [directoryOf r])

end LiveUnits.Tool
