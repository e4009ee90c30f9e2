import LiveUnits.Shell.Expansion
import LiveUnits.Shell.Test

/-!
# Redirections

Streams are given other files for as long as a command runs, or for good.  What is to be opened is known
before anything is opened; the first file that cannot be opened ends the matter.
-/

namespace LiveUnits.Shell

/-- A redirection whose target is known. -/
abbrev Target := Redirect Raw

def expandTargets (output : Command → Act Raw) : List (Redirect Word) → Act (List Target)
  | [] => pure []
  | r :: rest => do
    let e : Expanding := if r.direction == .text then .document else .text
    let target ← expandText output e r.target
    if r.direction == .duplicate && target != ['-'] && !(target.length == 1 && isNumber target) then
      modify fun st => { st with line := st.reached }
      fail ["Syntax error: Bad fd number"]
    let others ← expandTargets output rest
    pure (⟨r.stream, r.direction, target⟩ :: others)

/-- What is said about a file that cannot be opened. -/
def openFault (creates : Bool) (name : Raw) (f : Fault) : Raw :=
  let reason : Raw := match f with
    | .notFound | .notDirectory => if creates then "Directory nonexistent" else "No such file"
    | f => rawText f.phrase
  (if creates then "cannot create " else "cannot open ") ++ name ++ ": " ++ reason

/-- The place of a file from the top of the tree. -/
def placeAt (l : Location) : Raw := '/' :: ['/'].intercalate (l.map raw)

namespace State

/-- A new file, empty and with the permissions that the shell gives. -/
def create (st : State) (l : Location) : State :=
  let place := placeAt l
  let others := st.modes.filter (·.1 != place)
  { st with
    files := st.files.put l (some (.file []))
    modes := if st.mask = 18 then others else (place, 0o666 &&& (0o777 ^^^ st.mask)) :: others }

/-- The stream that a file stands for, if it stands for one. -/
def streamNamed? (name : Raw) : Option Nat :=
  if name == ("/dev/stdin" : Raw) then some 0
  else if name == ("/dev/stdout" : Raw) then some 1
  else if name == ("/dev/stderr" : Raw) then some 2
  else
    let front : Raw := "/dev/fd/"
    let n := name.drop front.length
    if front.isPrefixOf name && isNumber n then some (number n) else none

/-- Opens a file; the result is the open file, or what is said instead. -/
def openFile (st : State) (d : Direction) (name : Raw) : Except Raw (Nat × State) :=
  let creates := d != .read
  let refuse (f : Fault) : Except Raw (Nat × State) := .error (openFault creates name f)
  if name == ("/dev/null" : Raw) then .ok (st.openHandle { medium := .void })
  else if name == ("/dev/zero" : Raw) then .ok (st.openHandle { medium := .zeros })
  else
    match streamNamed? name with
    | some n =>
      match st.handle? n with
      | some h => .ok (h, st)
      | none => refuse .notFound
    | none =>
      let opened (st : State) (l : Location) : Except Raw (Nat × State) :=
        .ok (st.openHandle
          { medium := .file (placeAt l), appends := d == .append
            reads := d == .read || d == .both, writes := creates })
      match st.files.locate true (pathOf name) with
      | .error f => refuse f
      | .ok (.found l (.directory _)) => if creates then refuse .isDirectory else opened st l
      | .ok (.found l _) =>
        if d == .write && st.has 'C' then refuse .alreadyExists
        else if d == .write || d == .overwrite then
          opened { st with files := st.files.put l (some (.file [])) } l
        else opened st l
      | .ok (.vacant directory n) =>
        if !creates then refuse .notFound
        else if FileSystem.isTrailing (pathOf name) then refuse .isDirectory
        else opened (st.create (directory ++ [n])) (directory ++ [n])

/-- Carries out a redirection. -/
def redirect (st : State) (t : Target) : Except Raw State :=
  match t.direction with
  | .text =>
    let (h, st) := st.openHandle { medium := .text t.target, writes := false }
    .ok (st.point t.stream h)
  | .duplicate =>
    if t.target == ['-'] then .ok (st.close t.stream)
    else
      match st.handle? (number t.target) with
      | some h => .ok (st.point t.stream h)
      | none => .error (t.target ++ ": Bad file descriptor")
  | d => (st.openFile d t.target).map fun (h, st) => st.point t.stream h

/-- Carries out redirections, as far as it goes, and tells what is wrong. -/
def redirectAll (st : State) : List Target → State × Option Raw
  | [] => (st, none)
  | t :: rest =>
    match st.redirect t with
    | .ok st => st.redirectAll rest
    | .error message => (st, some message)

end State

/-- Gives the streams of redirections the open files back that they had before. -/
def State.restoreStreams (st : State) (ts : List Target) (before : List (Nat × Nat)) : State :=
  ts.foldl (fun st t =>
    match before.lookup t.stream with
    | some h => st.point t.stream h
    | none => st.close t.stream) st

/-- Carries out redirections; answers whether that went well, and complains otherwise. -/
def redirect (ts : List Target) : Act Bool := do
  let before := (← get).streams
  let (st, fault) := (← get).redirectAll ts
  set st
  match fault with
  | none => pure true
  | some message =>
    complain [message]
    done 2
    modify (·.restoreStreams ts before)
    pure false

/-- Does something while streams are redirected; the streams are what they were afterwards.  Answers
whether the redirections went well. -/
def redirected (ts : List Target) (body : Act Unit) : Act Bool := do
  let before := (← get).streams
  if ← redirect ts then
    thenAlways body (·.restoreStreams ts before)
    pure true
  else pure false

end LiveUnits.Shell
