import LiveUnits.Settings.Basic
import LiveUnits.Shell.Run
import LiveUnits.Text.Blank

/-!
# External compilers

An external compiler runs a program for every source file.  The arguments are templates in which
placeholders stand for the paths and the identity of the call.  The program has compiled the file if
it ends with success; otherwise what it wrote, errors before output, is the diagnostic.
-/

namespace LiveUnits

structure ExternalCompiler where
  program : Path
  arguments : List String := defaultArguments
  /-- How long it may take for one file. -/
  limit : Option Duration := none

namespace ExternalCompiler

/-- The compiler that settings describe. -/
def ofSettings (c : CompilerSettings) : ExternalCompiler := ⟨c.program, c.arguments, c.timeout⟩

/-- What the placeholders stand for. -/
def placeholders (i : Invocation) : List (String × Bytes) := [
  ("\x7bsource\x7d", i.source.path.bytes),
  ("\x7boutput\x7d", i.outputRoot.bytes),
  ("\x7bartifact\x7d", i.artifact.bytes),
  ("\x7bidentity\x7d", Utf8.encode i.source.identity.text)]

/-- Replaces a placeholder wherever it occurs. -/
def fill (template : List Char) (placeholder : String × Bytes) : List Char :=
  substitute placeholder.1.toList (Utf8.lossy placeholder.2).toList template

/-- The argument that a template makes.  A template that is nothing but a placeholder makes the bytes
that the placeholder stands for; in any other template the placeholders are replaced one after the
other. -/
def expand (template : String) (i : Invocation) : Bytes :=
  match (placeholders i).lookup template with
  | some value => value
  | none => Utf8.encode (String.ofList ((placeholders i).foldl fill template.toList))

/-- The program that is started, or why none is. -/
def started (fs : FileSystem) (program : Path) (arguments : List Bytes) : Except SpawnFault Shell.Program :=
  if (program.bytes :: arguments).any (·.contains 0) then .error .interiorNul
  else
    match Shell.programNamed? fs (Shell.raw program.bytes) with
    | some p => .ok p
    | none =>
      if program.bytes.contains slash then
        match fs.node program with
        | .ok _ => .error (.file .notPermitted)
        | .error f => .error (.file f)
      else .error (.file .notFound)

/-- What a program wrote, without the blanks around it: the errors, or else the output. -/
def diagnostic (e : Shell.Ending) : String :=
  let err := trim (Utf8.lossy e.err)
  if err.isEmpty then trim (Utf8.lossy e.out) else err

/-- The first duration that is too long to be added to the time of the clock. -/
def clockRange : Duration := .ofSeconds (Nat.pow 2 63)

/-- Whether the clock can hold the end of a limit. -/
def isInRange (limit : Option Duration) : Bool :=
  limit.all fun d => d.nanoseconds < clockRange.nanoseconds

/-- The verdict on how a program ended.  A limit that the clock cannot hold breaks the compiler
down. -/
def verdict (limit : Option Duration) (e : Shell.Ending) : Verdict :=
  if !isInRange limit then .crashed
  else
    match e.status, limit with
    | some status, _ =>
      if status.isSuccess then .compiled else .failed (.rejected status (diagnostic e))
    | none, some d => .failed (.timedOut d)
    | none, none => .failed (.wait "the program does not end")

/-- The compiler that runs the program. -/
def compiler {σ : Type} (c : ExternalCompiler) : Compiler σ := fun i => do
  let site ← get
  let arguments := c.arguments.map (expand · i)
  match started site.files c.program arguments with
  | .error reason => pure (.failed (.spawn c.program reason))
  | .ok p =>
    let ending := Shell.runProgram site.files (c.limit.map Duration.nanoseconds)
      (Shell.raw c.program.bytes) p (arguments.map Shell.raw)
    set { site with files := ending.files }
    pure (verdict c.limit ending)

end ExternalCompiler

end LiveUnits
