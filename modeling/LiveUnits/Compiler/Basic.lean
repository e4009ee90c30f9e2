import LiveUnits.Discovery
import LiveUnits.Duration

/-!
# Compilers

A compiler turns one source file into its artifact.  It acts on the files and may keep a state of its
own from call to call.  What it says about a call is a verdict; whether the artifact is really there
is for the build to see.
-/

namespace LiveUnits

/-- One call of a compiler. -/
structure Invocation where
  source : SourceUnit
  /-- The output root of the build. -/
  outputRoot : Path
  artifact : Path

/-- Why a program cannot be started. -/
inductive SpawnFault where
  /-- The file of the program cannot be run. -/
  | file (fault : Fault)
  /-- The program or an argument holds a NUL byte. -/
  | interiorNul
  deriving DecidableEq

/-- The text of a spawn fault. -/
def SpawnFault.message : SpawnFault → String
  | file fault => fault.message
  | interiorNul => "nul byte found in provided data"

/-- How a process ended. -/
inductive ExitStatus where
  | code (n : Nat)
  | signal (n : Nat)
  deriving DecidableEq

namespace ExitStatus

/-- The names of the signals, from the first one on. -/
def signalNames : List String := [
  "HUP", "INT", "QUIT", "ILL", "TRAP", "ABRT", "BUS", "FPE", "KILL", "USR1", "SEGV", "USR2", "PIPE",
  "ALRM", "TERM", "STKFLT", "CHLD", "CONT", "STOP", "TSTP", "TTIN", "TTOU", "URG", "XCPU", "XFSZ",
  "VTALRM", "PROF", "WINCH", "IO", "PWR", "SYS"]

def signalName? (n : Nat) : Option String := if n = 0 then none else signalNames[n - 1]?

def text : ExitStatus → String
  | code n => s!"exit status: {n}"
  | signal n =>
    match signalName? n with
    | some name => s!"signal: {n} (SIG{name})"
    | none => s!"signal: {n}"

/-- Whether the process succeeded. -/
def isSuccess (s : ExitStatus) : Bool := s == code 0

end ExitStatus

/-- Why a source file gives no artifact. -/
inductive CompileError where
  /-- The path of the file spells no identity. -/
  | invalidIdentity (error : IdentityError)
  /-- The compiler could not be started. -/
  | spawn (program : Path) (reason : SpawnFault)
  /-- The end of the compiler could not be awaited. -/
  | wait (reason : String)
  /-- The compiler reported failure. -/
  | rejected (status : ExitStatus) (output : String)
  /-- The compiler took too long. -/
  | timedOut (limit : Duration)
  /-- The compiler reported success, but there is no artifact. -/
  | missingArtifact (path : Path)
  /-- The compiler says why. -/
  | diagnostic (text : String)
  deriving DecidableEq

/-- The text of a compile error. -/
def CompileError.message : CompileError → String
  | invalidIdentity error => s!"Cannot derive identity: {error.message}"
  | spawn program reason => s!"Failed to start compiler '{program.display}': {reason.message}"
  | wait reason => s!"Failed to wait for compiler: {reason}"
  | rejected status output => s!"Compiler failed ({status.text}): {output}"
  | timedOut limit => s!"Compiler timed out after {limit.text}"
  | missingArtifact path => s!"No artifact produced at '{path.display}'"
  | diagnostic text => text

/-- What a compiler says about a call. -/
inductive Verdict where
  /-- The source file was compiled. -/
  | compiled
  | failed (error : CompileError)
  /-- The compiler broke down and takes the build with it. -/
  | crashed
  deriving DecidableEq

/-- Files together with the state of whoever works on them. -/
structure Site (σ : Type) where
  files : FileSystem
  state : σ

/-- A compiler with a state of type `σ`. -/
abbrev Compiler (σ : Type) := Invocation → StateM (Site σ) Verdict

end LiveUnits
