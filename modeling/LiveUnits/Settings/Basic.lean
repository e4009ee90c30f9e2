import LiveUnits.Path
import LiveUnits.Duration
import LiveUnits.Text.Description

/-!
# Settings of a build

Which extension source files and artifacts carry, which program compiles a source file, and which
libraries stand behind the artifacts of the build.  Every setting has a default; only the program of
a compiler has none.
-/

namespace LiveUnits

/-- The greatest number of milliseconds a time limit can hold. -/
def timeoutLimit : Nat := Nat.pow 2 64 - 1

/-- The arguments a compiler gets unless others are set. -/
def defaultArguments : List String := ["\x7bartifact\x7d", "\x7bsource\x7d"]

/-- Which program compiles a source file. -/
structure CompilerSettings where
  program : Path
  arguments : List String := defaultArguments
  /-- The milliseconds it may take for one file. -/
  timeoutMs : Option Nat := none
  deriving DecidableEq

namespace CompilerSettings

/-- The same compiler with a time limit, in whole milliseconds. -/
def withTimeout (c : CompilerSettings) (d : Duration) : CompilerSettings :=
  { c with timeoutMs := some (min d.milliseconds timeoutLimit) }

/-- The time limit. -/
def timeout (c : CompilerSettings) : Option Duration := c.timeoutMs.map Duration.ofMilliseconds

/-- The settings as a description shows them. -/
def describe (c : CompilerSettings) : String :=
  Description.record "CompilerConfig" [
    ("program", c.program.quoted),
    ("args", Description.list (c.arguments.map Quoted.text)),
    ("timeout_ms", Description.option (c.timeoutMs.map toString))] false

end CompilerSettings

/-- The settings of a build. -/
structure Settings where
  sourceExtension : String := "src"
  artifactExtension : String := "wasm"
  /-- The compiler, if one is set. -/
  compiler : Option CompilerSettings := none
  /-- The libraries, in the order in which they are asked. -/
  libraries : List Path := []
  deriving DecidableEq

namespace Settings

/-- The settings as a description shows them. -/
def describe (s : Settings) : String :=
  Description.record "BuildConfig" [
    ("source_extension", Quoted.text s.sourceExtension),
    ("artifact_extension", Quoted.text s.artifactExtension),
    ("compiler", Description.option (s.compiler.map CompilerSettings.describe)),
    ("libraries", Description.list (s.libraries.map Path.quoted))] false

end Settings

end LiveUnits
