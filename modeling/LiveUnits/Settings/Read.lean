import LiveUnits.Settings.Basic
import LiveUnits.Toml.Read
import LiveUnits.Decimal.Shortest
import LiveUnits.FileSystem.Walk

/-!
# Reading settings

Settings are written as a TOML document.  The keys are visited in the order in which the document
gives them and the first one that does not fit is reported; a missing key is noticed at the end.
Read from a file, relative libraries are meant from the directory of that file.
-/

namespace LiveUnits

/-- What a place of the document asks for. -/
inductive Expectation where
  | text
  /-- A text that spells a path. -/
  | path
  /-- An array. -/
  | sequence
  /-- A number of 64 bits without a sign. -/
  | number
  | compiler

/-- Why a well-formed document gives no settings. -/
inductive ShapeError where
  /-- A key that is not among those that may stand there. -/
  | unknownField (name : String) (known : List String)
  /-- A key that has to be there and is not. -/
  | missingField (name : String)
  /-- A value of another kind than the one asked for. -/
  | invalidType (found : Toml.Value) (expected : Expectation)
  /-- A number out of range. -/
  | invalidValue (found : Int) (expected : Expectation)
  /-- An array that is too short to be a section. -/
  | tooShort (found needed : Nat) (expected : Expectation)

/-- Why there are no settings. -/
inductive SettingsError where
  /-- The file could not be read. -/
  | unreadable (path : Path) (fault : Fault)
  /-- The text is not a TOML document. -/
  | syntaxError
  /-- The document does not hold settings. -/
  | shape (error : ShapeError)
  /-- A compiler is needed, but none is set. -/
  | missingCompiler

/-- The name of what is asked for. -/
def Expectation.phrase : Expectation → String
  | .text => "a string"
  | .path => "path string"
  | .sequence => "a sequence"
  | .number => "u64"
  | .compiler => "struct CompilerConfig"

/-- A name in the marks that set it off from a text. -/
def ShapeError.marked (s : String) : String := "\x60" ++ s ++ "\x60"

/-- The kind of a value, with the value itself where it is a simple one. -/
def ShapeError.kind : Toml.Value → String
  | .string s => "string " ++ Quoted.text s
  | .integer n => "integer " ++ marked (toString n)
  | .float x => "floating point " ++ marked (Decimal.ofFloat x)
  | .boolean b => "boolean " ++ marked (toString b)
  | .moment => "map"
  | .array _ => "sequence"
  | .table _ => "map"

/-- The text of a shape error. -/
def ShapeError.message : ShapeError → String
  | .unknownField name known =>
    "unknown field " ++ marked name ++ ", expected one of " ++ ", ".intercalate (known.map marked)
  | .missingField name => "missing field " ++ marked name
  | .invalidType found expected => "invalid type: " ++ kind found ++ ", expected " ++ expected.phrase
  | .invalidValue found expected =>
    "invalid value: " ++ kind (.integer found) ++ ", expected " ++ expected.phrase
  | .tooShort found needed expected =>
    s!"invalid length {found}, expected {expected.phrase} with {needed} elements"

/-- The text of a settings error.  What is wrong with a text that is no document is not said. -/
def SettingsError.message : SettingsError → String
  | .unreadable path fault => s!"Failed to read config '{path.display}': {fault.message}"
  | .syntaxError => "Invalid config"
  | .shape error => error.message
  | .missingCompiler => "No [compiler] section configured"

namespace Toml.Value

def asText (expected : Expectation) : Value → Except ShapeError String
  | .string s => .ok s
  | v => .error (.invalidType v expected)

def asPath (v : Value) : Except ShapeError Path := (v.asText .path).map Path.ofString

/-- An array with elements of one kind. -/
def asList {α : Type} (element : Value → Except ShapeError α) : Value → Except ShapeError (List α)
  | .array vs => vs.mapM element
  | v => .error (.invalidType v .sequence)

/-- A number without a sign. -/
def asNumber : Value → Except ShapeError Nat
  | .integer n => if n < 0 then .error (.invalidValue n .number) else .ok n.toNat
  | v => .error (.invalidType v .number)

end Toml.Value

namespace CompilerSettings

/-- The key under which a date appears where a section is asked for. -/
def momentKey : String := "$__toml_private_datetime"

/-- The keys of the section. -/
def keys : List String := ["program", "args", "timeout_ms"]

/-- What is known of a compiler while its section is read. -/
structure Draft where
  program : Option Path := none
  arguments : List String := defaultArguments
  /-- The milliseconds it may take for one file. -/
  timeoutMs : Option Nat := none

/-- Takes a key of the section into account. -/
def Draft.set (d : Draft) (key : String) (v : Toml.Value) : Except ShapeError Draft :=
  match key with
  | "program" => do pure { d with program := some (← v.asPath) }
  | "args" => do pure { d with arguments := ← v.asList (Toml.Value.asText .text) }
  | "timeout_ms" => do pure { d with timeoutMs := some (← v.asNumber) }
  | _ => .error (.unknownField key keys)

/-- The settings a draft holds. -/
def Draft.finish (d : Draft) : Except ShapeError CompilerSettings :=
  match d.program with
  | some program => .ok ⟨program, d.arguments, d.timeoutMs⟩
  | none => .error (.missingField "program")

/-- Takes all keys of the section into account, in order. -/
def Draft.setAll (d : Draft) : List (String × Toml.Value) → Except ShapeError Draft
  | [] => .ok d
  | (key, v) :: rest => do (← d.set key v).setAll rest

/-- The settings of the section of a compiler.  The values of its keys may also stand in an array,
in their order; what comes after them counts for nothing. -/
def ofValue : Toml.Value → Except ShapeError CompilerSettings
  | .table fields => do Draft.finish (← Draft.setAll {} fields)
  | .moment => .error (.unknownField momentKey keys)
  | .array [] => .error (.tooShort 0 keys.length .compiler)
  | .array vs => do Draft.finish (← Draft.setAll {} (keys.zip vs))
  | v => .error (.invalidType v .compiler)

end CompilerSettings

namespace Settings

/-- The keys of a document. -/
def keys : List String := ["source_extension", "artifact_extension", "compiler", "libraries"]

/-- Takes a key of the document into account. -/
def set (s : Settings) (key : String) (v : Toml.Value) : Except ShapeError Settings :=
  match key with
  | "source_extension" => do pure { s with sourceExtension := ← v.asText .text }
  | "artifact_extension" => do pure { s with artifactExtension := ← v.asText .text }
  | "compiler" => do pure { s with compiler := some (← CompilerSettings.ofValue v) }
  | "libraries" => do pure { s with libraries := ← v.asList Toml.Value.asPath }
  | _ => .error (.unknownField key keys)

/-- Takes all keys of the document into account, in order. -/
def setAll (s : Settings) : List (String × Toml.Value) → Except ShapeError Settings
  | [] => .ok s
  | (key, v) :: rest => do (← s.set key v).setAll rest

/-- The settings of a document. -/
def ofFields (fields : List (String × Toml.Value)) : Except ShapeError Settings :=
  setAll {} fields

/-- Reads settings from a text. -/
def parse (text : String) : Except SettingsError Settings :=
  match Toml.read? text with
  | none => .error .syntaxError
  | some fields => (ofFields fields).mapError .shape

/-- Reads settings from a file. -/
def ofFile (fs : FileSystem) (path : Path) : Except SettingsError Settings := do
  let text ← (fs.readText path).mapError (.unreadable path)
  let s ← parse text
  match path.parent? with
  | some base => pure { s with libraries := s.libraries.map base.join }
  | none => pure s

end Settings

end LiveUnits
