import LiveUnits.Text.Utf8

/-!
# Malformed modules

Why bytes are no module: because the text or the binary form cannot be read, or because what they
say breaks a rule of validation.
-/

namespace LiveUnits.Wasm

/-- Why bytes are no module. -/
inductive Malformation where
  /-- The bytes are neither a binary module nor a text. -/
  | notText (fault : Utf8.Fault)
  /-- The text is not built from words, strings and parentheses. -/
  | unreadableText
  /-- The text form of a module has another form. -/
  | unknownForm
  /-- A name of the text form stands for nothing. -/
  | unknownName (name : String)
  /-- A number of the text form is out of range. -/
  | numberOutOfRange
  /-- An import of the text form comes after a definition. -/
  | lateImport
  /-- The binary form does not start with a known header. -/
  | badHeader
  /-- The bytes end too early. -/
  | truncated
  /-- A number is written with too many bytes or bits. -/
  | badNumber
  /-- A name is too long or not UTF-8. -/
  | badName
  | badSectionNumber (number : Nat)
  /-- A section comes twice or too late. -/
  | sectionOrder (number : Nat)
  /-- A section holds more bytes than its items take. -/
  | trailingBytes
  /-- Two sections do not agree on how many items there are. -/
  | countMismatch
  | unknownSection (number : Nat)
  /-- The bytes hold a component and not a module. -/
  | component
  /-- There is no such type, kind or form. -/
  | unknownType (code : Nat)
  | unknownInstruction (code : Nat)
  /-- An index names nothing. -/
  | unknownIndex (index : Nat)
  /-- A limit is out of range, or the minimum exceeds the maximum. -/
  | badLimits
  /-- There are more items than an implementation takes. -/
  | tooMany
  /-- The module asks for something that is switched off. -/
  | unsupported
  | duplicateExport (name : String)
  /-- A function that cannot be run at the start is to be. -/
  | badStart
  /-- An expression that is evaluated in advance is not constant. -/
  | notConstant
  /-- Operands are missing or of another type than the instruction takes. -/
  | typeMismatch
  /-- A body ends too early or goes on after its end. -/
  | unbalancedBody
  /-- A value that cannot change is to be changed. -/
  | immutable
  deriving DecidableEq, Repr

/-- The text of a malformation. -/
def Malformation.message : Malformation → String
  | notText fault => s!"not a module: {fault.message}"
  | unreadableText => "unreadable text"
  | unknownForm => "unknown form"
  | unknownName name => s!"unknown name {name}"
  | numberOutOfRange => "number out of range"
  | lateImport => "import after a definition"
  | badHeader => "unknown header"
  | truncated => "unexpected end"
  | badNumber => "number too long"
  | badName => "malformed name"
  | badSectionNumber number => s!"malformed section number {number}"
  | sectionOrder number => s!"section {number} out of order"
  | trailingBytes => "unexpected bytes at the end of a section"
  | countMismatch => "sections of different lengths"
  | unknownSection number => s!"unknown section {number}"
  | component => "a component is no module"
  | unknownType code => s!"unknown type {code}"
  | unknownInstruction code => s!"unknown instruction {code}"
  | unknownIndex index => s!"unknown index {index}"
  | badLimits => "limits out of range"
  | tooMany => "too many items"
  | unsupported => "unsupported feature"
  | duplicateExport name => s!"duplicate export {name}"
  | badStart => "bad start function"
  | notConstant => "constant expression required"
  | typeMismatch => "type mismatch"
  | unbalancedBody => "unbalanced body"
  | immutable => "the global is immutable"

end LiveUnits.Wasm
