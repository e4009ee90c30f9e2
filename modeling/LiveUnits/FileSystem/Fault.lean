/-!
# Faults of reading and writing

What the operating system answers when an operation on files fails, together with the few faults
that arise above it.  `isAbsence` tells the faults that only say that nothing is there.
-/

namespace LiveUnits

/-- Why an operation on files failed. -/
inductive Fault where
  /-- A component of the path does not exist. -/
  | notFound
  /-- Something exists where a new entry was to be made. -/
  | alreadyExists
  /-- A component of the path that has to be a directory is none. -/
  | notDirectory
  /-- A directory stands where none may stand. -/
  | isDirectory
  /-- The path may not be used for the operation. -/
  | invalidArgument
  /-- The path or one of its names is too long. -/
  | nameTooLong
  /-- The directory to be removed still has entries. -/
  | notEmpty
  /-- Following the links of the path does not end soon enough. -/
  | tooManyLinks
  /-- The operating system still uses the directory. -/
  | busy
  /-- The file may not be used in this way. -/
  | notPermitted
  /-- The path holds a NUL byte. -/
  | interiorNul
  /-- A text was asked for, but the file is not UTF-8. -/
  | notText
  /-- The container refuses to give the resource. -/
  | denied
  deriving DecidableEq, Repr

namespace Fault

/-- What a fault says. -/
def phrase : Fault → String
  | notFound => "No such file or directory"
  | alreadyExists => "File exists"
  | notDirectory => "Not a directory"
  | isDirectory => "Is a directory"
  | invalidArgument => "Invalid argument"
  | nameTooLong => "File name too long"
  | notEmpty => "Directory not empty"
  | tooManyLinks => "Too many levels of symbolic links"
  | busy => "Device or resource busy"
  | notPermitted => "Permission denied"
  | interiorNul => "file name contained an unexpected NUL byte"
  | notText => "stream did not contain valid UTF-8"
  | denied => "permission denied"

/-- The number by which the operating system knows a fault. -/
def number? : Fault → Option Nat
  | notFound => some 2
  | notPermitted => some 13
  | busy => some 16
  | alreadyExists => some 17
  | notDirectory => some 20
  | isDirectory => some 21
  | invalidArgument => some 22
  | nameTooLong => some 36
  | notEmpty => some 39
  | tooManyLinks => some 40
  | interiorNul => none
  | notText => none
  | denied => none

/-- The text of a fault. -/
def message (f : Fault) : String :=
  match f.number? with
  | some n => s!"{f.phrase} (os error {n})"
  | none => f.phrase

/-- Whether the fault only says that nothing is there. -/
def isAbsence (f : Fault) : Bool := f == notFound || f == notDirectory

end Fault

end LiveUnits
