import LiveUnits.Compiler.Basic
import LiveUnits.Shell.Raw

/-!
# Signals

The names and numbers of signals.  Number zero stands for the end of the shell.
-/

namespace LiveUnits.Shell.Signal

/-- The first number that is no signal. -/
def count : Nat := 65

/-- The name of a signal. -/
def title (n : Nat) : Raw :=
  if n = 0 then "EXIT"
  else
    match ExitStatus.signalName? n with
    | some name => name.toList
    | none =>
      if n < 34 then digits n
      else if n = 34 then "RTMIN"
      else if n = 64 then "RTMAX"
      else if n < 50 then "RTMIN+" ++ digits (n - 34)
      else "RTMAX-" ++ digits (64 - n)

/-- The number of a signal, given by its number or its name; `first` is the first number that has a
name. -/
def ofText? (first : Nat) (r : Raw) : Option Nat :=
  if isNumber r then (if number r < count then some (number r) else none)
  else (List.range count).find? fun n => first ≤ n && title n == r.map Char.toUpper

/-- Whether a signal goes unnoticed if nothing else is said. -/
def isHarmless (n : Nat) : Bool := [0, 17, 18, 23, 28].contains n

/-- Whether a signal cannot be caught. -/
def isRelentless (n : Nat) : Bool := n == 9 || n == 19

/-- What is said about a process that a signal has ended. -/
def phrase? (n : Nat) : Option Raw :=
  ([(1, "Hangup"), (3, "Quit"), (4, "Illegal instruction"), (5, "Trace/breakpoint trap"),
    (6, "Aborted"), (7, "Bus error"), (8, "Floating point exception"), (9, "Killed"),
    (10, "User defined signal 1"), (11, "Segmentation fault"), (12, "User defined signal 2"),
    (14, "Alarm clock"), (15, "Terminated"), (16, "Stack fault"), (24, "CPU time limit exceeded"),
    (25, "File size limit exceeded"), (26, "Virtual timer expired"), (27, "Profiling timer expired"),
    (29, "I/O possible"), (30, "Power failure"), (31, "Bad system call")].lookup n).map String.toList

end LiveUnits.Shell.Signal
