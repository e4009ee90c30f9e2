import LiveUnits.Shell.Raw

/-!
# Commands of the shell

The command language in which small compilers are written: simple commands with assignments and
redirections, pipelines, lists joined by `;`, `&`, `&&` and `||`, the compound commands, functions, and
words made of quoted and unquoted text, parameters, sums and the output of other commands.
-/

namespace LiveUnits.Shell

/-- What becomes of the value of a parameter.  With `orEmpty`, an empty value counts as none. -/
inductive Treatment where
  /-- The value itself. -/
  | whole
  /-- The number of its characters. -/
  | length
  /-- A word in its place, if there is none. -/
  | orElse (orEmpty : Bool)
  /-- A word that becomes the value, if there is none. -/
  | orAssign (orEmpty : Bool)
  /-- A complaint, if there is none. -/
  | orFail (orEmpty : Bool)
  /-- A word in its place, if there is one. -/
  | ifSet (orEmpty : Bool)
  /-- Without a part at its front that a pattern matches. -/
  | cutFront (longest : Bool)
  /-- Without a part at its end that a pattern matches. -/
  | cutEnd (longest : Bool)
  /-- Something that nobody knows. -/
  | unknown
  deriving DecidableEq

/-- What a redirection does with a stream. -/
inductive Direction where
  | read
  /-- Writes to a file, from its beginning; a file that is there may be kept from that. -/
  | write
  /-- Writes to a file, from its beginning. -/
  | overwrite
  /-- Writes to a file, at its end. -/
  | append
  /-- Reads from a file and writes to it. -/
  | both
  /-- Makes the stream a copy of another one. -/
  | duplicate
  /-- Reads from a text in the script. -/
  | text
  deriving DecidableEq

/-- A redirection whose target is a word of type `ω`. -/
structure Redirect (ω : Type) where
  stream : Nat
  /-- What becomes of it. -/
  direction : Direction
  /-- The file, the number of the other stream, or the text. -/
  target : ω

mutual

/-- A piece of a word. -/
inductive Part where
  | text (s : Raw) (quoted : Bool)
  /-- A quotation mark: the word is there even if nothing is in it. -/
  | mark
  /-- The value of a parameter, and how it is to be treated, with the word that this takes. -/
  | parameter (name : Raw) (treatment : Treatment) (operand : List Part) (quoted : Bool)
  | output (script : Command) (quoted : Bool)
  | arithmetic (expression : List Part) (quoted : Bool)

inductive Command where
  | nothing
  /-- Assignments, and a program with its arguments, on a line of the script. -/
  | simple (line : Nat) (assignments : List (Raw × List Part)) (words : List (List Part))
      (redirects : List (Redirect (List Part)))
  /-- Commands each of which reads what the one before it writes. -/
  | pipeline (commands : List Command)
  /-- A command whose success is failure. -/
  | negate (c : Command)
  /-- A second command, if the first one succeeds. -/
  | andThen (first second : Command)
  /-- A second command, if the first one fails. -/
  | orElse (first second : Command)
  | sequence (first second : Command)
  /-- A command that nobody waits for. -/
  | background (c : Command)
  /-- A choice between two commands. -/
  | branch (condition yes no : Command)
  /-- A command that is repeated while a condition holds, or until it does. -/
  | loop (whileTrue : Bool) (condition body : Command)
  /-- A command that is done for every one of some words. -/
  | each (line : Nat) (name : Raw) (words : List (List Part)) (body : Command)
  /-- The first arm of which a pattern matches a word. -/
  | choose (line : Nat) (subject : List Part) (arms : List (List (List Part) × Command))
  | group (line : Nat) (body : Command) (redirects : List (Redirect (List Part)))
  /-- A command that keeps its changes to itself. -/
  | subshell (line : Nat) (body : Command) (redirects : List (Redirect (List Part)))
  | define (name : Raw) (body : Command)

end

instance : Inhabited Command := ⟨.nothing⟩

abbrev Word := List Part

/-- One command after the other, unless there is nothing to do. -/
def Command.join : Command → Command → Command
  | c, .nothing => c
  | .nothing, c => c
  | c, d => .sequence c d

/-- The text of a word without its quotes. -/
def Word.bareText (w : Word) : Raw :=
  w.flatMap fun
    | .text s _ => s
    | _ => []

def Word.isQuoted (w : Word) : Bool :=
  w.any fun
    | .text _ quoted => quoted
    | .mark => true
    | _ => false

/-- Joins pieces of text that follow each other and are quoted alike. -/
def Word.joined : Word → Word
  | .text a q :: rest =>
    match Word.joined rest with
    | .text b p :: others => if p == q then .text (a ++ b) q :: others else .text a q :: .text b p :: others
    | others => .text a q :: others
  | part :: rest => part :: Word.joined rest
  | [] => []

/-- The text of a word in which nothing is special, so that it may be a word of the language. -/
def Word.literal? : Word → Option Raw
  | [.text s false] => some s
  | _ => none

def Word.assignment? : Word → Option (Raw × Word)
  | .text s false :: rest =>
    let name := s.takeWhile (· != '=')
    if isName name && name.length < s.length then
      let value := s.drop (name.length + 1)
      some (name, if value.isEmpty then rest else .text value false :: rest)
    else none
  | _ => none

end LiveUnits.Shell
