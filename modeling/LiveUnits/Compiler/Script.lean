import LiveUnits.Compiler.Basic
import LiveUnits.FileSystem.Change

/-!
# Scripted compilers

A scripted compiler works inside the host and does for every identity what a script says: it copies
the source, changes other files, refuses, breaks down, or looks at what is going on around it.  An
identity without a script is copied.
-/

namespace LiveUnits

inductive ScriptStep where
  /-- Copies the source file to the artifact. -/
  | copy
  /-- Refuses the source file. -/
  | fail (text : String)
  /-- Breaks down. -/
  | crash
  /-- Looks around. -/
  | probe
  | edit (e : FileSystem.Edit)
  /-- Does nothing. -/
  | pass

/-- Scripts by identity. -/
abbrev Scripts := List (String × List ScriptStep)

/-- What a scripted compiler tells its surroundings: the calls it gets, and when to look around. -/
structure Observer (σ : Type) where
  called : Invocation → σ → σ
  /-- Looks around, and tells whether nothing broke down meanwhile. -/
  probed : StateM (Site σ) Bool

namespace Scripts

variable {σ : Type}

/-- Copies the source file to the artifact, or says why it cannot. -/
def copy (i : Invocation) (fs : FileSystem) : Verdict × FileSystem :=
  if fs.isDirectory i.artifact then (.failed (.diagnostic "is a directory"), fs)
  else
    match fs.read i.source.path with
    | .error _ => (.failed (.diagnostic "copy failed"), fs)
    | .ok contents =>
      match fs.write i.artifact contents with
      | ⟨none, fs'⟩ => (.compiled, fs')
      | ⟨some _, fs'⟩ => (.failed (.diagnostic "copy failed"), fs')

/-- Follows a script to its end, or to the first step that fails. -/
def follow (o : Observer σ) (i : Invocation) : List ScriptStep → StateM (Site σ) Verdict
  | [] => pure .compiled
  | step :: rest => do
    match step with
    | .copy =>
      let site ← get
      let (verdict, files) := copy i site.files
      set { site with files }
      match verdict with
      | .compiled => follow o i rest
      | stop => pure stop
    | .fail text => pure (.failed (.diagnostic text))
    | .crash => pure .crashed
    | .probe => if ← o.probed then follow o i rest else pure .crashed
    | .edit e =>
      modify fun site => { site with files := (site.files.edit e).files }
      follow o i rest
    | .pass => follow o i rest

/-- The compiler that follows scripts. -/
def compiler (scripts : Scripts) (o : Observer σ) : Compiler σ := fun i => do
  modify fun site => { site with state := o.called i site.state }
  follow o i ((scripts.lookup i.source.identity.text).getD [.copy])

end Scripts

end LiveUnits
