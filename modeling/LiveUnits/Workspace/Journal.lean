import LiveUnits.Compiler.Script
import LiveUnits.Workspace.Basic

/-!
# Journals

A scripted compiler that works for a workspace keeps a journal: which calls it got, and what it saw
when it looked at the workspace in the middle of a call and asked for a rebuild of its own.  Inside a
rebuild such a request is refused.  Inside a build that holds no lock it is granted, and the rebuild
calls the same compiler; there it is refused, so that two levels are all there can be.
-/

namespace LiveUnits

/-- An entry of a journal. -/
inductive Event where
  | called (i : Invocation)
  /-- It looked around: the current generation, and what came of a request to rebuild. -/
  | probed (current : Option Nat) (outcome : Except BuildError Unit)

/-- The events so far. -/
abbrev Journal := List Event

namespace Journal

/-- Looks at a workspace and asks it for a rebuild with a compiler.  Nothing is entered if the rebuild
breaks down. -/
def probe (c : Compiler (Workspace × Journal)) : StateM (Site (Workspace × Journal)) Bool :=
  fun site =>
    let current := site.state.1.current
    let (result, site') := Workspace.tryRebuild c site
    let enter (outcome : Except BuildError Unit) : Site (Workspace × Journal) :=
      { site' with state := (site'.state.1, site'.state.2 ++ [.probed current outcome]) }
    match result with
    | .ok _ => (true, enter (.ok ()))
    | .error (.error e) => (true, enter (.error e))
    | .error .crashed => (false, site')

/-- The scripted compiler that keeps a journal, and looks around at most `depth` levels deep. -/
def compiler (scripts : Scripts) : Nat → Compiler (Workspace × Journal)
  | 0 => fun _ => pure .crashed
  | depth + 1 =>
    scripts.compiler
      { called := fun i (w, journal) => (w, journal ++ [.called i])
        probed := probe (compiler scripts depth) }

end Journal

end LiveUnits
