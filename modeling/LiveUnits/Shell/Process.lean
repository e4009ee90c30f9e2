import LiveUnits.Shell.Lookup
import LiveUnits.Shell.Signal

/-!
# Processes

A part of a script that is carried out in a process of its own gets a copy of what the shell has; files
and open files are shared.  A process that nobody waits for is carried out when it is known to end: the
processes that go on by themselves are taken in the order of their ends, as far as time has gone by.
-/

namespace LiveUnits.Shell

/-- How commands and programs are carried out. -/
structure Runner where
  command : Around → Command → Act Unit
  /-- Carries out a program, which takes the process over, with its name and its arguments. -/
  program : Raw → Program → List Raw → Act Unit

instance : Inhabited Runner := ⟨⟨fun _ _ => throw .expires, fun _ _ _ => throw .expires⟩⟩

/-! ## Scripts -/

/-- Carries out what is left of a script, one complete command after the other; answers whether there was
any.  The first argument bounds their number. -/
def runSource (run : Runner) (around : Around) : Nat → Bool → Source → Act Bool
  | 0, ran, _ => pure ran
  | fuel + 1, ran, source => do
    let st ← get
    match nextCommand { source with aliases := st.aliases } with
    | .error f =>
      set { st with line := f.line }
      fail ["Syntax error: ", f.message]
    | .ok none => pure ran
    | .ok (some (.nothing, rest)) => runSource run around fuel ran rest
    | .ok (some (c, rest)) =>
      set { st with reached := rest.line }
      run.command around c
      runSource run around fuel true rest

/-- Carries out a script; the exit code is that of its last command. -/
def runScript (run : Runner) (around : Around) (script : Raw) : Act Unit := do
  let ran ← runSource run around (script.length + 1) false { rest := script }
  if !ran then done 0

/-! ## The end of a process -/

/-- How a process ended. -/
inductive Outcome where
  | code (n : Nat)
  | signal (n : Nat)
  /-- Not in time. -/
  | expired

/-- Carries something out to its end, and then what is to be done at the end. -/
def concluded (run : Runner) (body : Act Unit) : State → Outcome × State := fun st =>
  let (result, st) := body st
  match result with
  | .error .expires => (.expired, st)
  | .error (.dies n) => (.signal n, st)
  | _ =>
    match st.traps.lookup 0 with
    | none | some [] => (.code (st.status % 256), st)
    | some action =>
      let status := st.status
      let (result, st) := runScript run { before := some status } action
        { st with traps := st.traps.filter (·.1 != 0), front := [] }
      match result with
      | .error .expires => (.expired, st)
      | .error (.dies n) => (.signal n, st)
      | .error .ends | .error .fails => (.code (st.status % 256), st)
      | _ => (.code (status % 256), st)

/-- Carries something out in a process of its own, which is changed in some way at the beginning. -/
def inProcess (run : Runner) (change : State → State) (body : Act Unit) : Act Outcome := fun st =>
  let self := st.nextProcess
  let start := change
    { st with nextProcess := self + 1, self, parent := st.self, traps := st.traps.filter (·.2.isEmpty) }
  let (outcome, after) := concluded run body start
  (.ok outcome, st.leave after)

/-- Notes how a process ended for which the shell has waited. -/
def settle : Outcome → Act Unit
  | .code n => done n
  | .signal n => do
    done (128 + n)
    if let some phrase := Signal.phrase? n then warn (line [phrase])
  | .expired => throw .expires

/-! ## Signals -/

/-- The first signal for this process, and what else has been sent. -/
def State.nextSignal? (st : State) : Option (Nat × List (Nat × Nat)) :=
  match (st.signals.filter (·.1 == st.self)).map (·.2) with
  | [] => none
  | n :: others =>
    let signal := others.foldl min n
    some (signal, st.signals.filter (· != (st.self, signal)))

/-- Does what is to be done about the signals that have come.  The first argument bounds their number. -/
def receiveSome (run : Runner) : Nat → Act Unit
  | 0 => pure ()
  | fuel + 1 => do
    let st ← get
    match st.nextSignal? with
    | none => pure ()
    | some (signal, signals) =>
      set { st with signals }
      if signal = 19 then throw .expires
      match if Signal.isRelentless signal then none else st.traps.lookup signal with
      | some [] => pure ()
      | some action =>
        runScript run { before := some st.status } action
        done st.status
      | none => if !Signal.isHarmless signal then throw (.dies signal)
      receiveSome run fuel

/-- Does what is to be done about the signals that have come. -/
def receive (run : Runner) : Act Unit := do
  let st ← get
  if !st.signals.isEmpty then receiveSome run (st.signals.length + 1)

/-! ## Jobs -/

/-- The state in which a job begins. -/
def Job.start? (j : Job) (limit : Option Nat) (st : State) : Option State :=
  if j.ended.isSome then none
  else some { st with toScope := j.scope, files := { st.files with cwd := j.home }, elapsed := j.start, limit }

/-- Notes that a job has ended. -/
def State.endJob (st : State) (process status time : Nat) : State :=
  { st with
    jobs := st.jobs.map fun j => if j.process == process then { j with ended := some (status, time) } else j }

/-- What comes of a job up to a point in time: how it ended and when, and the state then. -/
def Job.try (run : Runner) (limit : Option Nat) (st : State) (j : Job) : Option (Outcome × Nat × State) :=
  (j.start? limit st).map fun start =>
    let (outcome, after) := concluded run (run.command {} j.body) start
    (outcome, after.elapsed, { st.leave after with elapsed := st.elapsed, limit := st.limit })

/-- Carries out the job that ends next, if any ends before a point in time. -/
def endNext (run : Runner) (limit : Option Nat) : Act Bool := do
  let st ← get
  let ends := st.jobs.filterMap fun j =>
    match j.try run limit st with
    | some (.code n, time, after) => some (j.process, n, time, after)
    | some (.signal n, time, after) => some (j.process, 128 + n, time, after)
    | _ => none
  match ends with
  | [] => pure false
  | e :: others =>
    let (process, status, time, after) := others.foldl (fun a b => if b.2.2.1 < a.2.2.1 then b else a) e
    set (after.endJob process status time)
    pure true

/-- Carries out the jobs that end before a point in time.  The first argument bounds their number. -/
def endAll (run : Runner) (limit : Option Nat) : Nat → Act Unit
  | 0 => pure ()
  | fuel + 1 => do
    if (← get).jobs.any (·.ended.isNone) then
      if ← endNext run limit then endAll run limit fuel

/-- How many jobs may end while the shell waits. -/
def jobBound : Nat := 10000

/-- Carries out the jobs that have ended by now. -/
def catchUp (run : Runner) : Act Unit := do
  let st ← get
  if st.jobs.any (·.ended.isNone) then endAll run (some st.elapsed) jobBound

/-- How long those are waited for that nobody waits for, in nanoseconds. -/
def patience : Nat := 3600 * Nat.pow 10 9

/-- Carries out all jobs. -/
def drain (run : Runner) : Act Unit := do
  let st ← get
  if st.jobs.any (·.ended.isNone) then endAll run (some (st.elapsed + patience)) jobBound

/-- Waits for jobs.  The first argument bounds the number of those that end meanwhile. -/
def waitFor (run : Runner) (processes : List Nat) : Nat → Act Unit
  | 0 => throw .expires
  | fuel + 1 => do
    let st ← get
    let waiting := st.jobs.filter fun j => processes.contains j.process
    if waiting.all (·.ended.isSome) then
      let ends := waiting.filterMap fun j => j.ended.map (·.2)
      set { st with elapsed := ends.foldl max st.elapsed }
    else
      if !(← endNext run (some (st.limit.getD (st.elapsed + patience)))) then throw .expires
      receive run
      waitFor run processes fuel

def beginJob (body : Command) : Act Unit := do
  let st ← get
  let self := st.nextProcess
  let (void, st) := st.openHandle { medium := .void }
  let own := (st.point 0 void).toScope
  let scope : Scope := { own with self, parent := st.self, traps := st.traps.filter (·.2.isEmpty) }
  let job : Job := { process := self, owner := st.self, body, scope, home := st.files.cwd, start := st.elapsed }
  set { st with nextProcess := self + 1, background := some self, jobs := st.jobs ++ [job] }
  done 0

/-- The jobs of this process. -/
def State.ownJobs (st : State) : List Job := st.jobs.filter (·.owner == st.self)

/-- The job that an argument with a percent sign means. -/
def jobOf (r : Raw) : Act Job := do
  let own := (← get).ownJobs
  let name := r.drop 1
  let found := if isNumber name then (if number name = 0 then none else own[number name - 1]?)
    else if name.isEmpty || name == ['%'] || name == ['+'] then own.getLast?
    else if name == ['-'] then own.dropLast.getLast?
    else none
  match found with
  | some j => pure j
  | none => fail ["No such job: ", r]

/-- The command `wait`. -/
def waitBuiltin (run : Runner) (args : List Raw) : Act Nat := do
  let (_, operands) ← optionsOf "" args
  if operands.isEmpty then
    waitFor run ((← get).ownJobs.map (·.process)) jobBound
    return 0
  let mut status := 127
  for r in operands do
    let process ← if r.head? == some '%' then pure (← jobOf r).process else countOf r
    if (← get).ownJobs.any (·.process == process) then
      waitFor run [process] jobBound
      let ended := ((← get).jobs.find? (·.process == process)).bind (·.ended)
      status := (ended.map (·.1)).getD 0
      if 128 < status then
        if let some phrase := Signal.phrase? (status - 128) then warn (line [phrase])
    else status := 127
  pure status

/-- The commands `fg` and `bg`: the shell controls no jobs. -/
def resumeBuiltin (args : List Raw) : Act Nat := do
  let (_, operands) ← optionsOf "" args
  match operands with
  | [] =>
    if (← get).ownJobs.isEmpty then fail ["No current job"] else fail ["job not created under job control"]
  | r :: _ =>
    let _ ← jobOf r
    fail ["job ", r, " not created under job control"]

/-! ## Sending signals -/

/-- Sends a signal to a process; answers whether there is one. -/
def send (run : Runner) (signal process : Nat) : Act Bool := do
  let st ← get
  if [st.self, st.process, st.parent, 0].contains process then
    let process := if process = 0 then st.self else process
    if signal != 0 then set { st with signals := st.signals ++ [(process, signal)] }
    pure true
  else
    match st.jobs.find? (·.process == process) with
    | none => pure false
    | some j =>
      if signal != 0 && !Signal.isHarmless signal then
        match j.try run (some st.elapsed) st with
        | some (.expired, _, after) => set (after.endJob process (128 + signal) st.elapsed)
        | some (.code n, time, after) => set (after.endJob process n time)
        | some (.signal n, time, after) => set (after.endJob process (128 + n) time)
        | none => pure ()
      pure true

/-- How `kill` is used. -/
def killUsage : Raw :=
  "Usage: kill [-s sigspec | -signum | -sigspec] [pid | job]... or\nkill -l [exitstatus]"

/-- Tells the names of signals. -/
def nameSignals (operands : List Raw) : Act Nat := do
  match operands with
  | [] =>
    say "0\n"
    for n in List.range (Signal.count - 1) do say (line [Signal.title (n + 1)])
    pure 0
  | r :: _ =>
    let n ← countOf r
    let signal := if 128 < n then n - 128 else n
    if 0 < signal && signal < Signal.count then
      say (line [Signal.title signal])
      pure 0
    else fail ["invalid signal number or exit status: ", r]

/-- Sends a signal to the processes and jobs that arguments mean. -/
def sendAll (run : Runner) (signal : Nat) (targets : List Raw) : Act Nat := do
  let mut status := 0
  for r in targets do
    let process ← if r.head? == some '%' then pure (← jobOf r).process
      else if r.head? == some '-' then countOf (r.drop 1)
      else countOf r
    if !(← send run signal process) then
      complain ["No such process\n"]
      status := 1
  pure status

/-- The command `kill`. -/
def killBuiltin (run : Runner) (args : List Raw) : Act Nat := do
  match args with
  | [] => fail [killUsage]
  | first :: rest =>
    let named := if first.head? == some '-' then Signal.ofText? 1 (first.drop 1) else none
    match named with
    | some signal => if rest.isEmpty then fail [killUsage] else sendAll run signal rest
    | none =>
      let (options, operands) ← if first.head? == some '-' then optionsOf "ls:" args else pure ([], args)
      let signals ← (options.filter (·.1 == 's')).mapM fun (_, r) => do
        match Signal.ofText? 1 r with
        | some n => pure n
        | none => fail ["invalid signal number or name: ", r]
      let lists := options.any (·.1 == 'l')
      if lists then
        if signals.isEmpty then nameSignals operands else fail [killUsage]
      else if operands.isEmpty then fail [killUsage]
      else sendAll run (signals.getLast?.getD 15) operands

/-! ## Preparing for signals -/

/-- The command `trap`. -/
def trapBuiltin (args : List Raw) : Act Nat := do
  let (_, operands) ← optionsOf "" args
  match operands with
  | [] =>
    let st ← get
    for n in List.range Signal.count do
      if let some action := st.traps.lookup n then
        say (line ["trap -- ", quoted action, " ", Signal.title n])
    pure 0
  | first :: rest =>
    let isAction := !rest.isEmpty && !(isNumber first && (Signal.ofText? 0 first).isSome)
    let action := if isAction && first != ['-'] then some first else none
    for r in if isAction then rest else operands do
      match Signal.ofText? 0 r with
      | none =>
        warn (line ["trap: ", r, ": bad trap"])
        return 1
      | some n =>
        modify fun st =>
          let others := st.traps.filter (·.1 != n)
          { st with traps := match action with
              | some action => (n, action) :: others
              | none => others }
    pure 0

end LiveUnits.Shell
