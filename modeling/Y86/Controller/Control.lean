import Y86.Controller.Basic
import Y86.ObjectCode.Program

/-!
# Driving a controller

The operations that load a program, move along its trace and leave it again. Some answer whether they were carried out, or
whether the controller can go on; the answer stands in front of the controller behind the operation.
-/

namespace Y86

open Text

namespace Controller

/-! ### Loading -/

/-- Forgets the program and all that was done with it. Breakpoints stay, with their hit counts. -/
def reset (c : Controller) : Controller :=
  let c :=
    { c with
      machine := c.limits.machine
      logs := #[]
      history := c.history.clear
      trace := none
      index := -1
      running := false
      active := false
      statusBefore := none
      lastHit := none }
  c.log .info "CPU reset: registers and memory cleared"

/-- Lays an entry over the machine. -/
def applyEntry (c : Controller) (e : TraceEntry) (index : Int) : Controller :=
  { c with machine := e.replay c.machine.memory index }

/-- Takes a snapshot of the machine, labelled with the instruction of the entry that it shows, or else with its
program counter. -/
def capture (c : Controller) (e : TraceEntry) : Controller :=
  let label := e.label.getD ("PC=" ++ Hex.address c.machine.pc)
  { c with history := c.history.capture c.machine (some label) }

/-- Shows the first entry of a trace. -/
def openTrace (c : Controller) (t : Trace) : Controller :=
  let c := if t.looksReversed then c.log .warning "Trace order looks reversed; keeping execution order" else c
  let c : Controller := { c with trace := some t, index := 0 }
  match t.entries[0]? with
  | none => c
  | some first =>
    let c := c.applyEntry first 0
    let c : Controller := { c with running := 1 < t.length && c.machine.status == .aok }
    (c.log .success ("Program simulated: " ++ toString t.length ++ " trace entries recorded")).capture first

/-- Starts afresh with a program; a text that does not load leaves the controller reset. -/
def load (c : Controller) (text : String) : Bool × Controller :=
  let c := c.reset
  match Program.load c.limits.memory text with
  | .error e => (false, c.log .error ("Program load failed: " ++ e.message))
  | .ok program => (true, c.openTrace (.build c.limits.maxSteps program))

/-! ### Moving on -/

/-- Stops at the breakpoint that the machine has come to, if there is one. -/
def checkBreakpoints (c : Controller) : Controller :=
  let m := c.machine
  let c := match c.breakpoints.checkWarning? m.pc with
    | some message => c.log .warning message
    | none => c
  let (hit?, breakpoints) := c.breakpoints.check m.pc m.registers m.cycle
  let c := { c with breakpoints }
  match hit? with
  | none => c
  | some hit =>
    let c := { c with lastHit := some hit }
    let c := { c with statusBefore := some c.machine.status }
    let c := { c with machine := { c.machine with status := .hlt } }
    let c := { c with running := false }
    c.log .warning ("Breakpoint hit at " ++ Hex.address m.pc)

/-- Ends a continuous run that cannot go on. -/
def settle (c : Controller) : Controller := if c.running then c else { c with active := false }

/-- Shows the entry at an index. -/
def advance (c : Controller) (e : TraceEntry) (index : Int) : Controller :=
  let c := { c.applyEntry e index with index }
  -- the snapshot comes before the look at the breakpoints
  let c := c.capture e
  let c := c.log .info ("Cycle " ++ toString c.machine.cycle ++ ": PC=" ++ Hex.address c.machine.pc)
  c.refresh.checkBreakpoints.settle

/-- Shows the next entry, if the controller can go on; the answer is whether it still can. -/
def step (c : Controller) : Bool × Controller :=
  if c.running && c.hasNext then
    match c.entry? (c.index + 1) with
    | some e =>
      let c := c.advance e (c.index + 1)
      (c.running, c)
    | none => (false, c)
  else (false, { c with running := false })

/-- Takes at most a number of steps, until one answers that the controller cannot go on; how many it took comes with
it. -/
def stepUntilStopped : Nat → Controller → Nat × Controller
  | 0, c => (0, c)
  | bound + 1, c =>
    let (goes, next) := c.step
    if goes then
      let (taken, last) := stepUntilStopped bound next
      (taken + 1, last)
    else (1, next)

/-- Takes steps until one answers that the controller cannot go on. -/
def finish (c : Controller) : Nat × Controller := stepUntilStopped (c.view.remaining + 1) c

/-- Leaves a breakpoint: the machine gets its own status back. The answer is whether the controller can go on. -/
def resume (c : Controller) : Bool × Controller :=
  match c.lastHit, c.statusBefore with
  | some _, some status =>
    let c := { c with machine := { c.machine with status } }
    let c := c.refresh
    let c := { c with lastHit := none }
    let c := { c with statusBefore := none }
    let c := c.log .info "Continuing from breakpoint"
    (c.running, c)
  | _, _ => (false, c)

/-- Starts a continuous run, if the controller can go on, which is the answer. -/
def run (c : Controller) : Bool × Controller :=
  if c.running then (true, { c with active := true }.log .info "Running") else (false, c)

/-- One step of a continuous run; the answer is whether the run goes on. -/
def tick (c : Controller) : Bool × Controller :=
  if c.active then
    if c.running then
      let c := c.step.2
      (c.active, c)
    else (false, { c with active := false })
  else (false, c)

def pause (c : Controller) : Controller :=
  if c.active then { c with active := false }.log .info ("Paused at cycle " ++ toString c.machine.cycle) else c

/-! ### Jumping back -/

/-- Jumps to a snapshot; the answer is whether there is one. -/
def restore (c : Controller) (r : Reference SnapshotId) : Bool × Controller :=
  match c.history.find? r with
  | none => (false, c.log .error ("Snapshot not found: " ++ r.named SnapshotId.text))
  | some snapshot =>
    let c := { c with machine := snapshot.machine }
    -- the index of an entry is its cycle
    let c := { c with index := snapshot.machine.cycle }
    let c := { c with statusBefore := none, lastHit := none, active := false }
    let c := c.refresh
    (true, c.log .info ("Restored to cycle " ++ toString snapshot.machine.cycle))

end Controller

end Y86
