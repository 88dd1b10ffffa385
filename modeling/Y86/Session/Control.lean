import Y86.ObjectCode.Program
import Y86.Session.Basic

/-!
# Driving a session

Loading a program records its whole trace at once; from then on a session only moves along it.

* `Session.step` shows the next entry, takes a snapshot of it, and looks at the breakpoint table.
* `Session.run` lets a clock drive the session; every `Session.tick` is one step, until the session cannot go on.
* `Session.resume` leaves a breakpoint, and `Session.restore` jumps to a snapshot.

A function answers with the session after it. What a caller is told beside that can be read off the sessions before
and after; `Session.perform` does so.
-/

namespace Y86

open Text

namespace Session

/-! ### Loading -/

/-- Forgets the program and all that was done with it. Breakpoints stay, with their hit counts. -/
def reset (s : Session) : Session :=
  -- what was handed out goes on being counted, so that no identifier is used again
  let fresh : Session :=
    { start s.limits with breakpoints := s.breakpoints, added := s.added, history := s.history.clear }
  fresh.log .info "CPU reset: registers and memory cleared"

/-- Takes a snapshot of the machine, labelled with the instruction of the entry that it shows, or else with its
program counter. -/
def capture (s : Session) (e : TraceEntry) : Session :=
  let label := e.label.getD ("PC=" ++ Hex.address s.machine.pc)
  { s with history := s.history.capture s.machine (some label) }

/-- Shows the first entry of a trace. -/
def openTrace (s : Session) (t : Trace) : Session :=
  let s := if t.looksReversed then s.log .warning "Trace order looks reversed; keeping execution order" else s
  match t.entries[0]? with
  | none => s
  | some first =>
    let shown : Session := { s with playback := some { trace := t }, machine := first.replay s.machine.memory 0 }
    (shown.refresh.log .success
      ("Program simulated: " ++ toString t.length ++ " trace entries recorded")).capture first

/-- Starts afresh with a program; a text that does not load leaves the session reset. -/
def load (s : Session) (text : String) : Session :=
  let s := s.reset
  match Program.load s.limits.memory text with
  | .error e => s.log .error ("Program load failed: " ++ e.message)
  | .ok program => s.openTrace (.build s.limits.maxSteps program)

/-! ### Moving on -/

/-- Moves on by one entry. -/
def moved (s : Session) (e : TraceEntry) : Session :=
  match s.playback with
  | none => s
  | some p =>
    let cursor := p.cursor + 1
    { s with playback := some (p.seek cursor), machine := e.replay s.machine.memory cursor }

/-- Stops at the breakpoint that the machine has come to, if there is one. -/
def checkBreakpoints (s : Session) : Session :=
  let m := s.machine
  let s := match s.breakpoints.checkWarning? m.pc with
    | some message => s.log .warning message
    | none => s
  match s.breakpoints.check m.pc m.registers m.cycle with
  | (none, _) => s
  | (some hit, table) =>
    -- the status is overridden here only: the trace and the snapshot of the entry keep the true one
    let stopped : Session :=
      { s with
        breakpoints := table
        stop := some { hit, status := m.status }
        machine := { m with status := .hlt }
        running := false }
    stopped.log .warning ("Breakpoint hit at " ++ Hex.address m.pc)

/-- Ends a continuous run that cannot go on. -/
def settle (s : Session) : Session := if s.running then s else { s with active := false }

/-- Shows an entry that comes next. -/
def advance (s : Session) (e : TraceEntry) : Session :=
  -- the snapshot comes before the look at the breakpoints
  let shown := (s.moved e).capture e
  let told := shown.log .info
    ("Cycle " ++ toString shown.machine.cycle ++ ": PC=" ++ Hex.address shown.machine.pc)
  told.refresh.checkBreakpoints.settle

/-- Shows the next entry, if the session can go on. -/
def step (s : Session) : Session :=
  match s.next? with
  | some e => s.advance e
  | none => { s with running := false }

/-- Takes at most a number of steps, until one leaves a session that cannot go on; how many it took comes with
it. -/
def stepUntilStopped : Nat → Session → Nat × Session
  | 0, s => (0, s)
  | bound + 1, s =>
    let next := s.step
    if next.running then
      let (taken, last) := stepUntilStopped bound next
      (taken + 1, last)
    else (1, next)

/-- Takes steps until one leaves a session that cannot go on. -/
def finish (s : Session) : Nat × Session := stepUntilStopped (s.remaining + 1) s

/-- Leaves a breakpoint: the machine gets its own status back. -/
def resume (s : Session) : Session :=
  match s.stop with
  | none => s
  | some stop =>
    let left : Session := { s with machine := { s.machine with status := stop.status }, stop := none }
    left.refresh.log .info "Continuing from breakpoint"

/-- Starts a continuous run, if the session can go on. -/
def run (s : Session) : Session :=
  if s.running then { s with active := true }.log .info "Running" else s

/-- One step of a continuous run. -/
def tick (s : Session) : Session :=
  -- a session that was driven and cannot go on is not driven any more
  if s.active then if s.running then s.step else { s with active := false }
  else s

def pause (s : Session) : Session :=
  if s.active then
    { s with active := false }.log .info ("Paused at cycle " ++ toString s.machine.cycle)
  else s

/-! ### Looking back -/

/-- Jumps to a snapshot. -/
def restore (s : Session) (r : Reference SnapshotId) : Session :=
  match s.history.find? r with
  | none => s.log .error ("Snapshot not found: " ++ r.named SnapshotId.text)
  | some snapshot =>
    let m := snapshot.machine
    -- the index of an entry is its cycle
    let back : Session :=
      { s with machine := m, playback := s.playback.map (·.seek m.cycle.toNat), stop := none, active := false }
    back.refresh.log .info ("Restored to cycle " ++ toString m.cycle)

/-- Compares two snapshots; only a comparison that fails is told. -/
def compare (s : Session) (first second : Reference SnapshotId) : Session :=
  match s.history.compare? first second with
  | some _ => s
  | none =>
    s.log .error
      ("Snapshot comparison failed: " ++ first.named SnapshotId.text ++ ", " ++ second.named SnapshotId.text)

/-! ### Breakpoints -/

/-- The breakpoint that is added next at an address. -/
def newBreakpoint (s : Session) (address : Int) (condition : Option String) : Breakpoint :=
  BreakpointTable.made address condition s.added

def addBreakpoint (s : Session) (address : Int) (condition : Option String) : Session :=
  let new := s.newBreakpoint address condition
  let warned := match new.addWarning? with
    | some message => s.log .warning message
    | none => s
  -- the warning has been said by the time that the identifier turns out not to be writable
  if new.id.isWritable then
    { warned with breakpoints := s.breakpoints.insert new, added := s.added + 1 }.log .info
      ("Breakpoint added: " ++ Hex.address address)
  else warned

def removeBreakpoint (s : Session) (address : Int) : Session :=
  if s.breakpoints.has address then
    { s with breakpoints := s.breakpoints.erase address }.log .info
      ("Breakpoint removed: " ++ Hex.address address)
  else s.log .warning ("No breakpoint at " ++ Hex.address address)

def removeReferred (s : Session) (r : Reference BreakpointId) : Session :=
  let name := r.named BreakpointId.text
  if (s.breakpoints.find? r).isSome then
    { s with breakpoints := s.breakpoints.eraseReferred r }.log .info ("Breakpoint removed: " ++ name)
  else s.log .warning ("Breakpoint not found: " ++ name)

/-- Whether there is a breakpoint at an address, and it is enabled. -/
def isEnabled (s : Session) (address : Int) : Bool := (s.breakpoints.get? address).any (·.enabled)

/-- Enables the breakpoint at an address if it is disabled, and the other way round. -/
def toggleBreakpoint (s : Session) (address : Int) : Session :=
  if s.breakpoints.has address then
    -- what is said is the state that it has come to
    let s : Session := { s with breakpoints := s.breakpoints.toggle address }
    s.log .info ("Breakpoint " ++ Hex.address address ++ if s.isEnabled address then " enabled" else " disabled")
  else s.log .warning ("No breakpoint at " ++ Hex.address address)

def clearBreakpoints (s : Session) : Session :=
  { s with breakpoints := {} }.log .info "All breakpoints cleared"

end Session

end Y86
