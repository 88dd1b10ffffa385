import Y86.Session.Basic

/-!
# Controllers

A controller is a session as it is kept while it runs. Nothing in it is joined to anything else: the trace and the index
of the entry that is shown, the breakpoint hit and the status from before it, and the two flags of control are fields of
their own, and an operation writes those that it has to, one after the other.

What belongs together is put together in the view of a controller (`Controller.view`), which is a `Session`: an index is a
place in a trace, and a hit with a status is a stop.
-/

namespace Y86

structure Controller where
  limits : Limits
  machine : Machine
  trace : Option Trace := none
  /-- The index of the entry that is shown; it is -1 without a trace. -/
  index : Int := -1
  /-- Whether a step can move on. -/
  running : Bool := false
  /-- Whether a tick may take a step. -/
  active : Bool := false
  /-- The status that the machine had before a breakpoint gave it the one of a halt. -/
  statusBefore : Option Status := none
  /-- The hit that has stopped the machine, as long as that has not been left. -/
  lastHit : Option BreakpointHit := none
  breakpoints : BreakpointTable := {}
  /-- How many breakpoints have been added so far, those included that are gone. -/
  added : Nat := 0
  history : History := {}
  /-- What has been said since the last reset. -/
  logs : Array LogEntry := #[]

namespace Controller

/-- A controller that has just begun. -/
def start (limits : Limits) : Controller where
  limits := limits
  machine := limits.machine

def log (c : Controller) (level : LogLevel) (message : String) : Controller :=
  { c with logs := c.logs.push { cycle := c.machine.cycle, level, message } }

/-- Whether there is an entry behind the one that is shown. -/
def hasNext (c : Controller) : Bool :=
  match c.trace with
  | none => false
  | some t => c.index < t.length - 1

/-- The entry at an index. -/
def entry? (c : Controller) (index : Int) : Option TraceEntry := do
  let t ← c.trace
  t.entries[index.toNat]?

/-- Lets the controller go on if the machine runs and the trace has an entry left. -/
def refresh (c : Controller) : Controller := { c with running := c.machine.status == .aok && c.hasNext }

/-- What the controller is doing. -/
def phase (c : Controller) : Phase :=
  if c.trace.isNone then .unloaded
  else if c.lastHit.isSome then .paused
  else if c.running then if c.index = 0 then .loaded else .advancing
  else .halted

/-- The place in the trace that is shown. -/
def playback? (c : Controller) : Option Playback := c.trace.map fun trace => { trace, cursor := c.index.toNat }

/-- The stop at a breakpoint: a hit with the status from before it. -/
def stop? (c : Controller) : Option Stop := do
  let hit ← c.lastHit
  let status ← c.statusBefore
  return { hit, status }

/-- The session that a controller keeps. -/
def view (c : Controller) : Session where
  limits := c.limits
  machine := c.machine
  playback := c.playback?
  running := c.running
  active := c.active
  stop := c.stop?
  breakpoints := c.breakpoints
  added := c.added
  history := c.history
  logs := c.logs

end Controller

end Y86
