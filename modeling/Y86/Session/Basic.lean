import Y86.Breakpoint.Table
import Y86.Session.Limits
import Y86.Session.Log
import Y86.Snapshot.History
import Y86.Trace.Replay

/-!
# Sessions

A session owns a machine, the trace of the program that was loaded last, and a place in that trace. Moving on and
jumping back only move the place: no instruction is carried out a second time, and the machine is what the trace
shows there.

Beside it a session keeps whether it can move on (`running`), whether a clock may make it do so (`active`), the
breakpoint at which it was stopped, the breakpoint table, the history of snapshots, and a log.
-/

namespace Y86

/-- A stop at a breakpoint that the session has not left. The machine has been given the status of a halt; its own
status is kept here. -/
structure Stop where
  hit : BreakpointHit
  /-- The status of the machine apart from the stop. -/
  status : Status
  deriving DecidableEq, Repr

inductive Phase where
  /-- There is no trace. -/
  | unloaded
  /-- The trace is at its first entry and can go on. -/
  | loaded
  /-- The trace is past its first entry and can go on. -/
  | advancing
  /-- The trace cannot go on. -/
  | halted
  /-- The trace was stopped by a breakpoint. -/
  | paused
  deriving DecidableEq, Repr

def Phase.name : Phase → String
  | unloaded => "UNLOADED"
  | loaded => "LOADED"
  | advancing => "ADVANCING"
  | halted => "HALTED"
  | paused => "BREAKPOINT_PAUSED"

structure Session where
  limits : Limits
  machine : Machine
  /-- The trace with its place, once a program is loaded. -/
  playback : Option Playback := none
  /-- Whether a step can move on. -/
  running : Bool := false
  /-- Whether a tick may take a step. -/
  active : Bool := false
  /-- The stop at a breakpoint that has not been left. -/
  stop : Option Stop := none
  breakpoints : BreakpointTable := {}
  /-- How many breakpoints have been added so far, those included that are gone. -/
  added : Nat := 0
  /-- The snapshots of what the trace has shown. -/
  history : History := {}
  /-- What has been said since the session was last reset. -/
  logs : Array LogEntry := #[]

namespace Session

/-- A session that has just begun. -/
def start (limits : Limits) : Session where
  limits := limits
  machine := limits.machine

/-- The index of the entry that is shown; it is -1 without a trace. -/
def cursor (s : Session) : Int :=
  match s.playback with
  | some p => p.cursor
  | none => -1

def trace? (s : Session) : Option Trace := s.playback.map (·.trace)

/-- The number of entries after the one that is shown. -/
def remaining (s : Session) : Nat :=
  match s.playback with
  | some p => p.remaining
  | none => 0

/-- The entry that a step would show. -/
def next? (s : Session) : Option TraceEntry := if s.running then s.playback.bind (·.next?) else none

/-- The last stop, as long as the session has not left it. -/
def hit? (s : Session) : Option BreakpointHit := s.stop.map (·.hit)

/-- The statistics of the loaded program; without one there are none. -/
def statistics (s : Session) : Statistics :=
  match s.playback with
  | some p => p.trace.statistics
  | none => {}

/-- What the session is doing. -/
def phase (s : Session) : Phase :=
  if s.playback.isNone then .unloaded
  else if s.stop.isSome then .paused
  else if s.running then if s.cursor = 0 then .loaded else .advancing
  else .halted

def log (s : Session) (level : LogLevel) (message : String) : Session :=
  { s with logs := s.logs.push { cycle := s.machine.cycle, level, message } }

/-- Lets the session go on if the machine runs and the trace has an entry left. -/
def refresh (s : Session) : Session :=
  { s with running := s.machine.status == .aok && 0 < s.remaining }

end Session

end Y86
