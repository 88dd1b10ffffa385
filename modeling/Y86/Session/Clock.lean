import Y86.Session.Command

/-!
# The clock of a session

A clock drives a continuous run: each time it runs out, the session takes a tick, and the clock goes on as long as the
session does. When it tells the session to run or to pause, it does so by the session's own commands; a session that
is stopped by other means is noticed at the next time-out.
-/

namespace Y86

structure Clock where
  /-- The time between two time-outs, in milliseconds. -/
  interval : Int := 100
  /-- Whether the clock goes. -/
  active : Bool := false
  deriving DecidableEq, Repr

inductive ClockEvent where
  /-- A tick was taken, and this is the cycle after it. -/
  | stepped (cycle : Int)
  /-- The clock has stopped because the session has. -/
  | finished
  deriving DecidableEq, Repr

inductive ClockCommand where
  | start
  | pause
  /-- Run out once. -/
  | timeout
  /-- Leave the clock alone and give the session a command. -/
  | session (command : Command)
  deriving DecidableEq, Repr

namespace Clock

/-- Starts a continuous run; a clock that goes already is left alone. The answer is whether the clock goes. -/
def start (c : Clock) (s : Session) : Clock × Session :=
  -- the session is not asked where the clock goes already
  if c.active then (c, s) else ({ c with active := s.running }, s.run)

def pause (c : Clock) (s : Session) : Clock × Session := ({ c with active := false }, s.pause)

/-- What happens when the time is up; nothing, if the clock does not go. -/
def timeout (c : Clock) (s : Session) : List ClockEvent × Clock × Session :=
  if c.active then
    let next := s.tick
    -- the cycle is reported whether or not the tick has moved the session
    let stepped := ClockEvent.stepped next.machine.cycle
    if next.active then ([stepped], c, next) else ([stepped, .finished], { c with active := false }, next)
  else ([], c, s)

/-- At most a number of time-outs, until the clock has stopped. -/
def timeouts : Nat → Clock → Session → List ClockEvent × Clock × Session
  | 0, c, s => ([], c, s)
  | bound + 1, c, s =>
    if c.active then
      let (events, c, s) := c.timeout s
      let (later, c, s) := timeouts bound c s
      (events ++ later, c, s)
    else ([], c, s)

/-- Time-outs until the clock has stopped. Each of them shows an entry of the trace or is one of the last two. -/
def loop (c : Clock) (s : Session) : List ClockEvent × Clock × Session := timeouts (s.remaining + 2) c s

def after (cs : Clock × Session) : ClockCommand → Clock × Session
  | .start => cs.1.start cs.2
  | .pause => cs.1.pause cs.2
  | .timeout => (cs.1.timeout cs.2).2
  | .session command => (cs.1, cs.2.after command)

end Clock

end Y86
