import Y86.Controller.Command
import Y86.Session.Clock

/-!
# Timers that drive a controller

A timer is whatever can be started, stopped and asked whether it goes, and runs out again and again while it goes
(`Timer.Lawful`). A runner has a timer beside a controller: it starts the timer when the controller answers that it runs,
and stops it when a tick answers that the run is over.

A `Clock` is such a timer (`Clock.timer`).
-/

namespace Y86

/-- What a runner asks of a timer. -/
structure Timer (τ : Type) where
  isActive : τ → Bool
  /-- The time between two time-outs, in milliseconds. -/
  interval : τ → Int
  start : τ → τ
  stop : τ → τ
  /-- The timer once it has run out. -/
  elapse : τ → τ

namespace Timer

variable {τ : Type}

/-- A timer goes from when it is started to when it is stopped, and running out does not stop it. -/
structure Lawful (T : Timer τ) : Prop where
  isActive_start : ∀ t, T.isActive (T.start t) = true
  isActive_stop : ∀ t, T.isActive (T.stop t) = false
  isActive_elapse : ∀ t, T.isActive (T.elapse t) = T.isActive t
  interval_start : ∀ t, T.interval (T.start t) = T.interval t
  interval_stop : ∀ t, T.interval (T.stop t) = T.interval t
  interval_elapse : ∀ t, T.interval (T.elapse t) = T.interval t

end Timer

/-- A controller with a timer that drives it. -/
structure Runner (τ : Type) where
  timer : τ
  controller : Controller

namespace Runner

variable {τ : Type} (T : Timer τ)

/-- Starts a continuous run; the answer is whether it goes. -/
def start (r : Runner τ) : Bool × Runner τ :=
  -- the controller is not asked where the timer goes already
  if T.isActive r.timer then (true, r)
  else
    let (goes, controller) := r.controller.run
    if goes then (true, { timer := T.start r.timer, controller }) else (false, { r with controller })

def pause (r : Runner τ) : Runner τ := { timer := T.stop r.timer, controller := r.controller.pause }

/-- What happens when the timer has run out. -/
def onTimeout (r : Runner τ) : List ClockEvent × Runner τ :=
  let (goes, controller) := r.controller.tick
  -- the cycle is reported whether or not the tick has moved the controller
  let stepped := ClockEvent.stepped controller.machine.cycle
  if goes then ([stepped], { r with controller })
  else ([stepped, .finished], { timer := T.stop r.timer, controller })

/-- A timer that goes runs out once. -/
def timeout (r : Runner τ) : List ClockEvent × Runner τ :=
  if T.isActive r.timer then onTimeout T { r with timer := T.elapse r.timer } else ([], r)

/-- At most a number of time-outs, until the timer has stopped. -/
def timeouts : Nat → Runner τ → List ClockEvent × Runner τ
  | 0, r => ([], r)
  | bound + 1, r =>
    if T.isActive r.timer then
      let (events, r) := timeout T r
      let (later, r) := timeouts bound r
      (events ++ later, r)
    else ([], r)

/-- Time-outs until the timer has stopped. -/
def loop (r : Runner τ) : List ClockEvent × Runner τ := timeouts T (r.controller.view.remaining + 2) r

def after (r : Runner τ) : ClockCommand → Runner τ
  | .start => (r.start T).2
  | .pause => r.pause T
  | .timeout => (r.timeout T).2
  | .session command => { r with controller := r.controller.after command }

def afterAll (r : Runner τ) (ds : List ClockCommand) : Runner τ := ds.foldl (after T) r

end Runner

/-- The timer of which a clock shows all there is. -/
def Clock.timer : Timer Clock where
  isActive := active
  interval := interval
  start c := { c with active := true }
  stop c := { c with active := false }
  elapse := id

end Y86
