import Y86.Controller.Runner
import Y86.Proofs.Controller.View
import Y86.Proofs.Session.Clock

/-!
# Any timer is a clock

A runner asks of its timer only whether it goes, and only starts and stops it. So for a lawful timer, of whatever kind, a
runner is a clock beside a session: its view (`Runner.view`) does with every command what they do (`Runner.Driven.after`),
each time-out reports the same, and a start is given the same answer. What is said of clocks is therefore said of all lawful
timers, `Runner.start_truthful_iff` being the case of the answers to a start.
-/

namespace Y86

/-- A clock is a timer like any other. -/
theorem Clock.lawful_timer : Clock.timer.Lawful :=
  ⟨fun _ => rfl, fun _ => rfl, fun _ => rfl, fun _ => rfl, fun _ => rfl, fun _ => rfl⟩

namespace Runner

variable {τ : Type} {T : Timer τ} {r : Runner τ}

/-- What there is to see of the timer. -/
def clock (T : Timer τ) (r : Runner τ) : Clock where
  interval := T.interval r.timer
  active := T.isActive r.timer

/-- The clock and the session that a runner keeps. -/
def view (T : Timer τ) (r : Runner τ) : Clock × Session := (r.clock T, r.controller.view)

/-- The fields of the controller belong together, and its view is coherent. -/
structure Driven (r : Runner τ) : Prop where
  coupled : r.controller.Coupled
  coherent : r.controller.view.Coherent

/-- A runner begins with a controller that has just begun. -/
theorem driven_start (t : τ) (limits : Limits) : Driven { timer := t, controller := .start limits } :=
  ⟨Controller.coupled_start limits, Session.coherent_start limits⟩

/-! ### Operations -/

/-- A timer that was started shows a clock that goes. -/
theorem clock_start (hT : T.Lawful) (t : τ) (c : Controller) :
    clock T { timer := T.start t, controller := c } = { interval := T.interval t, active := true } := by
  unfold clock
  rw [hT.interval_start, hT.isActive_start]

/-- A timer that was stopped shows a clock at rest. -/
theorem clock_stop (hT : T.Lawful) (t : τ) (c : Controller) :
    clock T { timer := T.stop t, controller := c } = { interval := T.interval t, active := false } := by
  unfold clock
  rw [hT.interval_stop, hT.isActive_stop]

/-- A timer that runs out looks as it did. -/
theorem clock_elapse (hT : T.Lawful) (t : τ) (c : Controller) :
    clock T { timer := T.elapse t, controller := c } = { interval := T.interval t, active := T.isActive t } := by
  unfold clock
  rw [hT.interval_elapse, hT.isActive_elapse]

/-- A timer that goes answers yes at once. -/
theorem start_of_active (h : T.isActive r.timer = true) : r.start T = (true, r) := if_pos h

/-- A timer at rest is started if the controller answers that it runs. -/
theorem start_of_inactive (h : T.isActive r.timer = false) :
    r.start T =
      (r.controller.running,
        { timer := if r.controller.running then T.start r.timer else r.timer, controller := r.controller.run.2 }) := by
  unfold start Controller.run
  rw [h]
  cases r.controller.running <;> rfl

/-- A start is a start of the clock, and the answer is whether that goes. -/
theorem view_start (hT : T.Lawful) (r : Runner τ) :
    (r.start T).2.view T = (r.clock T).start r.controller.view ∧
      (r.start T).1 = ((r.clock T).start r.controller.view).1.active := by
  cases hactive : T.isActive r.timer with
  | true =>
    rw [start_of_active hactive, Clock.start_of_active (c := r.clock T) hactive]
    exact ⟨rfl, hactive.symm⟩
  | false =>
    rw [start_of_inactive hactive, Clock.start_of_inactive (c := r.clock T) hactive, ← r.controller.view_run]
    refine ⟨Prod.ext ?_ rfl, rfl⟩
    -- the timer is started exactly if the controller answers that it runs
    change clock T { timer := if r.controller.running then _ else _, controller := _ } =
      { interval := T.interval r.timer, active := r.controller.running }
    cases r.controller.running with
    | true => exact clock_start hT r.timer _
    | false => exact congrArg (Clock.mk (T.interval r.timer)) hactive

/-- A pause stops the timer and pauses the controller, as one of the clock does. -/
theorem view_pause (hT : T.Lawful) (r : Runner τ) : (r.pause T).view T = (r.clock T).pause r.controller.view := by
  unfold pause Clock.pause view
  rw [clock_stop hT, r.controller.view_pause]
  rfl

/-- A timer that goes runs out with a tick, and goes on as long as the tick leaves the controller driven. -/
theorem timeout_of_active (h : r.Driven) (hactive : T.isActive r.timer = true) :
    r.timeout T =
      if r.controller.tick.2.active then
        ([.stepped r.controller.tick.2.machine.cycle],
          { timer := T.elapse r.timer, controller := r.controller.tick.2 })
      else
        ([.stepped r.controller.tick.2.machine.cycle, .finished],
          { timer := T.stop (T.elapse r.timer), controller := r.controller.tick.2 }) := by
  have hone := h.coupled.simulates h.coherent .tick
  have hview : r.controller.tick.2.view = r.controller.view.tick := hone.view
  -- a tick answers whether the session is driven on
  have hgoes : r.controller.tick.1 = r.controller.tick.2.active := by
    have hreply : Reply.flag r.controller.tick.1 = Reply.flag r.controller.view.tick.active := hone.reply
    rw [← hview] at hreply
    exact Reply.flag.inj hreply
  unfold timeout onTimeout
  rw [if_pos hactive, ← hgoes]

/-- What happens at a time-out happens at one of the clock, and the same is reported. -/
theorem view_timeout (hT : T.Lawful) (h : r.Driven) :
    (r.timeout T).1 = ((r.clock T).timeout r.controller.view).1 ∧
      (r.timeout T).2.view T = ((r.clock T).timeout r.controller.view).2 := by
  have hview : r.controller.tick.2.view = r.controller.view.tick := h.coupled.indexed.view_tick
  unfold Clock.timeout
  by_cases hactive : T.isActive r.timer = true
  · rw [timeout_of_active h hactive, if_pos (show (r.clock T).active = true from hactive), ← hview]
    change _ = Prod.fst (if r.controller.tick.2.active then _ else _) ∧
      _ = Prod.snd (if r.controller.tick.2.active then _ else _)
    -- the timer goes on, or the session has stopped and the timer is stopped with it
    split
    · exact ⟨rfl, Prod.ext (clock_elapse hT r.timer _) rfl⟩
    · refine ⟨rfl, Prod.ext ?_ rfl⟩
      exact (clock_stop hT (T.elapse r.timer) _).trans (congrArg (Clock.mk · false) (hT.interval_elapse r.timer))
  · rw [if_neg (show ¬(r.clock T).active = true from hactive)]
    unfold timeout
    rw [if_neg hactive]
    exact ⟨rfl, rfl⟩

/-! ### Commands -/

/-- **One command.** A runner does with it what its clock and its session do. -/
theorem Driven.after (hT : T.Lawful) (h : r.Driven) (d : ClockCommand) :
    (r.after T d).view T = Clock.after (r.view T) d ∧ (r.after T d).Driven := by
  -- what the clock does to the session are commands of the session
  have hcommand : ∀ command, (r.controller.after command).Coupled ∧ (r.controller.after command).view.Coherent := by
    intro command
    have hone := h.coupled.simulates h.coherent command
    refine ⟨hone.coupled, ?_⟩
    rw [hone.view]
    exact h.coherent.after command
  have hrun := hcommand .run
  have hpause := hcommand .pause
  have htick := hcommand .tick
  cases d with
  | start =>
    refine ⟨(view_start hT r).1, ?_⟩
    change (r.start T).2.Driven
    cases hactive : T.isActive r.timer with
    | true =>
      rw [start_of_active hactive]
      exact h
    | false =>
      rw [start_of_inactive hactive]
      exact ⟨hrun.1, hrun.2⟩
  | pause => exact ⟨view_pause hT r, hpause.1, hpause.2⟩
  | timeout =>
    refine ⟨(view_timeout hT h).2, ?_⟩
    change (r.timeout T).2.Driven
    by_cases hactive : T.isActive r.timer = true
    · rw [timeout_of_active h hactive]
      split <;> exact ⟨htick.1, htick.2⟩
    · unfold timeout
      rw [if_neg hactive]
      exact h
  | session command =>
    refine ⟨?_, (hcommand command).1, (hcommand command).2⟩
    exact Prod.ext rfl (h.coupled.simulates h.coherent command).view

/-- **Any commands.** -/
theorem Driven.afterAll (hT : T.Lawful) (h : r.Driven) (ds : List ClockCommand) :
    (r.afterAll T ds).view T = Clock.afterAll (r.view T) ds ∧ (r.afterAll T ds).Driven := by
  unfold Runner.afterAll Clock.afterAll
  induction ds generalizing r with
  | nil => exact ⟨rfl, h⟩
  | cons d ds ih =>
    obtain ⟨hview, hdriven⟩ := h.after hT d
    have hlater := ih hdriven
    rw [hview] at hlater
    exact hlater

/-- Time-outs until the timer has stopped are those until the clock has, and the same is reported. -/
theorem view_timeouts (hT : T.Lawful) (h : r.Driven) (bound : Nat) :
    (r.timeouts T bound).1 = (Clock.timeouts bound (r.clock T) r.controller.view).1 ∧
      (r.timeouts T bound).2.view T = (Clock.timeouts bound (r.clock T) r.controller.view).2 := by
  induction bound generalizing r with
  | zero => exact ⟨rfl, rfl⟩
  | succ bound ih =>
    have hone := view_timeout hT h
    obtain ⟨hevents, hlast⟩ := ih (h.after hT .timeout).2
    -- what is left goes on from the clock and the session behind the first time-out
    have hclock : (r.after T .timeout).clock T = ((r.clock T).timeout r.controller.view).2.1 :=
      congrArg Prod.fst hone.2
    have hsession : (r.after T .timeout).controller.view = ((r.clock T).timeout r.controller.view).2.2 :=
      congrArg Prod.snd hone.2
    rw [hclock, hsession] at hevents hlast
    unfold timeouts Clock.timeouts
    change Prod.fst (if T.isActive r.timer then _ else _) = Prod.fst (if T.isActive r.timer then _ else _) ∧
      view T (Prod.snd (if T.isActive r.timer then _ else _)) = Prod.snd (if T.isActive r.timer then _ else _)
    split
    · exact ⟨congrArg₂ (· ++ ·) hone.1 hevents, hlast⟩
    · exact ⟨rfl, rfl⟩

/-- The bound on the number of time-outs is read off the view, so it is the same. -/
theorem view_loop (hT : T.Lawful) (h : r.Driven) :
    (r.loop T).1 = ((r.clock T).loop r.controller.view).1 ∧
      (r.loop T).2.view T = ((r.clock T).loop r.controller.view).2 := view_timeouts hT h _

/-- **The answer to a start**, whatever the timer is. However commands to a runner at rest and to its controller are
interleaved, the answer is true exactly if the timer does not go, or the controller is still driven. -/
theorem start_truthful_iff (hT : T.Lawful) (limits : Limits) (t : τ) (ds : List ClockCommand) :
    let r : Runner τ := afterAll T { timer := t, controller := .start limits } ds
    (r.start T).1 = ((r.clock T).start r.controller.view).1.active ∧
      ((r.clock T).StartTruthful r.controller.view ↔ (T.isActive r.timer = true → r.controller.active = true)) := by
  intro r
  exact ⟨(view_start hT r).2, Clock.startTruthful_iff_synced ((driven_start t limits).afterAll hT ds).2.coherent⟩

end Runner

end Y86
