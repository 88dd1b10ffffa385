import Mathlib.Logic.Function.Iterate
import Y86.Proofs.Session.Clock

/-!
# Sessions in lockstep

A session is taken on by its own steps, by the ticks of a continuous run, or by the time-outs of a clock; a run may be
interrupted and started again in front of any of its ticks. What is said in the log differs, and whether the session is
driven; all else does not (`Session.core`).

A driven session is in lockstep with one that takes steps if it is that session but for these two, and is driven exactly
as long as that session can go on (`Session.Lockstep`). A tick takes both a step further (`Lockstep.tick`), an
interruption leaves them where they are, and so they are in lockstep after any number of passes
(`Coherent.lockstep_ticked`). A clock has to go as long as it drives its session, beside that (`Clock.Lockstep`).
-/

namespace Y86

namespace Session

/-- The session apart from its log and from whether it is driven. -/
def core (s : Session) : Session := { s with active := false, logs := #[] }

/-- A continuous run is interrupted and started again. -/
def interrupted (s : Session) : Session := s.pause.run

/-- The session after a number of ticks of a continuous run, which is interrupted `breaks i` times in front of tick
`i`. -/
def ticked (breaks : Nat → Nat) (s : Session) : Nat → Session
  | 0 => s.run
  | i + 1 => (interrupted^[breaks i] (ticked breaks s i)).tick

variable {s t : Session}

/-- Steps keep the invariant, however many they are. -/
theorem Coherent.iterate_step (h : s.Coherent) (i : Nat) : (Session.step^[i] s).Coherent := by
  induction i with
  | zero => exact h
  | succ i ih =>
    rw [Function.iterate_succ_apply']
    exact ih.step

/-! ### What a step depends on -/

/-- Whether a session can go on is part of its core. -/
theorem running_of_core (h : t.core = s.core) : t.running = s.running :=
  show t.core.running = s.core.running by rw [h]

theorem next?_of_core (h : t.core = s.core) : t.next? = s.next? :=
  show t.core.next? = s.core.next? by rw [h]

theorem machine_of_core (h : t.core = s.core) : t.machine = s.machine :=
  show t.core.machine = s.core.machine by rw [h]

theorem cursor_of_core (h : t.core = s.core) : t.cursor = s.cursor :=
  show t.core.cursor = s.core.cursor by rw [h]

theorem remaining_of_core (h : t.core = s.core) : t.remaining = s.remaining :=
  show t.core.remaining = s.core.remaining by rw [h]

/-- Being driven is not part of the core, so starting a run does not change it. -/
theorem core_run (s : Session) : s.run.core = s.core := by
  unfold run
  split <;> rfl

/-- Nor does a pause. -/
theorem core_pause (s : Session) : s.pause.core = s.core := by
  unfold pause
  split <;> rfl

/-- Showing an entry depends on the core only. -/
theorem core_arrived (s : Session) (e : TraceEntry) : (s.core.arrived e).core = (s.arrived e).core := by
  obtain ⟨limits, machine, playback⟩ := s
  cases playback <;> rfl

/-- And so does the look at the breakpoint table. -/
theorem core_checked (s : Session) : s.core.checked.core = s.checked.core := by
  show (s.core.stoppedBy (s.breakpoints.stopping? s.machine.pc s.machine.registers)).core = s.checked.core
  unfold checked
  cases s.breakpoints.stopping? s.machine.pc s.machine.registers <;> rfl

/-- So a step does to the core what it does without a clock. -/
theorem core_advance (s : Session) (e : TraceEntry) : (s.advance e).core = (s.arrived e).checked.core := by
  -- beside the move and the check, an advance is said in the log, and may end a run
  obtain ⟨logs, active, hadvance⟩ := s.exists_advance e
  rw [hadvance]
  rfl

/-- What a step does depends neither on the log nor on whether the session is driven. -/
theorem core_step (s : Session) : s.core.step.core = s.step.core := by
  have hnext : s.core.next? = s.next? := rfl
  unfold step
  rw [hnext]
  cases s.next? with
  | none => rfl
  | some e =>
    -- it comes to the same entry with the same table
    calc (s.core.advance e).core
        = (s.core.arrived e).core.checked.core := by rw [core_advance, core_checked]
      _ = (s.arrived e).core.checked.core := by rw [core_arrived]
      _ = (s.advance e).core := by rw [core_advance, core_checked]

/-- A driven session stays so as long as it can go on. -/
theorem active_advance (e : TraceEntry) (hactive : s.active = true) :
    (s.advance e).active = (s.advance e).running := by
  have hchecked : (s.arrived e).checkBreakpoints.active = true := by
    obtain ⟨logs, hcheck⟩ := (s.arrived e).exists_checkBreakpoints
    rw [hcheck, ← hactive, ← (s.arrived_keeps e).2.2.2]
    unfold checked
    cases (s.arrived e).breakpoints.stopping? (s.arrived e).machine.pc (s.arrived e).machine.registers <;> rfl
  rw [advance_eq]
  unfold settle
  split
  case isTrue hrun => rw [hchecked, hrun]
  case isFalse hrun => exact (Bool.eq_false_iff.2 hrun).symm

/-! ### Ticks -/

/-- The session `t` is `s` but for its log, and it is driven as long as it can go on. -/
structure Lockstep (s t : Session) : Prop where
  core : t.core = s.core
  active : t.active = s.running

/-- A session in which a run is started is in lockstep with the session before. -/
theorem lockstep_run (hcore : t.core = s.core) (hactive : t.active = true → t.running = true) : s.Lockstep t.run := by
  refine ⟨t.core_run.trans hcore, ?_⟩
  rw [← running_of_core hcore]
  unfold run
  split
  case isTrue hrun => exact hrun.symm
  case isFalse hrun =>
    rw [Bool.eq_false_iff.2 hrun]
    exact Bool.eq_false_iff.2 fun e => hrun (hactive e)

/-- A session that is interrupted and started again is in lockstep, whatever its flag was. -/
theorem lockstep_interrupted (hcore : t.core = s.core) : s.Lockstep t.interrupted := by
  refine lockstep_run (t.core_pause.trans hcore) fun hactive => ?_
  -- a session that was paused is not driven
  unfold pause at hactive
  split at hactive
  · cases hactive
  · contradiction

/-- A tick takes both a step further. -/
theorem Lockstep.tick (hlock : s.Lockstep t) (h : s.Coherent) : s.step.Lockstep t.tick := by
  have hrunning := running_of_core hlock.core
  rcases h.step_cases with ⟨hrun, -⟩ | ⟨hrun, hsame⟩
  · -- both take the step, and it reads neither the log nor whether they are driven
    rw [hrun] at hrunning
    have hactive : t.active = true := hlock.active.trans hrun
    have htick : t.tick = t.step := by
      unfold Session.tick
      rw [if_pos hactive, if_pos hrunning]
    have hcore : t.step.core = s.step.core := by rw [← core_step, hlock.core, core_step]
    rw [htick]
    refine ⟨hcore, ?_⟩
    rw [← running_of_core hcore]
    unfold Session.step
    cases hnext : t.next? with
    | none =>
      rw [h.running_of_next?_eq_none ((next?_of_core hlock.core).symm.trans hnext)] at hrun
      cases hrun
    | some e => exact active_advance e hactive
  · -- at the end a step does nothing, and a session that is not driven is not ticked
    have htick : t.tick = t := by
      unfold Session.tick
      rw [if_neg]
      rw [hlock.active, hrun]
      exact Bool.false_ne_true
    rw [hsame, htick]
    exact hlock

/-- Interruptions, however many, keep in lockstep. -/
theorem Lockstep.interrupted (hlock : s.Lockstep t) (k : Nat) : s.Lockstep (Session.interrupted^[k] t) := by
  induction k with
  | zero => exact hlock
  | succ k ih =>
    rw [Function.iterate_succ_apply']
    exact lockstep_interrupted ih.core

/-- **Ticks.** With any interruptions between them, ticks are steps. -/
theorem Coherent.lockstep_ticked (h : s.Coherent) (breaks : Nat → Nat) (i : Nat) :
    (Session.step^[i] s).Lockstep (s.ticked breaks i) := by
  induction i with
  | zero => exact lockstep_run rfl h.controlled.active
  | succ i ih =>
    rw [Function.iterate_succ_apply']
    exact (ih.interrupted (breaks i)).tick (h.iterate_step i)

end Session

/-! ### Time-outs -/

namespace Clock

/-- A clock is interrupted and started again. -/
def interrupted (x : Clock × Session) : Clock × Session :=
  let paused := x.1.pause x.2
  paused.1.start paused.2

/-- What the last of a number of time-outs reports, and what it leaves. The clock is interrupted `breaks i` times in
front of time-out `i`. -/
def timedOut (breaks : Nat → Nat) (x : Clock × Session) : Nat → List ClockEvent × Clock × Session
  | 0 => ([], x)
  | i + 1 =>
    let ready := interrupted^[breaks i] (timedOut breaks x i).2
    ready.1.timeout ready.2

variable {c : Clock} {s : Session} {x : Clock × Session}

/-- The session of a clock is in lockstep with `s`, and the clock goes as long as it drives it. -/
structure Lockstep (s : Session) (x : Clock × Session) : Prop extends s.Lockstep x.2 where
  clock : x.1.active = s.running

/-- Starting a clock leaves the core of its session alone. -/
theorem core_start (c : Clock) (s : Session) : (c.start s).2.core = s.core := by
  unfold start
  split
  · rfl
  · exact s.core_run

/-- A clock goes on behind a time-out exactly if its session is driven on. -/
theorem active_timeout (c : Clock) (s : Session) : (c.timeout s).2.1.active = (c.active && s.tick.active) := by
  unfold timeout
  split
  case isTrue hactive =>
    rw [hactive]
    dsimp only
    split
    case isTrue hnext => exact hactive.trans hnext.symm
    case isFalse hnext => exact (Bool.eq_false_iff.2 hnext).symm
  case isFalse hactive =>
    rw [Bool.eq_false_iff.2 hactive]
    exact (Bool.false_and _).symm

/-- A clock at rest, started, is in lockstep with the session before. -/
theorem lockstep_start (h : s.Coherent) (hrest : c.active = false) : Lockstep s (c.start s) := by
  rw [start_of_inactive hrest]
  exact ⟨Session.lockstep_run rfl h.controlled.active, rfl⟩

/-- After an interruption clock and session agree, whatever they were in front of it. -/
theorem lockstep_interrupted (hcore : x.2.core = s.core) : Lockstep s (interrupted x) := by
  have hpaused : x.2.pause.core = s.core := x.2.core_pause.trans hcore
  have hinterrupted : interrupted x = ({ x.1 with active := x.2.pause.running }, x.2.pause.run) :=
    start_of_inactive rfl
  rw [hinterrupted]
  exact ⟨Session.lockstep_interrupted hcore, Session.running_of_core hpaused⟩

theorem Lockstep.interrupted (hlock : Lockstep s x) (k : Nat) : Lockstep s (Clock.interrupted^[k] x) := by
  induction k with
  | zero => exact hlock
  | succ k ih =>
    rw [Function.iterate_succ_apply']
    exact lockstep_interrupted ih.core

/-- A time-out takes a clock and its session a step further. -/
theorem Lockstep.timeout (hlock : Lockstep s x) (h : s.Coherent) : Lockstep s.step (x.1.timeout x.2).2 := by
  have htick := hlock.tick h
  have hsession : (x.1.timeout x.2).2.2 = x.2.tick := by
    by_cases hactive : x.1.active = true
    · exact session_timeout hactive
    · -- a clock at rest does nothing, and neither does a tick
      unfold Clock.timeout Session.tick
      rw [if_neg hactive, if_neg]
      rwa [hlock.active, ← hlock.clock]
  refine ⟨hsession ▸ htick, ?_⟩
  rw [active_timeout, hlock.clock, htick.active]
  rcases h.step_cases with ⟨hrun, -⟩ | ⟨hrun, hsame⟩
  · -- the clock goes on if both are driven, and they are as long as the step was taken
    rw [hrun, Bool.true_and]
  · rw [hsame, hrun, Bool.false_and]

/-- A time-out reports the cycle that it leads to, and that it was the last one. -/
theorem Lockstep.events (hlock : Lockstep s x) (h : s.Coherent) (hrun : s.running = true) :
    (x.1.timeout x.2).1 = .stepped s.step.machine.cycle :: if s.step.running then [] else [.finished] := by
  have htick := hlock.tick h
  unfold Clock.timeout
  rw [if_pos (hlock.clock.trans hrun)]
  dsimp only
  rw [Session.machine_of_core htick.core, htick.active]
  split <;> rfl

/-- **Time-outs.** With any interruptions between them, time-outs are steps. -/
theorem Lockstep.timedOut (hlock : Lockstep s x) (h : s.Coherent) (breaks : Nat → Nat) (i : Nat) :
    Lockstep (Session.step^[i] s) (Clock.timedOut breaks x i).2 := by
  induction i with
  | zero => exact hlock
  | succ i ih =>
    rw [Function.iterate_succ_apply']
    exact (ih.interrupted (breaks i)).timeout (h.iterate_step i)

/-- An interruption of the clock does not show in the core. -/
theorem core_interrupted (x : Clock × Session) (k : Nat) : (interrupted^[k] x).2.core = x.2.core := by
  induction k with
  | zero => rfl
  | succ k ih =>
    rw [Function.iterate_succ_apply']
    exact (lockstep_interrupted rfl).core.trans ih

/-- A clock that is started over a session that can go on drives it, or is interrupted in front of the first time-out.
Only one that goes already may do neither. -/
def Ready (c : Clock) (s : Session) (breaks : Nat → Nat) : Prop :=
  c.active = true → s.running = true → s.active = true ∨ 0 < breaks 0

/-- The first time-out leaves clock and session in lockstep. -/
theorem Ready.lockstep {breaks : Nat → Nat} (hready : c.Ready s breaks) (h : s.Coherent) :
    Lockstep s.step (timedOut breaks (c.start s) 1).2 := by
  by_cases hactive : c.active = true
  · show Lockstep s.step (Clock.timeout (interrupted^[breaks 0] (c.start s)).1 _).2
    rw [start_of_active hactive]
    cases hbreaks : breaks 0 with
    | succ k =>
      -- the interruptions bring the two together
      have hinterrupted : Lockstep s (interrupted^[k + 1] (c, s)) := by
        rw [Function.iterate_succ_apply']
        exact lockstep_interrupted (core_interrupted (c, s) k)
      exact hinterrupted.timeout h
    | zero =>
      rcases h.step_cases with ⟨hrun, -⟩ | ⟨hrun, hsame⟩
      · have hdriven : s.active = true := (hready hactive hrun).resolve_right (by omega)
        have hlock : Lockstep s (c, s) := ⟨⟨rfl, hdriven.trans hrun.symm⟩, hactive.trans hrun.symm⟩
        exact hlock.timeout h
      · -- the session has come to its end, and the clock notices
        have hidle : s.active = false := Bool.eq_false_iff.2 fun e => by
          rw [h.controlled.active e] at hrun
          cases hrun
        have htick : s.tick = s := by
          rw [Session.tick_eq_of_active h.controlled.active, hidle]
          rfl
        have hsession : (c.timeout s).2.2 = s := (session_timeout hactive).trans htick
        rw [hsame]
        refine ⟨⟨congrArg Session.core hsession, ?_⟩, ?_⟩
        · rw [hrun, ← hidle]
          exact congrArg Session.active hsession
        · rw [hrun]
          show (c.timeout s).2.1.active = false
          rw [active_timeout, htick, hidle, Bool.and_false]
  · rw [← Function.iterate_one Session.step]
    exact (lockstep_start h (Bool.eq_false_iff.2 hactive)).timedOut h breaks 1

/-- A clock that is ready is in lockstep from the first time-out on. -/
theorem Ready.timedOut {breaks : Nat → Nat} (hready : c.Ready s breaks) (h : s.Coherent) (i : Nat) :
    Lockstep (Session.step^[i + 1] s) (Clock.timedOut breaks (c.start s) (i + 1)).2 := by
  induction i with
  | zero => exact hready.lockstep h
  | succ i ih =>
    -- from the first on there are interruptions and time-outs, and each keeps the two in lockstep
    rw [Function.iterate_succ_apply']
    exact (ih.interrupted (breaks (i + 1))).timeout (h.iterate_step (i + 1))

end Clock

end Y86
