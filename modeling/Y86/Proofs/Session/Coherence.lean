import Y86.Proofs.Trace.Built
import Y86.Session.Command

/-!
# The invariant of a session

A session moves a place along a trace and keeps, beside it, a machine, snapshots, two flags of control and a stop at a
breakpoint. `Session.Coherent` says how these fit together, and every command keeps it (`Coherent.after`), so it holds
of every session that commands lead to (`coherent_afterAll`):

* without a trace a session is as it was at the start, its log and its breakpoints apart (`Session.Unloaded`);
* with a trace its machine and all its snapshots are what the trace shows (`Session.Placed`), and the flags of control
  follow from the place and the stop (`Session.Shows`).

A step at a breakpoint writes the status of a halt over that of the machine, after the snapshot was taken. The
invariant is therefore about the machine with its status given back, `Session.own`.
-/

namespace Y86

open Text

/-- A command that neither begins anew, nor moves along the trace, nor controls the moving. -/
def Command.IsAside : Command → Prop
  | .load _ | .reset | .step | .resume | .run | .tick | .pause | .restore _ => False
  | _ => True

namespace Session

/-- The machine with its own status, whether or not the session is stopped at a breakpoint. -/
def own (s : Session) : Machine :=
  match s.stop with
  | some stop => { s.machine with status := stop.status }
  | none => s.machine

/-- Without a trace there is nothing but a blank machine. -/
structure Unloaded (s : Session) : Prop where
  machine : s.machine = s.limits.machine
  running : s.running = false
  active : s.active = false
  stop : s.stop = none
  history : s.history.snapshots = #[]

/-- The session shows the trace at the cursor, and its snapshots are of what the trace shows. -/
structure Placed (s : Session) (p : Playback) : Prop where
  /-- The trace ends with the only entry that does not run. -/
  wellShaped : p.trace.WellShaped
  /-- The machine, apart from a stop, is the one that the trace shows at the cursor. -/
  machine : p.trace.machineAt? s.limits.memory p.cursor = some s.own
  /-- A stop belongs to the cursor, which has left the first entry, and the machine has the status of a halt. -/
  stopped : ∀ stop, s.stop = some stop →
    0 < p.cursor ∧ s.machine.status = .hlt ∧ stop.hit.cycle = s.machine.cycle ∧ stop.hit.pc = s.machine.pc
  /-- A snapshot keeps a machine that the trace shows. -/
  history : ∀ x ∈ s.history.snapshots, ∃ i, p.trace.machineAt? s.limits.memory i = some x.machine

/-- A session can go on if it is not stopped and the trace has an entry left. -/
def Ready (s : Session) (p : Playback) : Prop := s.running = true ↔ s.stop = none ∧ p.cursor + 1 < p.trace.length

/-- The session shows the trace at the cursor, and is controlled by where the cursor is. -/
structure Shows (s : Session) (p : Playback) : Prop extends s.Placed p where
  ready : s.Ready p
  /-- A clock only drives a session that can go on. -/
  active : s.active = true → s.running = true

/-- The invariant of a session. -/
def Coherent (s : Session) : Prop :=
  match s.playback with
  | none => s.Unloaded
  | some p => s.Shows p

/-- Without a trace the invariant is that of a session that has just begun. -/
theorem coherent_of_none {s : Session} (hp : s.playback = none) : s.Coherent ↔ s.Unloaded := by
  unfold Coherent
  rw [hp]

/-- With a trace it is that the session shows the trace at its place. -/
theorem coherent_of_some {s : Session} {p : Playback} (hp : s.playback = some p) : s.Coherent ↔ s.Shows p := by
  unfold Coherent
  rw [hp]

/-! ### What the invariant does not look at -/

variable {s s' : Session} {p : Playback}

/-- The invariant depends on neither the log nor the breakpoint table. -/
theorem coherent_congr (hlimits : s'.limits = s.limits) (hmachine : s'.machine = s.machine)
    (hplayback : s'.playback = s.playback) (hrunning : s'.running = s.running) (hactive : s'.active = s.active)
    (hstop : s'.stop = s.stop) (hhistory : s'.history = s.history) (h : s.Coherent) : s'.Coherent := by
  obtain ⟨limits, machine, playback, running, active, stop, _, _, history, _⟩ := s
  cases s'
  cases hlimits
  cases hmachine
  cases hplayback
  cases hrunning
  cases hactive
  cases hstop
  cases hhistory
  -- the invariant reads only the fields that agree
  cases playback with
  | none => exact ⟨h.machine, h.running, h.active, h.stop, h.history⟩
  | some p => exact ⟨⟨h.wellShaped, h.machine, h.stopped, h.history⟩, h.ready, h.active⟩

/-- Whatever is said, the invariant stays. -/
theorem Coherent.log (h : s.Coherent) (level : LogLevel) (message : String) : (s.log level message).Coherent :=
  coherent_congr (s := s) rfl rfl rfl rfl rfl rfl rfl h

theorem Placed.log (h : s.Placed p) (level : LogLevel) (message : String) : (s.log level message).Placed p :=
  ⟨h.wellShaped, h.machine, h.stopped, h.history⟩

/-! ### Parts of the operations -/

/-- But for its status the machine is the one that is shown. -/
theorem own_eq (s : Session) : s.own = { s.machine with status := s.own.status } := by
  unfold own
  split <;> rfl

/-- A session that is not stopped reports its own status. -/
theorem own_of_stop_none (h : s.stop = none) : s.own = s.machine := by
  unfold own
  rw [h]

/-- Without a stop the session shows just what the trace shows. -/
theorem Placed.machine_of_stop_none (h : s.Placed p) (hstop : s.stop = none) :
    p.trace.machineAt? s.limits.memory p.cursor = some s.machine := by
  have hm := h.machine
  rwa [own_of_stop_none hstop] at hm

/-- The machine of a session that shows a trace has no record of written words. -/
theorem Placed.clear (h : s.Placed p) (hstop : s.stop = none) : s.machine.memory.touched = [] := by
  rw [TraceEntry.memory_of_machineAt? rfl (h.machine_of_stop_none hstop), TraceEntry.touched_layAll]
  rfl

/-- A snapshot is taken of what the trace shows. -/
theorem Placed.capture (h : s.Placed p) (hstop : s.stop = none) (e : TraceEntry) : (s.capture e).Placed p := by
  -- a snapshot is a copy, which only differs in the record of written words
  have hcopy : s.machine.copy = s.machine := by
    unfold Machine.copy
    rw [TraceEntry.clearTouched_eq (h.clear hstop)]
  refine ⟨h.wellShaped, h.machine, h.stopped, fun x hx => ?_⟩
  rcases Array.mem_push.1 hx with hx | rfl
  · exact h.history x hx
  · exact ⟨p.cursor, (h.machine_of_stop_none hstop).trans (congrArg some hcopy.symm)⟩

/-- The machine runs exactly if the trace has an entry left. -/
theorem Placed.status_iff (h : s.Placed p) : s.own.status = .aok ↔ p.cursor + 1 < p.trace.length := by
  obtain ⟨e, he, hm⟩ := TraceEntry.exists_of_machineAt? h.machine
  rw [Array.getElem?_toList] at he
  rw [← h.wellShaped.status_iff _ e he, hm]
  rfl

/-- Whether the session can go on is not part of what it shows. -/
theorem Placed.refresh (h : s.Placed p) : s.refresh.Placed p := ⟨h.wellShaped, h.machine, h.stopped, h.history⟩

/-- The entries left are those behind the cursor. -/
theorem remaining_of_playback (hp : s.playback = some p) : s.remaining = p.trace.length - (p.cursor + 1) := by
  unfold remaining
  rw [hp]
  rfl

/-- A session that is not stopped can go on exactly if the trace has an entry left. -/
theorem Placed.ready_refresh (h : s.Placed p) (hp : s.playback = some p) (hstop : s.stop = none) :
    s.refresh.Ready p := by
  have hstatus := h.status_iff
  rw [own_of_stop_none hstop] at hstatus
  -- that the machine runs and that the trace has an entry left are the same
  have hremaining := remaining_of_playback hp
  change (s.machine.status == .aok && decide (0 < s.remaining)) = true ↔ s.stop = none ∧ _
  rw [Bool.and_eq_true, beq_iff_eq, decide_eq_true_eq, hstatus, hremaining]
  exact ⟨fun h => ⟨hstop, h.1⟩, fun h => ⟨h.2, by omega⟩⟩

/-! ### Moving on -/

/-- Moving on, a session lays the next entry over its machine. -/
theorem moved_eq (hp : s.playback = some p) (e : TraceEntry) :
    s.moved e =
      { s with
        playback := some (p.seek (p.cursor + 1))
        machine := e.replay s.machine.memory (p.cursor + 1 : Nat) } := by
  unfold moved
  rw [hp]

/-- One entry further on, the session shows the machine that the trace shows there. -/
theorem Placed.moved (h : s.Placed p) (hp : s.playback = some p) (hstop : s.stop = none) {e : TraceEntry}
    (he : p.next? = some e) :
    (s.moved e).playback = some (p.seek (p.cursor + 1)) ∧ (s.moved e).Placed (p.seek (p.cursor + 1)) := by
  rw [moved_eq hp]
  refine ⟨rfl, h.wellShaped, ?_, fun stop hs => ?_, h.history⟩
  · -- the trace lays the entry over the memory of the entry before it, which the session shows
    have hnext : p.trace.entries.toList[p.cursor + 1]? = some e := by
      rw [Array.getElem?_toList]
      exact he
    refine (TraceEntry.machineAt?_succ rfl (h.machine_of_stop_none hstop) hnext).trans (congrArg some (Eq.symm ?_))
    exact own_of_stop_none (s := { s with machine := e.replay s.machine.memory (p.cursor + 1 : Nat) }) hstop
  · rw [show s.stop = some stop from hs] at hstop
    cases hstop

/-- A session that has shown an entry, before it looks at the breakpoint table. -/
def arrived (s : Session) (e : TraceEntry) : Session :=
  let shown := (s.moved e).capture e
  (shown.log .info ("Cycle " ++ toString shown.machine.cycle ++ ": PC=" ++ Hex.address shown.machine.pc)).refresh

/-- Showing an entry is arriving there, looking at the table, and ending the run if it is over. -/
theorem advance_eq (s : Session) (e : TraceEntry) : s.advance e = (s.arrived e).checkBreakpoints.settle := rfl

/-- Arrived at the next entry, the session shows the trace there and is ready to go on. -/
theorem Placed.arrived (h : s.Placed p) (hp : s.playback = some p) (hstop : s.stop = none) {e : TraceEntry}
    (he : p.next? = some e) :
    (s.arrived e).playback = some (p.seek (p.cursor + 1)) ∧ (s.arrived e).stop = none ∧
      (s.arrived e).Placed (p.seek (p.cursor + 1)) ∧ (s.arrived e).Ready (p.seek (p.cursor + 1)) := by
  obtain ⟨hplayback, hplaced⟩ := h.moved hp hstop he
  have hnone : (s.moved e).stop = none := by
    rw [moved_eq hp]
    exact hstop
  have hshown := (hplaced.capture hnone e).log .info
    ("Cycle " ++ toString (s.moved e).machine.cycle ++ ": PC=" ++ Hex.address (s.moved e).machine.pc)
  exact ⟨hplayback, hnone, hshown.refresh, hshown.ready_refresh hplayback hnone⟩

/-! ### Stopping -/

/-- The session stopped at a breakpoint. -/
def stoppedAt (s : Session) (b : Breakpoint) : Session :=
  { s with
    breakpoints := s.breakpoints.insert b.counted
    stop := some { hit := { breakpoint := b.counted, cycle := s.machine.cycle, pc := s.machine.pc },
                   status := s.machine.status }
    machine := { s.machine with status := .hlt }
    running := false }

/-- The session stopped at a breakpoint, if there is one. -/
def stoppedBy (s : Session) : Option Breakpoint → Session
  | some b => s.stoppedAt b
  | none => s

/-- The session stopped at the breakpoint that it has come to, if there is one. -/
def checked (s : Session) : Session := s.stoppedBy (s.breakpoints.stopping? s.machine.pc s.machine.registers)

/-- Looking at the table stops the session or not; what is said does not matter. -/
theorem exists_checkBreakpoints (s : Session) : ∃ logs, s.checkBreakpoints = { s.checked with logs := logs } := by
  unfold checkBreakpoints BreakpointTable.check checked
  dsimp only
  -- a warning may be said in front of the check, and one behind a stop
  cases s.breakpoints.checkWarning? s.machine.pc <;> dsimp only [Session.log] <;>
    cases s.breakpoints.stopping? s.machine.pc s.machine.registers <;> exact ⟨_, rfl⟩

/-- A stop is at an entry behind the first. -/
theorem Placed.stoppedAt (h : s.Placed p) (hstop : s.stop = none) (hpos : 0 < p.cursor) (b : Breakpoint) :
    (s.stoppedAt b).Placed p := by
  refine ⟨h.wellShaped, ?_, fun stop hs => ?_, h.history⟩
  · -- a stop keeps the status that it writes over
    exact h.machine_of_stop_none hstop
  · cases hs
    exact ⟨hpos, rfl, rfl, rfl⟩

/-- The session is stopped or not, and it can go on if it is not. -/
theorem Placed.checkBreakpoints (h : s.Placed p) (hready : s.Ready p) (hstop : s.stop = none) (hpos : 0 < p.cursor) :
    s.checkBreakpoints.Placed p ∧ s.checkBreakpoints.Ready p := by
  obtain ⟨logs, hcheck⟩ := s.exists_checkBreakpoints
  rw [hcheck]
  unfold checked
  cases s.breakpoints.stopping? s.machine.pc s.machine.registers with
  | none => exact ⟨⟨h.wellShaped, h.machine, h.stopped, h.history⟩, hready⟩
  | some b =>
    have hb := h.stoppedAt hstop hpos b
    exact ⟨⟨hb.wellShaped, hb.machine, hb.stopped, hb.history⟩, ⟨fun e => (nomatch e), fun e => (nomatch e.1)⟩⟩

/-- A continuous run ends when the session cannot go on. -/
theorem Placed.settle (h : s.Placed p) (hready : s.Ready p) : s.settle.Shows p := by
  unfold Session.settle
  split
  case isTrue hrun => exact ⟨h, hready, fun _ => hrun⟩
  case isFalse => exact ⟨⟨h.wellShaped, h.machine, h.stopped, h.history⟩, hready, fun e => (nomatch e)⟩

/-! ### Moving on, leaving a breakpoint and jumping back -/

/-- A stop does not move the place. -/
theorem playback_checkBreakpoints (s : Session) : s.checkBreakpoints.playback = s.playback := by
  obtain ⟨logs, hcheck⟩ := s.exists_checkBreakpoints
  rw [hcheck]
  unfold checked
  cases s.breakpoints.stopping? s.machine.pc s.machine.registers <;> rfl

theorem playback_settle (s : Session) : s.settle.playback = s.playback := by
  unfold settle
  split <;> rfl

/-- Showing the next entry, the session shows the trace one entry further on. -/
theorem Shows.advance (h : s.Shows p) (hp : s.playback = some p) (hstop : s.stop = none) {e : TraceEntry}
    (he : p.next? = some e) :
    (s.advance e).playback = some (p.seek (p.cursor + 1)) ∧ (s.advance e).Shows (p.seek (p.cursor + 1)) := by
  obtain ⟨hplayback, hnone, hplaced, hready⟩ := h.toPlaced.arrived hp hstop he
  obtain ⟨hchecked, hgoes⟩ := hplaced.checkBreakpoints hready hnone (Nat.succ_pos _)
  rw [advance_eq, playback_settle, playback_checkBreakpoints]
  exact ⟨hplayback, hchecked.settle hgoes⟩

/-- An entry that a step shows is the next one of the trace. -/
theorem exists_next_of_next? {e : TraceEntry} (he : s.next? = some e) :
    ∃ p, s.playback = some p ∧ p.next? = some e := by
  unfold Session.next? at he
  split at he
  · exact Option.bind_eq_some_iff.1 he
  · cases he

/-- A session that shows the next entry is not stopped. -/
theorem Coherent.exists_of_next? (h : s.Coherent) {e : TraceEntry} (he : s.next? = some e) :
    ∃ p, s.playback = some p ∧ s.Shows p ∧ s.stop = none ∧ p.next? = some e := by
  obtain ⟨p, hp, hnext⟩ := exists_next_of_next? he
  have hs := (coherent_of_some hp).1 h
  refine ⟨p, hp, hs, ?_, hnext⟩
  unfold Session.next? at he
  split at he
  case isTrue hrun => exact (hs.ready.1 hrun).1
  case isFalse => cases he

/-- Without an entry to show the session was not running. -/
theorem Coherent.running_of_next?_eq_none (h : s.Coherent) (hnext : s.next? = none) : s.running = false := by
  cases hp : s.playback with
  | none => exact ((coherent_of_none hp).1 h).running
  | some p =>
    -- a session that can go on has an entry ahead
    by_contra hrun
    rw [Bool.not_eq_false] at hrun
    have hlt := (((coherent_of_some hp).1 h).ready.1 hrun).2
    unfold Session.next? Playback.next? at hnext
    rw [if_pos hrun, hp] at hnext
    exact absurd (Array.getElem?_eq_none_iff.1 hnext) (Nat.not_le.2 hlt)

/-- A step shows the next entry, or there was none to show. -/
theorem Coherent.step (h : s.Coherent) : s.step.Coherent := by
  unfold Session.step
  cases hnext : s.next? with
  | none =>
    -- the session was not running, so it has not changed
    exact coherent_congr (s := s) rfl rfl rfl (h.running_of_next?_eq_none hnext).symm rfl rfl rfl h
  | some e =>
    obtain ⟨p, hp, hs, hstop, he⟩ := h.exists_of_next? hnext
    obtain ⟨hplayback, hshows⟩ := hs.advance hp hstop he
    exact (coherent_of_some hplayback).2 hshows

/-- A session that is stopped has a trace, and nothing drives it. -/
theorem Coherent.exists_of_stop (h : s.Coherent) {stop : Stop} (hstop : s.stop = some stop) :
    ∃ p, s.playback = some p ∧ s.Shows p ∧ s.active = false := by
  cases hp : s.playback with
  | none =>
    rw [((coherent_of_none hp).1 h).stop] at hstop
    cases hstop
  | some p =>
    have hs := (coherent_of_some hp).1 h
    -- a clock that drives the session would make it run, and a stop forbids that
    refine ⟨p, rfl, hs, Bool.eq_false_iff.2 fun hactive => ?_⟩
    have hnone := (hs.ready.1 (hs.active hactive)).1
    rw [hstop] at hnone
    cases hnone

/-- The session as `resume` leaves a stop, before it says so. -/
def left (s : Session) (stop : Stop) : Session :=
  ({ s with machine := { s.machine with status := stop.status }, stop := none } : Session).refresh

/-- Leaving a stop, a session shows the trace where it did, and can go on. -/
theorem Shows.left (h : s.Shows p) (hp : s.playback = some p) {stop : Stop} (hstop : s.stop = some stop)
    (hactive : s.active = false) : (s.left stop).Shows p := by
  -- the machine with its status given back is what the trace shows
  have hm := h.machine
  unfold own at hm
  rw [hstop] at hm
  have hplaced : Placed { s with machine := { s.machine with status := stop.status }, stop := none } p :=
    ⟨h.wellShaped, hm, fun _ e => (nomatch e), h.history⟩
  refine ⟨hplaced.refresh, hplaced.ready_refresh hp rfl, fun e => ?_⟩
  rw [show (s.left stop).active = s.active from rfl, hactive] at e
  cases e

/-- A stop is left at the place where it was made. -/
theorem Coherent.resume (h : s.Coherent) : s.resume.Coherent := by
  unfold Session.resume
  cases hstop : s.stop with
  | none => exact h
  | some stop =>
    obtain ⟨p, hp, hs, hactive⟩ := h.exists_of_stop hstop
    have hleft : (s.left stop).Coherent := (coherent_of_some (s := s.left stop) hp).2 (hs.left hp hstop hactive)
    exact hleft.log _ _

/-- A clock may drive a session that can go on, and need not. -/
theorem Coherent.setActive (h : s.Coherent) {active : Bool} (hactive : active = true → s.running = true) :
    Session.Coherent { s with active } := by
  cases hp : s.playback with
  | none =>
    have hu := (coherent_of_none hp).1 h
    -- an unloaded session is not running, so it cannot be made active
    have hoff : active = false := by
      rw [hu.running] at hactive
      exact Bool.eq_false_iff.2 fun e => nomatch hactive e
    exact (coherent_of_none (s := { s with playback := none, active }) rfl).2
      ⟨hu.machine, hu.running, hoff, hu.stop, hu.history⟩
  | some p =>
    have hs := (coherent_of_some hp).1 h
    exact (coherent_of_some (s := { s with playback := some p, active }) rfl).2
      ⟨⟨hs.wellShaped, hs.machine, hs.stopped, hs.history⟩, hs.ready, hactive⟩

theorem Coherent.inactive (h : s.Coherent) : Session.Coherent { s with active := false } :=
  h.setActive fun e => nomatch e

/-- A run is only started where the session can go on. -/
theorem Coherent.run (h : s.Coherent) : s.run.Coherent := by
  unfold Session.run
  split
  case isTrue hrun => exact (h.setActive fun _ => hrun).log _ _
  case isFalse => exact h

/-- A tick is a step, or ends the run. -/
theorem Coherent.tick (h : s.Coherent) : s.tick.Coherent := by
  unfold Session.tick
  split
  · split
    · exact h.step
    · exact h.inactive
  · exact h

theorem Coherent.pause (h : s.Coherent) : s.pause.Coherent := by
  unfold Session.pause
  split
  · exact h.inactive.log _ _
  · exact h

/-- A snapshot is of a cycle of the trace, so jumping to it lands where the trace shows it. -/
theorem Coherent.restore (h : s.Coherent) (r : Reference SnapshotId) : (s.restore r).Coherent := by
  unfold Session.restore
  cases hfind : s.history.find? r with
  | none => exact h.log _ _
  | some x =>
    have hx : x ∈ s.history.snapshots := Array.mem_of_find?_eq_some hfind
    refine Coherent.log ?_ _ _
    cases hp : s.playback with
    | none =>
      -- there are no snapshots without a trace
      rw [((coherent_of_none hp).1 h).history] at hx
      cases Array.not_mem_empty _ hx
    | some p =>
      have hs := (coherent_of_some hp).1 h
      -- the cycle of a snapshot is the index at which the trace shows it
      obtain ⟨i, hi⟩ := hs.history x hx
      have hcycle : x.machine.cycle.toNat = i := by
        rw [Trace.cycle_of_machineAt? hi]
        rfl
      have hback : Placed
          { s with machine := x.machine, playback := some (p.seek i), stop := none, active := false } (p.seek i) :=
        ⟨hs.wellShaped, hi, fun _ e => (nomatch e), hs.history⟩
      rw [hcycle]
      exact (coherent_of_some rfl).2 ⟨hback.refresh, hback.ready_refresh rfl rfl, fun e => (nomatch e)⟩

/-! ### Loading -/

/-- A session begins without a trace. -/
theorem unloaded_start (limits : Limits) : (start limits).Unloaded := ⟨rfl, rfl, rfl, rfl, rfl⟩

/-- A reset leaves nothing of the trace behind. -/
theorem unloaded_reset (s : Session) : s.reset.Unloaded := ⟨rfl, rfl, rfl, rfl, rfl⟩

theorem coherent_start (limits : Limits) : (start limits).Coherent :=
  (coherent_of_none rfl).2 (unloaded_start limits)

theorem Coherent.reset (s : Session) : s.reset.Coherent := (coherent_of_none rfl).2 s.unloaded_reset

/-- The session showing the first entry of a trace, before it takes a snapshot. -/
def opened (s : Session) (t : Trace) (first : TraceEntry) : Session :=
  ({ s with playback := some { trace := t }, machine := first.replay s.machine.memory 0 } : Session).refresh

/-- Opening a trace shows its first entry and takes a snapshot; what is said does not matter. -/
theorem exists_openTrace (s : Session) {t : Trace} {first : TraceEntry} (hfirst : t.entries[0]? = some first) :
    ∃ logs, s.openTrace t = { (s.opened t first).capture first with logs := logs } := by
  unfold openTrace
  rw [hfirst]
  dsimp only
  split <;> exact ⟨_, rfl⟩

/-- A trace is opened at its first entry, laid over the blank memory. -/
theorem Unloaded.openTrace (h : s.Unloaded) {t : Trace} (ht : t.WellShaped) :
    (s.openTrace t).playback = some { trace := t } ∧ (s.openTrace t).limits = s.limits ∧
      (s.openTrace t).Shows { trace := t } := by
  obtain ⟨first, hfirst⟩ : ∃ first, t.entries[0]? = some first :=
    ⟨_, Array.getElem?_eq_getElem (Nat.lt_of_lt_of_le Nat.two_pos ht.two_le)⟩
  obtain ⟨logs, hopen⟩ := s.exists_openTrace hfirst
  -- the first entry is laid over zeros, as in a session that was just reset
  have hmachine : t.machineAt? s.limits.memory 0 = some (first.replay s.machine.memory 0) := by
    unfold Trace.machineAt? TraceEntry.machineAt?
    rw [Array.getElem?_toList, hfirst, h.machine]
    rfl
  have hplaced : (s.opened t first).Placed { trace := t } := by
    refine ⟨ht, ?_, fun stop hs => ?_, fun x hx => ?_⟩
    · rw [own_of_stop_none (s := s.opened t first) h.stop]
      exact hmachine
    · rw [show (s.opened t first).stop = s.stop from rfl, h.stop] at hs
      cases hs
    · rw [show (s.opened t first).history = s.history from rfl, h.history] at hx
      cases Array.not_mem_empty _ hx
  have hready : (s.opened t first).Ready { trace := t } :=
    Placed.ready_refresh (s := { s with playback := some _, machine := _ })
      ⟨ht, hplaced.machine, hplaced.stopped, hplaced.history⟩ rfl h.stop
  have hcaptured := hplaced.capture h.stop first
  rw [hopen]
  exact ⟨rfl, rfl, ⟨hcaptured.wellShaped, hcaptured.machine, hcaptured.stopped, hcaptured.history⟩, hready,
    fun e => absurd (h.active.symm.trans e) Bool.false_ne_true⟩

/-- A text that loads gives a trace that is well shaped, and the session shows its first entry. -/
theorem Coherent.load (s : Session) (text : String) : (s.load text).Coherent := by
  unfold Session.load
  dsimp only
  split
  case h_1 => exact Coherent.log (Coherent.reset s) _ _
  case h_2 p hload =>
    have ht : (Trace.build s.limits.maxSteps p).WellShaped :=
      Trace.wellShaped_build hload rfl s.limits.maxSteps_pos
    obtain ⟨hplayback, -, hshows⟩ := s.unloaded_reset.openTrace ht
    exact (coherent_of_some hplayback).2 hshows

/-! ### Commands -/

/-- Such a command changes the breakpoint table and says something, at most. -/
theorem exists_after_of_isAside (s : Session) {c : Command} (h : c.IsAside) :
    ∃ breakpoints added logs, s.after c = { s with breakpoints, added, logs } := by
  -- a request may find nothing or be refused, but whatever it answers only these three fields change
  cases c with
  | compare first second =>
    change ∃ _ _ _, s.compare first second = _
    unfold compare
    split <;> exact ⟨_, _, _, rfl⟩
  | exportHistory format => exact ⟨_, _, _, rfl⟩
  | addBreakpoint address condition =>
    change ∃ _ _ _, s.addBreakpoint address condition = _
    unfold addBreakpoint
    dsimp only
    split <;> split <;> exact ⟨_, _, _, rfl⟩
  | removeBreakpoint address =>
    change ∃ _ _ _, s.removeBreakpoint address = _
    unfold removeBreakpoint
    split <;> exact ⟨_, _, _, rfl⟩
  | removeReferred r =>
    change ∃ _ _ _, s.removeReferred r = _
    unfold removeReferred
    dsimp only
    split <;> exact ⟨_, _, _, rfl⟩
  | toggleBreakpoint address =>
    change ∃ _ _ _, s.toggleBreakpoint address = _
    unfold toggleBreakpoint
    dsimp only
    split <;> exact ⟨_, _, _, rfl⟩
  | clearBreakpoints => exact ⟨_, _, _, rfl⟩
  | disassemble start length => exact ⟨_, _, _, rfl⟩
  | _ => exact h.elim

/-- What is only said or done to the breakpoint table has no part in the invariant. -/
theorem Coherent.aside (h : s.Coherent) (breakpoints : BreakpointTable) (added : Nat) (logs : Array LogEntry) :
    Session.Coherent { s with breakpoints, added, logs } :=
  coherent_congr (s := s) rfl rfl rfl rfl rfl rfl rfl h

/-- Every command keeps the invariant. -/
theorem Coherent.after (h : s.Coherent) (c : Command) : (s.after c).Coherent := by
  -- what is done to the tables and the log does not bear on the invariant
  have haside : c.IsAside → (s.after c).Coherent := by
    intro his
    obtain ⟨breakpoints, added, logs, hafter⟩ := s.exists_after_of_isAside his
    rw [hafter]
    exact h.aside breakpoints added logs
  cases c with
  | load text => exact Coherent.load s text
  | reset => exact Coherent.reset s
  | step => exact h.step
  | resume => exact h.resume
  | run => exact h.run
  | tick => exact h.tick
  | pause => exact h.pause
  | restore r => exact h.restore r
  | _ => exact haside trivial

/-- What every command keeps holds after a sequence of them. -/
theorem afterAll_induction {motive : Session → Prop} (hafter : ∀ s c, motive s → motive (s.after c)) (h : motive s)
    (cs : List Command) : motive (s.afterAll cs) := by
  unfold afterAll
  induction cs generalizing s with
  | nil => exact h
  | cons c cs ih => exact ih (hafter s c h)

/-- **The invariant holds of every session that commands lead to**, whether the commands are carried out or fail. -/
theorem coherent_afterAll (limits : Limits) (cs : List Command) : ((start limits).afterAll cs).Coherent :=
  afterAll_induction (fun _ c h => h.after c) (coherent_start limits) cs

end Session

end Y86
