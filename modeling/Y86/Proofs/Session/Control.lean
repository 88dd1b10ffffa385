import Y86.Proofs.Session.Coherence

/-!
# How a session is controlled

Whether a session can go on, and whether a clock may drive it, is written by most operations. After any commands both are
functions of two things alone: where the cursor is, and whether the session is stopped at a breakpoint. `Session.Controlled`
spells this out, down to the phase that a session reports, and `Session.Coherent.controlled` proves it of every coherent
session. In a session a hit and the status from before it are one thing; in a controller they are not, and
`Controller.Controlled` says the same of its fields.
-/

namespace Y86

namespace Session

/-- The status that is put back when a breakpoint is left. -/
def remembered? (s : Session) : Option Status := s.stop.map (·.status)

/-- What controls a session follows from its cursor and from a pending breakpoint hit. -/
structure Controlled (s : Session) : Prop where
  /-- Without a trace nothing goes on, and nothing is left of what went on before. -/
  unloaded : s.playback = none →
    s.running = false ∧ s.active = false ∧ s.hit? = none ∧ s.cursor = -1 ∧ s.machine.cycle = 0 ∧
      s.machine.status = .aok ∧ s.history.snapshots = #[]
  /-- With a trace the session can go on unless a hit is pending or the cursor is on the last entry. -/
  running_iff : ∀ p, s.playback = some p →
    (s.running = true ↔ s.hit? = none ∧ s.cursor + 1 < p.trace.length)
  /-- A clock only drives a session that can go on. -/
  active : s.active = true → s.running = true
  /-- So a tick that the clock may take is a step. -/
  tick_eq : s.tick = if s.active then s.step else s
  /-- A status is remembered exactly as long as a hit is pending. -/
  hit_iff : s.hit?.isSome = true ↔ s.remembered?.isSome = true
  /-- While a hit is pending, the machine reports a halt, the status of the entry is remembered, and the hit is where
  the cursor is. -/
  hit : ∀ p hit, s.playback = some p → s.hit? = some hit →
    ∃ e, p.trace.entries[p.cursor]? = some e ∧ s.machine.status = .hlt ∧ s.remembered? = some e.status ∧
      hit.cycle = s.cursor ∧ hit.pc = e.pc
  /-- Without a hit the machine reports the status of the entry. -/
  status : ∀ p, s.playback = some p → s.hit? = none →
    ∃ e, p.trace.entries[p.cursor]? = some e ∧ s.machine.status = e.status
  /-- The session is unloaded exactly without a trace. -/
  phase_unloaded : s.phase = .unloaded ↔ s.playback = none
  /-- The session is paused exactly while a hit is pending. -/
  phase_paused : s.phase = .paused ↔ s.hit?.isSome = true
  /-- Otherwise its phase is read off the cursor. -/
  phase : ∀ p, s.playback = some p → s.hit? = none →
    (s.phase = .loaded ↔ s.cursor = 0) ∧ (s.phase = .halted ↔ s.cursor + 1 = p.trace.length) ∧
      (s.phase = .advancing ↔ 0 < s.cursor ∧ s.cursor + 1 < p.trace.length)

variable {s : Session} {p : Playback}

/-- No hit is pending exactly if the session is not stopped. -/
theorem hit?_eq_none_iff : s.hit? = none ↔ s.stop = none := Option.map_eq_none_iff

/-- A stop keeps a status together with its hit. -/
theorem hit?_isSome_iff (s : Session) : s.hit?.isSome = true ↔ s.remembered?.isSome = true := by
  rw [hit?, remembered?, Option.isSome_map, Option.isSome_map]

theorem cursor_of_playback (hp : s.playback = some p) : s.cursor = p.cursor := by
  unfold cursor
  rw [hp]

/-- The entry at the cursor, with what it shows of the machine. -/
theorem Placed.exists_entry (h : s.Placed p) :
    ∃ e, p.trace.entries[p.cursor]? = some e ∧ p.cursor < p.trace.length ∧ s.own.status = e.status ∧
      s.own.pc = e.pc ∧ s.own.cycle = p.cursor := by
  obtain ⟨e, he, hm⟩ := TraceEntry.exists_of_machineAt? h.machine
  rw [Array.getElem?_toList] at he
  refine ⟨e, he, (Array.getElem?_eq_some_iff.1 he).1, ?_⟩
  rw [hm]
  exact ⟨rfl, rfl, rfl⟩

/-! ### Phases -/

/-- With a trace the phase depends on the stop, and then on the cursor. -/
theorem phase_of_playback (hp : s.playback = some p) :
    s.phase = if s.stop.isSome then .paused
      else if s.running then if s.cursor = 0 then .loaded else .advancing else .halted := by
  unfold phase
  rw [hp]
  rfl

/-- A session is unloaded exactly if it has no trace. -/
theorem phase_unloaded_iff : s.phase = .unloaded ↔ s.playback = none := by
  cases hp : s.playback with
  | none => unfold phase; rw [hp]; exact iff_of_true rfl rfl
  | some p =>
    refine iff_of_false ?_ (Option.some_ne_none p)
    rw [phase_of_playback hp]
    split
    · exact fun e => nomatch e
    · split
      · split <;> exact fun e => nomatch e
      · exact fun e => nomatch e

/-- It is paused exactly if a hit is pending. -/
theorem phase_paused_iff (hp : s.playback = some p) : s.phase = .paused ↔ s.hit?.isSome = true := by
  rw [phase_of_playback hp, hit?, Option.isSome_map]
  split
  case isTrue hstop => exact iff_of_true rfl hstop
  case isFalse hstop =>
    refine iff_of_false ?_ hstop
    split
    · split <;> exact fun e => nomatch e
    · exact fun e => nomatch e

/-- The first entry is not the last one, so the phases exclude each other. -/
theorem Shows.phase_iff (h : s.Shows p) (hp : s.playback = some p) (hhit : s.hit? = none) :
    (s.phase = .loaded ↔ s.cursor = 0) ∧ (s.phase = .halted ↔ s.cursor + 1 = p.trace.length) ∧
      (s.phase = .advancing ↔ 0 < s.cursor ∧ s.cursor + 1 < p.trace.length) := by
  have hstop : s.stop = none := hit?_eq_none_iff.1 hhit
  have htwo := h.wellShaped.two_le
  obtain ⟨_, -, hlt, -⟩ := h.toPlaced.exists_entry
  rw [phase_of_playback hp, cursor_of_playback hp, hstop]
  by_cases hrun : s.running = true
  · -- the session can go on, so its phase depends on whether it has moved
    have hbefore := (h.ready.1 hrun).2
    by_cases hzero : (p.cursor : Int) = 0
    · rw [if_neg (by simp), if_pos hrun, if_pos hzero]
      simp only [reduceCtorEq, true_iff, false_iff]
      omega
    · rw [if_neg (by simp), if_pos hrun, if_neg hzero]
      simp only [reduceCtorEq, true_iff, false_iff]
      omega
  · -- without a stop only the last entry keeps a session from going on
    have hlast : ¬ p.cursor + 1 < p.trace.length := fun hbefore => hrun (h.ready.2 ⟨hstop, hbefore⟩)
    rw [if_neg (by simp), if_neg hrun]
    simp only [reduceCtorEq, true_iff, false_iff]
    omega

/-! ### The control of a coherent session -/

/-- A session that is driven takes a step at each tick. -/
theorem tick_eq_of_active (h : s.active = true → s.running = true) : s.tick = if s.active then s.step else s := by
  unfold tick
  split
  case isTrue hactive => rw [if_pos (h hactive)]
  case isFalse => rfl

/-- Without a trace nothing controls anything. -/
theorem Unloaded.controlled (h : s.Unloaded) (hp : s.playback = none) : s.Controlled := by
  have hhit : s.hit? = none := hit?_eq_none_iff.2 h.stop
  have hactive : s.active = true → s.running = true := fun e => by rw [h.active] at e; cases e
  -- every clause about a trace holds because there is none
  have hno : ∀ p, s.playback ≠ some p := fun p e => by rw [hp] at e; cases e
  have hcursor : s.cursor = -1 := by unfold cursor; rw [hp]
  have hblank : s.machine.cycle = 0 ∧ s.machine.status = .aok := by rw [h.machine]; exact ⟨rfl, rfl⟩
  exact
    { unloaded := fun _ => ⟨h.running, h.active, hhit, hcursor, hblank.1, hblank.2, h.history⟩
      running_iff := fun p e => absurd e (hno p)
      active := hactive
      tick_eq := tick_eq_of_active hactive
      hit_iff := hit?_isSome_iff s
      hit := fun p _ e => absurd e (hno p)
      status := fun p e => absurd e (hno p)
      phase_unloaded := phase_unloaded_iff
      phase_paused := by
        rw [phase_unloaded_iff.2 hp, hhit]
        exact iff_of_false (fun e => nomatch e) (fun e => nomatch e)
      phase := fun p e => absurd e (hno p) }

/-- While a hit is pending, the machine that the trace shows stands behind the stop. -/
theorem Placed.hit (h : s.Placed p) {hit : BreakpointHit} (hhit : s.hit? = some hit) :
    ∃ e, p.trace.entries[p.cursor]? = some e ∧ s.machine.status = .hlt ∧ s.remembered? = some e.status ∧
      hit.cycle = p.cursor ∧ hit.pc = e.pc := by
  obtain ⟨e, he, -, hstatus, hpc, hcycle⟩ := h.exists_entry
  obtain ⟨stop, hstop, rfl⟩ := Option.map_eq_some_iff.1 hhit
  -- but for the status, the machine is the one that the entry shows
  have hown : s.own = { s.machine with status := stop.status } := by unfold own; rw [hstop]
  rw [hown] at hstatus hpc hcycle
  obtain ⟨-, hhlt, hhitCycle, hhitPc⟩ := h.stopped stop hstop
  refine ⟨e, he, hhlt, ?_, hhitCycle.trans hcycle, hhitPc.trans hpc⟩
  rw [remembered?, hstop]
  exact congrArg some hstatus

/-- Without a hit the machine reports the status of the entry. -/
theorem Placed.status (h : s.Placed p) (hhit : s.hit? = none) :
    ∃ e, p.trace.entries[p.cursor]? = some e ∧ s.machine.status = e.status := by
  obtain ⟨e, he, -, hstatus, -⟩ := h.exists_entry
  rw [own_of_stop_none (hit?_eq_none_iff.1 hhit)] at hstatus
  exact ⟨e, he, hstatus⟩

/-- With a trace everything is read off the cursor and the stop. -/
theorem Shows.controlled (h : s.Shows p) (hp : s.playback = some p) : s.Controlled := by
  have hcursor : s.cursor = p.cursor := cursor_of_playback hp
  -- the session shows one trace, so the clauses about a trace are about this one
  have hsame : ∀ {q}, s.playback = some q → q = p := fun e => Option.some.inj (e.symm.trans hp)
  exact
    { unloaded := fun e => by rw [hp] at e; cases e
      running_iff := fun q hq => by
        obtain rfl := hsame hq
        rw [hit?_eq_none_iff, hcursor]
        exact h.ready.trans (and_congr_right fun _ => by omega)
      active := h.active
      tick_eq := tick_eq_of_active h.active
      hit_iff := hit?_isSome_iff s
      hit := fun q hit hq hhit => by
        obtain rfl := hsame hq
        rw [hcursor]
        exact h.toPlaced.hit hhit
      status := fun q hq hhit => by
        obtain rfl := hsame hq
        exact h.toPlaced.status hhit
      phase_unloaded := phase_unloaded_iff
      phase_paused := phase_paused_iff hp
      phase := fun q hq hhit => by
        obtain rfl := hsame hq
        exact h.phase_iff hp hhit }

/-- **Control follows the cursor.** In a coherent session it is determined by the place in the trace and by a stop. -/
theorem Coherent.controlled (h : s.Coherent) : s.Controlled := by
  cases hp : s.playback with
  | none => exact ((coherent_of_none hp).1 h).controlled hp
  | some p => exact ((coherent_of_some hp).1 h).controlled hp

end Session

end Y86
