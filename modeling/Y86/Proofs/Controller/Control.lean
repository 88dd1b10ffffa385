import Y86.Proofs.Controller.View
import Y86.Proofs.Session.Control

/-!
# How a controller is controlled

Whether a controller can go on, whether a timer may drive it, which hit it is stopped at and which status it remembers are
fields of their own, and every operation writes several of them. After any commands they are functions of two things alone:
which entry is shown, and whether a hit is pending. `Controller.Controlled` spells this out, down to the phase that is
reported, and `Controller.controlled_afterAll` proves it.

The view of the controller has the same property (`Session.Controlled`), where a hit and its status are one thing; that they
come and go together in the fields as well is `Controller.Paired`.
-/

namespace Y86

namespace Controller

/-- What controls a controller follows from the index of the entry that is shown and from a pending hit. -/
structure Controlled (c : Controller) : Prop where
  /-- Without a trace nothing goes on, and nothing is left of what went on before. -/
  unloaded : c.trace = none →
    c.running = false ∧ c.active = false ∧ c.lastHit = none ∧ c.index = -1 ∧ c.machine.cycle = 0 ∧
      c.machine.status = .aok ∧ c.history.snapshots = #[]
  /-- With a trace the index is one of its entries. -/
  index : ∀ t, c.trace = some t → 0 ≤ c.index ∧ c.index < t.length
  /-- With a trace the controller can go on unless a hit is pending or the last entry is shown. -/
  running_iff : ∀ t, c.trace = some t → (c.running = true ↔ c.lastHit = none ∧ c.index < t.length - 1)
  /-- A timer only drives a controller that can go on. -/
  active : c.active = true → c.running = true
  /-- So a tick that the timer may take is a step. -/
  tick_eq : c.tick = if c.active then (c.step.2.active, c.step.2) else (false, c)
  /-- A status is remembered exactly as long as a hit is pending. -/
  hit_iff : c.lastHit.isSome = true ↔ c.statusBefore.isSome = true
  /-- While a hit is pending, the machine reports a halt, the status of the entry is remembered, and the hit is at that
  entry. -/
  hit : ∀ hit, c.lastHit = some hit →
    ∃ e, c.entry? c.index = some e ∧ c.machine.status = .hlt ∧ c.statusBefore = some e.status ∧
      hit.cycle = c.index ∧ hit.pc = e.pc
  /-- Without a hit the machine reports the status of the entry. -/
  status : ∀ t, c.trace = some t → c.lastHit = none → ∃ e, c.entry? c.index = some e ∧ c.machine.status = e.status
  /-- It is unloaded exactly without a trace. -/
  phase_unloaded : c.phase = .unloaded ↔ c.trace = none
  /-- It is paused exactly while a hit is pending. -/
  phase_paused : c.phase = .paused ↔ c.lastHit.isSome = true
  /-- Otherwise its phase is read off the index. -/
  phase : ∀ t, c.trace = some t → c.lastHit = none →
    (c.phase = .loaded ↔ c.index = 0) ∧ (c.phase = .halted ↔ c.index = t.length - 1) ∧
      (c.phase = .advancing ↔ 0 < c.index ∧ c.index < t.length - 1)

variable {c : Controller} {t : Trace}

/-! ### What the view shows of the fields -/

/-- The cursor of the view is the index, also where there is none. -/
theorem Indexed.cursor_view (h : c.Indexed) : c.view.cursor = c.index := by
  cases ht : c.trace with
  | none =>
    unfold Session.cursor
    rw [playback_view_eq_none_iff.2 ht, h.index_eq ht]
  | some t =>
    rw [Session.cursor_of_playback (s := c.view) (playback?_of_some ht)]
    exact Int.toNat_of_nonneg (h.index_nonneg t ht)

/-- The hit that the view is stopped at is the pending one, as it comes with a status. -/
theorem Paired.hit?_view (h : c.Paired) : c.view.hit? = c.lastHit := by
  unfold Paired at h
  change c.stop?.map (·.hit) = c.lastHit
  unfold stop?
  cases hhit : c.lastHit with
  | none => rfl
  | some hit =>
    rw [hhit] at h
    obtain ⟨status, hstatus⟩ := Option.isSome_iff_exists.1 h.symm
    rw [hstatus]
    rfl

/-- The status that the view remembers is the one from before the hit, as it comes with a hit. -/
theorem Paired.remembered?_view (h : c.Paired) : c.view.remembered? = c.statusBefore := by
  unfold Paired at h
  change c.stop?.map (·.status) = c.statusBefore
  unfold stop?
  cases hstatus : c.statusBefore with
  | none => cases c.lastHit <;> rfl
  | some status =>
    rw [hstatus] at h
    obtain ⟨hit, hhit⟩ := Option.isSome_iff_exists.1 h
    rw [hhit]
    rfl

/-- So the view is in the same phase. -/
theorem Coupled.phase_view (h : c.Coupled) : c.view.phase = c.phase := by
  have hstop : c.view.stop.isSome = c.lastHit.isSome := by
    rw [← h.paired.hit?_view]
    exact Option.isSome_map.symm
  have hplayback : c.view.playback.isNone = c.trace.isNone := Option.isNone_map
  unfold Session.phase phase
  rw [hplayback, hstop, h.indexed.cursor_view]
  rfl

/-- The entry at the place of the view is the one at the index. -/
theorem entry?_of_trace (ht : c.trace = some t) {e : TraceEntry} (he : t.entries[c.index.toNat]? = some e) :
    c.entry? c.index = some e := by
  unfold entry?
  rw [ht]
  exact he

/-! ### Control -/

/-- The branch of a tick for a controller that is driven but cannot go on is never taken. -/
theorem tick_eq_of_active (h : c.active = true → c.running = true) :
    c.tick = if c.active then (c.step.2.active, c.step.2) else (false, c) := by
  unfold tick
  split
  case isTrue hactive => rw [if_pos (h hactive)]
  case isFalse => rfl

/-- What is true of the view is true of the fields. -/
theorem Coupled.controlled (h : c.Coupled) (hview : c.view.Coherent) : c.Controlled := by
  have hc := hview.controlled
  have hhit := h.paired.hit?_view
  have hstatus := h.paired.remembered?_view
  have hcursor := h.indexed.cursor_view
  have hplayback : ∀ t, c.trace = some t → c.view.playback = some { trace := t, cursor := c.index.toNat } :=
    fun t ht => playback?_of_some ht
  have hbound : ∀ t, c.trace = some t → 0 ≤ c.index ∧ c.index < t.length := by
    intro t ht
    have hshows := (Session.coherent_of_some (hplayback t ht)).1 hview
    obtain ⟨_, -, hlt, -⟩ := hshows.toPlaced.exists_entry
    have hnonneg := h.indexed.index_nonneg t ht
    change c.index.toNat < t.length at hlt
    omega
  exact
    { unloaded := fun ht => by
        have hall := hc.unloaded (playback_view_eq_none_iff.2 ht)
        rw [hhit, hcursor] at hall
        exact hall
      index := hbound
      running_iff := fun t ht => by
        have hrun := hc.running_iff _ (hplayback t ht)
        rw [hhit, hcursor] at hrun
        refine hrun.trans (and_congr_right fun _ => ?_)
        change c.index + 1 < (t.length : Int) ↔ _
        omega
      active := hc.active
      tick_eq := tick_eq_of_active hc.active
      hit_iff := by
        have := hc.hit_iff
        rwa [hhit, hstatus] at this
      hit := fun hit hsome => by
        -- a hit is only pending while there is a trace
        cases ht : c.trace with
        | none =>
          have hnone := (hc.unloaded (playback_view_eq_none_iff.2 ht)).2.2.1
          rw [hhit, hsome] at hnone
          cases hnone
        | some t =>
          obtain ⟨e, he, hrest⟩ := hc.hit _ hit (hplayback t ht) (hhit.trans hsome)
          rw [hstatus, hcursor] at hrest
          exact ⟨e, entry?_of_trace ht he, hrest⟩
      status := fun t ht hnone => by
        obtain ⟨e, he, hown⟩ := hc.status _ (hplayback t ht) (hhit.trans hnone)
        exact ⟨e, entry?_of_trace ht he, hown⟩
      phase_unloaded := by
        rw [← h.phase_view, hc.phase_unloaded]
        exact playback_view_eq_none_iff
      phase_paused := by
        rw [← h.phase_view, hc.phase_paused, hhit]
      phase := fun t ht hnone => by
        have hphase := hc.phase _ (hplayback t ht) (hhit.trans hnone)
        rw [h.phase_view, hcursor] at hphase
        refine hphase.imp id (And.imp (fun hlast => hlast.trans ?_) fun hbetween =>
          hbetween.trans (and_congr_right fun _ => ?_))
        · change c.index + 1 = (t.length : Int) ↔ _
          omega
        · change c.index + 1 < (t.length : Int) ↔ _
          omega }

/-- **Control follows the index.** After any commands, carried out or failed and in any order, every field that controls the
controller is determined by which entry is shown and by a pending hit. -/
theorem controlled_afterAll (limits : Limits) (commands : List Command) :
    ((start limits).afterAll commands).Controlled := by
  refine (coupled_afterAll limits commands).controlled ?_
  rw [view_afterAll]
  exact Session.coherent_afterAll limits commands

/-- A controller stopped by a breakpoint at its second entry, before a halt. -/
example :
    let c := (start { memorySize := 64 }).afterAll
      [.load "0x000: 10\n0x001: 00", .addBreakpoint 1 none, .run, .tick]
    c.trace.isSome = true ∧ c.index = 1 ∧ c.lastHit.isSome = true ∧ c.statusBefore = some .aok ∧
      c.machine.status = .hlt ∧ c.running = false ∧ c.active = false ∧ c.phase = .paused := by
  decide +kernel

end Controller

end Y86
