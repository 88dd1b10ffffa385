import Y86.Proofs.Session.Coherence

/-!
# What a command can do

Loading and resetting begin something new. Of all other commands, the only one that does more than control the session,
change the breakpoint table or say something is a step that shows the next entry (`Session.after_cases`): the rest leave
limits, trace and history as they are (`Session.Aside`).

What a load leaves behind is said in `Session.exists_load`.
-/

namespace Y86

namespace Session

/-- The session `t` has the limits, the trace and the history of `s`. -/
structure Aside (s t : Session) : Prop where
  limits : t.limits = s.limits
  trace : t.trace? = s.trace?
  history : t.history = s.history

variable {s : Session}

theorem Aside.refl (s : Session) : s.Aside s := ⟨rfl, rfl, rfl⟩

theorem aside_resume (s : Session) : s.Aside s.resume := by
  unfold resume
  split
  · exact .refl s
  · exact ⟨rfl, rfl, rfl⟩

theorem aside_run (s : Session) : s.Aside s.run := by
  unfold run
  split
  · exact ⟨rfl, rfl, rfl⟩
  · exact .refl s

theorem aside_pause (s : Session) : s.Aside s.pause := by
  unfold pause
  split
  · exact ⟨rfl, rfl, rfl⟩
  · exact .refl s

/-- A jump moves the place, and the trace stays. -/
theorem aside_restore (s : Session) (r : Reference SnapshotId) : s.Aside (s.restore r) := by
  unfold restore
  split
  · exact ⟨rfl, rfl, rfl⟩
  · refine ⟨rfl, ?_, rfl⟩
    show (s.playback.map _).map _ = s.playback.map _
    rw [Option.map_map]
    rfl

theorem step_cases (s : Session) : s.Aside s.step ∨ ∃ e, s.next? = some e ∧ s.step = s.advance e := by
  unfold step
  cases hnext : s.next? with
  | none => exact Or.inl ⟨rfl, rfl, rfl⟩
  | some e => exact Or.inr ⟨e, rfl, rfl⟩

/-- A command that does not begin anew leaves limits, trace and history alone, or shows the next entry. -/
theorem after_cases (s : Session) {c : Command} (hload : ∀ text, c ≠ .load text) (hreset : c ≠ .reset) :
    s.Aside (s.after c) ∨ ∃ e, s.next? = some e ∧ s.after c = s.advance e := by
  have haside : c.IsAside → s.Aside (s.after c) := by
    intro his
    obtain ⟨breakpoints, added, logs, hafter⟩ := s.exists_after_of_isAside his
    rw [hafter]
    exact ⟨rfl, rfl, rfl⟩
  cases c with
  | load text => exact absurd rfl (hload text)
  | reset => exact absurd rfl hreset
  -- only a step shows anything, and a tick may be one
  | step => exact s.step_cases
  | tick =>
    show s.Aside s.tick ∨ ∃ e, s.next? = some e ∧ s.tick = s.advance e
    unfold tick
    split
    · split
      · exact s.step_cases
      · exact Or.inl ⟨rfl, rfl, rfl⟩
    · exact Or.inl (.refl s)
  | resume => exact Or.inl s.aside_resume
  | run => exact Or.inl s.aside_run
  | pause => exact Or.inl s.aside_pause
  | restore r => exact Or.inl (s.aside_restore r)
  | _ => exact Or.inl (haside trivial)

/-- A text that loads opens its trace at the first entry, and a text that does not leaves the session reset. -/
theorem exists_load (s : Session) (text : String) :
    (∃ e, Program.load s.limits.memory text = .error e ∧
        s.load text = s.reset.log .error ("Program load failed: " ++ e.message)) ∨
      ∃ program first logs, Program.load s.limits.memory text = .ok program ∧
        (Trace.build s.limits.maxSteps program).entries[0]? = some first ∧
        s.load text =
          { (s.reset.opened (.build s.limits.maxSteps program) first).capture first with logs := logs } := by
  unfold load
  dsimp only
  rw [show s.reset.limits = s.limits from rfl]
  cases hload : Program.load s.limits.memory text with
  | error e => exact Or.inl ⟨e, rfl, rfl⟩
  | ok program =>
    -- a trace has a first entry to open
    have htwo := (Trace.wellShaped_build hload rfl s.limits.maxSteps_pos).two_le
    obtain ⟨first, hfirst⟩ : ∃ first, (Trace.build s.limits.maxSteps program).entries[0]? = some first :=
      ⟨_, Array.getElem?_eq_getElem (Nat.lt_of_lt_of_le Nat.two_pos htwo)⟩
    obtain ⟨logs, hopen⟩ := s.reset.exists_openTrace hfirst
    exact Or.inr ⟨program, first, logs, rfl, hfirst, hopen⟩

end Session

end Y86
