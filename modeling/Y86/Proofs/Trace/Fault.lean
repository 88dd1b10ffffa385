import Y86.Proofs.Trace.Entry

/-!
# Faults in a trace

A step that fails is almost no step: of the machine it leaves all but the stack pointer as it was
(`Machine.residue_of_step`). So a trace that ends with a fault ends with an entry that repeats the one before it, but for
status, cycle and stack pointer (`Trace.repeats_of_fault`): the fault shows in the entry of the step that has failed, and
no other entry has the status of a fault.
-/

namespace Y86

namespace Trace

variable {p : Program} {n i : Nat} {e : TraceEntry}

/-- `last` shows what `before` shows, but for status, cycle and stack pointer, and no instruction. -/
structure RepeatsBefore (before last : TraceEntry) : Prop where
  pc : last.pc = before.pc
  flags : last.flags = before.flags
  label : last.label = none
  words : last.words = []
  /-- All registers but the stack pointer have the same values. -/
  registers : ∀ r, r ≠ .rsp → last.register? r = before.register? r

/-- Only a step that has failed is taken down with the status of a fault. -/
theorem Recorded.failed (h : Recorded p n i e) (hstatus : e.status = .adr ∨ e.status = .ins) :
    ∃ k failure, i = k + 1 ∧ k < Recording.attempts n (.start p) ∧
      (Recording.advance^[k] (.start p)).machine.step = .error failure ∧
      e = (Recording.advance^[k] (.start p)).nextEntry := by
  cases h with
  | start =>
    -- the machine runs at the start
    have hrun : (TraceEntry.ofMachine (Recording.start p).machine p.touched).status = .aok := rfl
    rw [hrun] at hstatus
    rcases hstatus with h | h <;> cases h
  | @step k attempted =>
    refine ⟨k, ?_⟩
    cases hstep : (Recording.advance^[k] (.start p)).machine.step with
    | error failure => exact ⟨failure, rfl, attempted, rfl, rfl⟩
    | ok x =>
      -- a step that was carried out leaves the machine running or halts it
      obtain ⟨op, next⟩ := x
      have hnext : next.status = if op.kind = .halt then .hlt else .aok := by
        rw [(Machine.effect_of_step hstep).2.status, Recording.status_of_lt_attempts attempted]
      rw [Recording.nextEntry_of_step hstep] at hstatus
      change next.status = .adr ∨ next.status = .ins at hstatus
      rw [hnext] at hstatus
      split at hstatus <;> rcases hstatus with h | h <;> cases h
  | halt running =>
    have hhalted : (TraceEntry.ofMachine (Recording.run n (.start p)).halted []).status = .hlt := rfl
    rw [hhalted] at hstatus
    rcases hstatus with h | h <;> cases h

/-- The entry of a failed step repeats the one before it. -/
theorem repeats_of_fault (hlast : (build n p).entries[i]? = some e) (hstatus : e.status = .adr ∨ e.status = .ins) :
    ∃ k before, i = k + 1 ∧ (build n p).entries[k]? = some before ∧ RepeatsBefore before e := by
  obtain ⟨k, failure, rfl, hk, hstep, rfl⟩ := (recorded_of_getElem? hlast).failed hstatus
  -- the entry before shows the machine in front of the step
  have hlt : k + 1 < (build n p).length := (Array.getElem?_eq_some_iff.1 hlast).1
  obtain ⟨before, hbefore⟩ : ∃ before, (build n p).entries[k]? = some before :=
    ⟨_, Array.getElem?_eq_getElem (Nat.lt_of_succ_lt hlt)⟩
  obtain ⟨touched, label, rfl⟩ := (recorded_of_getElem? hbefore).shows (Nat.le_of_lt hk)
  have hresidue := Machine.residue_of_step hstep
  have hclear := Recording.touched_iterate_advance p k
  rw [Recording.nextEntry_of_failure hstep]
  refine ⟨k, _, rfl, hbefore, ?_⟩
  exact
    { pc := hresidue.pc
      flags := hresidue.flags
      label := rfl
      words := by
        change TraceEntry.wordsOf failure.machine.memory failure.machine.memory.touched = []
        rw [hresidue.memory, hclear]
        rfl
      registers := by
        intro r hr
        rw [TraceEntry.register?_ofMachine, TraceEntry.register?_ofMachine]
        exact congrArg some (hresidue.registers r hr) }

end Trace

/-- **A failed step is almost no step.** Of any machine, a step that fails leaves everything but the stack pointer as it
was, and the stack pointer has moved by a word only if a store on the stack or the return address has failed. So a trace
that ends with a fault ends with an entry that repeats the one before it, without an instruction and without words, and
that differs from it in status, cycle and stack pointer at most. -/
theorem failed_step_residue :
    (∀ (m : Machine) (e : Failure), m.step = .error e → m.Residue e.machine) ∧
    ∀ (p : Program) (n : Nat) (last : TraceEntry), (Trace.build n p).entries.back? = some last →
      last.status = .adr ∨ last.status = .ins →
        ∃ i before, i + 2 = (Trace.build n p).length ∧ (Trace.build n p).entries[i]? = some before ∧
          Trace.RepeatsBefore before last := by
  refine ⟨fun m e h => Machine.residue_of_step h, fun p n last hlast hstatus => ?_⟩
  rw [Array.back?_eq_getElem?] at hlast
  obtain ⟨i, before, hi, hbefore, hrepeats⟩ := Trace.repeats_of_fault hlast hstatus
  refine ⟨i, before, ?_, hbefore, hrepeats⟩
  change i + 2 = (Trace.build n p).entries.size
  omega

/-- A call that finds room on the stack for the first bytes of its return address only, and a run that ends with a push
at the very start of memory. -/
theorem failed_step_residue_no_room :
    let m : Machine :=
      { registers := RegisterFile.zeros.set .rsp 28
        memory := (Memory.zeros 24 (by decide)).lay 0 [0x80, 0x09, 0, 0, 0, 0, 0, 0, 0] }
    let text := "0x000: 30 f4 04 00 00 00 00 00 00 00\n0x00a: a0 0f"
    (∃ e, m.step = .error e ∧ e.machine.rsp = 20 ∧ m.Residue e.machine) ∧
    ∃ p last, Program.load (.zeros 32 (by decide)) text = .ok p ∧ (Trace.build 9 p).entries.back? = some last ∧
      last.status = .adr ∧ last.register? .rsp = some (-4) ∧
        ∃ i before, i + 2 = (Trace.build 9 p).length ∧ (Trace.build 9 p).entries[i]? = some before ∧
          Trace.RepeatsBefore before last := by
  intro m text
  constructor
  · -- the call has no room for its return address, and has lowered the stack pointer
    have hattempt : (Recording.attempt m).2.isNone = true ∧ (Recording.attempt m).1.rsp = 20 := by decide +kernel
    unfold Recording.attempt at hattempt
    cases hstep : m.step with
    | ok x => rw [hstep] at hattempt; cases hattempt.1
    | error e =>
      rw [hstep] at hattempt
      exact ⟨e, rfl, hattempt.2, failed_step_residue.1 m e hstep⟩
  · have hvalues : ((Program.load (.zeros 32 (by decide)) text).toOption.bind fun p =>
        (Trace.build 9 p).entries.back?.map fun last => (last.status, last.register? .rsp))
          = some (.adr, some (-4)) := by
      decide +kernel
    obtain ⟨p, hload, hback⟩ := Option.bind_eq_some_iff.1 hvalues
    -- the push fails at an address below zero
    obtain ⟨last, hlast, hpair⟩ := Option.map_eq_some_iff.1 hback
    obtain ⟨hstatus, hrsp⟩ := Prod.mk.inj hpair
    have hload := eq_ok_of_toOption hload
    exact ⟨p, last, hload, hlast, hstatus, hrsp, failed_step_residue.2 p 9 last hlast (Or.inl hstatus)⟩

end Y86
