import Y86.Proofs.Machine.Frame
import Y86.Proofs.Machine.Residue
import Y86.Proofs.Trace.Built

/-!
# What each entry was taken down for

An entry of a built trace is the first one, or that of an attempted step, or the one for a machine that the bound on
steps has halted (`Trace.Recorded`); what is proved about the entries of a trace goes by cases on these three. The machine
in front of a step has no record of touched words (`Recording.touched_iterate_advance`), it has counted its steps, and its
program counter is inside memory or right behind it (`Recording.Sound`).

The entry of a step shows whether the step was carried out: it has the text of the instruction then, and no text if the
step has failed (`Recording.nextEntry_of_step`, `Recording.nextEntry_of_failure`).
-/

namespace Y86

namespace TraceEntry

variable {memory : Memory} {touched : List Nat}

/-! ### The words of an entry -/

theorem map_fst_wordsOf (memory : Memory) (touched : List Nat) :
    (wordsOf memory touched).map (·.1) = (Memory.sortWords touched).filter (· < memory.size) := by
  unfold wordsOf
  rw [List.map_map]
  exact List.map_id _

/-- An entry has its words in ascending order, whatever the order of the record was. -/
theorem pairwise_wordsOf (memory : Memory) (touched : List Nat) :
    ((wordsOf memory touched).map (·.1)).Pairwise (· < ·) := by
  rw [map_fst_wordsOf]
  exact (Memory.pairwise_sortWords touched).filter _

theorem mem_wordsOf {w : Nat × Nat} (h : w ∈ wordsOf memory touched) : w.1 ∈ touched ∧ w.1 < memory.size := by
  have hmem : w.1 ∈ (wordsOf memory touched).map (·.1) := List.mem_map_of_mem h
  rwa [map_fst_wordsOf, List.mem_filter, decide_eq_true_eq, Memory.mem_sortWords] at hmem

theorem length_wordsOf_le (memory : Memory) (touched : List Nat) :
    (wordsOf memory touched).length ≤ touched.length := by
  unfold wordsOf
  rw [List.length_map]
  exact Nat.le_trans (List.length_filter_le _ _) (Memory.length_sortWords_le touched)

theorem register?_ofMachine (m : Machine) (touched : List Nat) (label : Option String) (r : Register) :
    (ofMachine m touched label).register? r = some (m.registers.get r) := by
  have hindex : Register.all[(r.index : Nat)]? = some r := Register.ofCode?_index r
  change m.registers.toList[(r.index : Nat)]? = _
  rw [RegisterFile.toList, List.getElem?_map, hindex]
  rfl

end TraceEntry

namespace Recording

/-! ### One step -/

/-- The entry of a step that was carried out has the text of the instruction. -/
theorem nextEntry_of_step {r : Recording} {op : Operation} {next : Machine} (h : r.machine.step = .ok (op, next)) :
    r.nextEntry
      = .ofMachine { next with cycle := r.machine.cycle + 1 } next.memory.touched (some op.text) := by
  unfold nextEntry Recording.next attempt
  rw [h]
  rfl

/-- The entry of a step that has failed has no text. -/
theorem nextEntry_of_failure {r : Recording} {e : Failure} (h : r.machine.step = .error e) :
    r.nextEntry
      = .ofMachine { e.machine with status := e.fault.status?.getD .ins, cycle := r.machine.cycle + 1 }
          e.machine.memory.touched := by
  unfold nextEntry Recording.next attempt
  rw [h]
  rfl

/-- A step records two words at most. -/
theorem length_touched_attempt {m : Machine} (h : m.memory.touched = []) :
    (attempt m).1.memory.touched.length ≤ 2 := by
  rcases attempt_stores m with hsame | ⟨address, value, hquad⟩
  · rw [hsame, h]
    exact Nat.zero_le 2
  · exact Memory.length_touched_writeQuad h hquad

/-- A step does not lead the program counter out of bounds, whether it fails or not. -/
theorem attempt_pc_range {m : Machine} (h : 0 ≤ m.pc ∧ m.pc ≤ m.memory.size) :
    0 ≤ (attempt m).1.pc ∧ (attempt m).1.pc ≤ m.memory.size := by
  unfold attempt
  cases hstep : m.step with
  | ok x =>
    obtain ⟨hdecode, heffect⟩ := Machine.effect_of_step hstep
    exact heffect.pc_range hdecode
  | error e =>
    have hpc : e.machine.pc = m.pc := (Machine.residue_of_step hstep).pc
    dsimp only
    rwa [hpc]

/-! ### The machine in front of a step -/

theorem touched_iterate_advance (p : Program) (k : Nat) :
    (advance^[k] (start p)).machine.memory.touched = [] := by
  cases k with
  | zero => rfl
  | succ k => rw [Function.iterate_succ_apply']; rfl

/-- What is known of a machine with which a recording of `p` has made `k` steps. -/
structure Sound (p : Program) (k : Nat) (m : Machine) : Prop where
  cycle : m.cycle = k
  size_eq : m.memory.size = p.memory.size
  /-- The program counter is inside memory or right behind it. -/
  pc_range : 0 ≤ m.pc ∧ m.pc ≤ p.memory.size

variable {p : Program} {k : Nat}

theorem sound_start (hentry : p.entry < p.memory.size) : Sound p 0 (start p).machine where
  cycle := rfl
  size_eq := rfl
  pc_range := ⟨Int.natCast_nonneg p.entry, Int.ofNat_le.2 (Nat.le_of_lt hentry)⟩

theorem Sound.advance {r : Recording} (h : Sound p k r.machine) (hclear : r.machine.memory.touched = []) :
    Sound p (k + 1) r.advance.machine := by
  have hpc : 0 ≤ r.machine.pc ∧ r.machine.pc ≤ r.machine.memory.size := by
    rw [h.size_eq]
    exact h.pc_range
  have hpc' := attempt_pc_range hpc
  rw [h.size_eq] at hpc'
  exact
    { cycle := congrArg (· + 1) h.cycle
      size_eq := (attempt_tracks hclear).size_eq.trans h.size_eq
      pc_range := hpc' }

/-- What a recording has after any number of attempts is sound. -/
theorem sound_iterate_advance (hentry : p.entry < p.memory.size) (k : Nat) :
    Sound p k (advance^[k] (start p)).machine := by
  induction k with
  | zero => exact sound_start hentry
  | succ k ih =>
    rw [Function.iterate_succ_apply']
    exact ih.advance (touched_iterate_advance p k)

/-! ### The entries of a recording -/

/-- A recording begins with its first entries and goes on with one for each step. -/
theorem getElem?_iterate_advance (r : Recording) {i : Nat} {e : TraceEntry}
    (h : (advance^[k] r).entries[i]? = some e) :
    r.entries[i]? = some e ∨ ∃ j < k, i = r.entries.size + j ∧ e = (advance^[j] r).nextEntry := by
  induction k with
  | zero => exact Or.inl h
  | succ k ih =>
    rw [Function.iterate_succ_apply', entries_advance, Array.getElem?_push, size_iterate_advance] at h
    split at h
    case isTrue hi =>
      -- the entry that the last step has taken down
      exact Or.inr ⟨k, Nat.lt_succ_self k, hi, (Option.some.inj h).symm⟩
    case isFalse =>
      rcases ih h with hfirst | ⟨j, hj, hi, he⟩
      · exact Or.inl hfirst
      · exact Or.inr ⟨j, Nat.lt_succ_of_lt hj, hi, he⟩

end Recording

namespace Trace

/-! ### The entries of a trace -/

/-- What the trace of `p` with the bound `n` has at an index. -/
inductive Recorded (p : Program) (n : Nat) : Nat → TraceEntry → Prop where
  /-- The machine at the start, with the words of the program. -/
  | start : Recorded p n 0 (.ofMachine (Recording.start p).machine p.touched)
  /-- An attempted step. -/
  | step {k : Nat} (attempted : k < Recording.attempts n (.start p)) :
      Recorded p n (k + 1) (Recording.advance^[k] (.start p)).nextEntry
  /-- A machine that the bound has halted. -/
  | halt (running : (Recording.run n (.start p)).machine.status = .aok) :
      Recorded p n (Recording.attempts n (.start p) + 1) (.ofMachine (Recording.run n (.start p)).halted [])

variable {p : Program} {n i : Nat} {e : TraceEntry}

/-- An entry of a trace is the first, one of an attempt, or the one that the bound has forced. -/
theorem recorded_of_getElem? (h : (build n p).entries[i]? = some e) : Recorded p n i e := by
  change (Recording.run n (.start p)).finish.entries[i]? = some e at h
  have hsteps : (Recording.run n (.start p)).entries[i]? = some e → Recorded p n i e := by
    intro hrun
    rw [Recording.run_eq_iterate] at hrun
    rcases Recording.getElem?_iterate_advance _ hrun with hfirst | ⟨j, hj, hi, he⟩
    · -- there is one entry in front of the steps
      obtain ⟨hlt, he⟩ := Array.getElem?_eq_some_iff.1 hfirst
      obtain rfl : i = 0 := Nat.lt_one_iff.1 hlt
      rw [← he]
      exact .start
    · rw [hi, he, Nat.add_comm]
      exact .step hj
  rw [Recording.entries_finish] at h
  split at h
  case isTrue running =>
    rw [Array.getElem?_push] at h
    -- the entry that was forced stands behind those of the steps
    split at h
    case isTrue hi =>
      rw [hi, ← Option.some.inj h, Recording.run_eq_iterate, Recording.size_iterate_advance, Nat.add_comm,
        ← Recording.run_eq_iterate]
      exact .halt running
    case isFalse => exact hsteps h
  case isFalse => exact hsteps h

/-- Behind the first entry there are those of the steps, and then that of a machine that the bound has halted. -/
theorem Recorded.step_or_halt (h : Recorded p n (i + 1) e) :
    i < Recording.attempts n (.start p) ∧ e = (Recording.advance^[i] (.start p)).nextEntry ∨
      i = Recording.attempts n (.start p) ∧ (Recording.run n (.start p)).machine.status = .aok ∧
        e = .ofMachine (Recording.run n (.start p)).halted [] := by
  cases h with
  | step attempted => exact Or.inl ⟨attempted, rfl⟩
  | halt running => exact Or.inr ⟨rfl, running, rfl⟩

/-- Up to the last step, an entry shows the machine in front of the next one. -/
theorem Recorded.shows (h : Recorded p n i e) (hi : i ≤ Recording.attempts n (.start p)) :
    ∃ touched label, e = .ofMachine (Recording.advance^[i] (.start p)).machine touched label := by
  cases h with
  | start => exact ⟨_, _, rfl⟩
  | @step k attempted =>
    rw [Function.iterate_succ_apply']
    exact ⟨_, _, rfl⟩
  | halt running => omega

end Trace

end Y86
