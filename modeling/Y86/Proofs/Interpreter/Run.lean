import Y86.Proofs.Interpreter.Step
import Y86.Proofs.Machine.Steps
import Y86.Proofs.Trace.Halt

/-!
# Whole runs in both interpreters

A run that ends with a halt is followed by the second interpreter from the first step to the last, if it covers all
instructions of the run (`Interpreter.statesWithin_eq`). The trace of such a run shows what the machine reaches step by step
(`Trace.map_entries_of_stopped`), so both give the same program counters and registers (`Interpreter.run_eq_build`).
-/

namespace Y86

namespace Interpreter

variable {s : Interpreter} {m next : Machine} {op : Operation} {k n : Nat}

/-- What the interpreter tells of a machine. -/
def shown (m : Machine) : Int × List Int := (m.pc, m.registers.toList)

/-! ### A run of the interpreter -/

/-- A larger bound changes nothing for a run that has a result. -/
theorem statesWithin_of_le {states : List (Int × List Int)} (h : statesWithin k s = some states) {j : Nat} (hle : k ≤ j) :
    statesWithin j s = some states := by
  induction k generalizing s states j with
  | zero => cases h
  | succ k ih =>
    obtain ⟨j, rfl⟩ : ∃ i, j = i + 1 := ⟨j - 1, by omega⟩
    rw [statesWithin] at h ⊢
    -- a run that ended within fewer steps has read the same opcodes
    obtain ⟨opcode, hbyte, h⟩ := Option.bind_eq_some_iff.1 h
    refine Option.bind_eq_some_iff.2 ⟨opcode, hbyte, ?_⟩
    split at h
    case isTrue hcode => rwa [if_pos hcode]
    case isFalse hcode =>
      obtain ⟨next, hnext, h⟩ := Option.bind_eq_some_iff.1 h
      obtain ⟨rest, hrest, h⟩ := Option.bind_eq_some_iff.1 h
      rw [if_neg hcode]
      refine Option.bind_eq_some_iff.2 ⟨next, hnext, ?_⟩
      exact Option.bind_eq_some_iff.2 ⟨rest, ih hrest (Nat.le_of_succ_le_succ hle), h⟩

theorem statesWithin_of_halt (h : s.Mirrors m) (hstep : m.step = .ok (op, next)) (hkind : op.kind = .halt) :
    statesWithin (k + 1) s = some [shown m, shown next] := by
  obtain ⟨opcode, hbyte, hcode, hpc, hregisters⟩ := exists_halt h hstep hkind
  rw [statesWithin]
  simp only [hbyte, if_pos hcode, Option.bind_eq_bind, Option.bind_some, shown, hpc, hregisters, ← h.pc, ← h.registers]
  rfl

theorem statesWithin_of_step (h : s.Mirrors m) (hsize : m.memory.size < 2 ^ 62) (hstep : m.step = .ok (op, next))
    (hcovers : Covers m op) (hrunning : op.kind ≠ .halt) :
    ∃ s' : Interpreter, s'.Mirrors next ∧
      ∀ bound, statesWithin (bound + 1) s = (statesWithin bound s').map (shown m :: ·) := by
  obtain ⟨opcode, s', hbyte, hcode, hs', hmirrors⟩ := exists_step h hsize hstep hcovers hrunning
  refine ⟨s', hmirrors, fun bound => ?_⟩
  have hshown : shown m = (s.pc, s.registers) := by rw [shown, h.pc, h.registers]
  rw [statesWithin, hshown]
  simp only [hbyte, hs', if_neg hcode, Option.bind_eq_bind, Option.bind_some]
  cases statesWithin bound s' with
  | none => rfl
  | some states => rfl

/-- **The run lemma.** The interpreter follows the machine up to its halt. -/
theorem statesWithin_eq (h : s.Mirrors m) (hsize : m.memory.size < 2 ^ 62)
    (hsteps : ∀ i < k, ∃ op next, (Machine.stepped^[i] m).step = .ok (op, next) ∧ op.kind ≠ .halt ∧
      Covers (Machine.stepped^[i] m) op)
    (hhalt : ∃ op next, (Machine.stepped^[k] m).step = .ok (op, next) ∧ op.kind = .halt) :
    statesWithin (k + 1) s = some ((List.range (k + 2)).map fun i => shown (Machine.stepped^[i] m)) := by
  induction k generalizing s m with
  | zero =>
    obtain ⟨op, next, hstep, hkind⟩ := hhalt
    rw [statesWithin_of_halt h hstep hkind, ← Machine.stepped_of_step hstep]
    rfl
  | succ k ih =>
    obtain ⟨op, next, hstep, hrunning, hcovers⟩ := hsteps 0 (Nat.succ_pos k)
    obtain ⟨s', hmirrors, hstates⟩ := statesWithin_of_step h hsize hstep hcovers hrunning
    have hnext : m.stepped = next := Machine.stepped_of_step hstep
    have hsize' : next.memory.size < 2 ^ 62 := by
      rw [Machine.size_of_step hstep]
      exact hsize
    -- the steps behind the first one are those of the next machine
    have hshift : ∀ i, Machine.stepped^[i + 1] m = Machine.stepped^[i] next := by
      intro i
      rw [Function.iterate_succ_apply, hnext]
    have hrest := ih hmirrors hsize'
      (fun i hi => by
        have hi := hsteps (i + 1) (Nat.succ_lt_succ hi)
        rwa [hshift] at hi)
      (by rwa [hshift] at hhalt)
    rw [hstates, hrest, List.range_succ_eq_map (n := k + 2), List.map_cons, List.map_map]
    simp only [Option.map_some, Function.comp_def, Nat.succ_eq_add_one, hshift, Function.iterate_zero, id_eq]

/-! ### The start -/

theorem mirrors_start {p : Program} (hsize : p.memory.size < 2 ^ 62) :
    (start p.memory.bytes.data.toList p.entry).Mirrors (.initial p.memory p.entry) where
  pc := rfl
  registers := by
    have hlength : p.memory.bytes.data.toList.length = p.memory.size := rfl
    -- such a size is a word, so the register file keeps it as it is
    have hsigned : Word.signed p.memory.size = p.memory.size := by
      apply Word.signed_of_inRange
      unfold Word.InRange
      omega
    show (List.replicate 15 0).set stackPointer (p.memory.bytes.data.toList.length : Int)
      = (RegisterFile.zeros.set .rsp p.memory.size).toList
    rw [RegisterFile.toList_set, hsigned, hlength]
    rfl
  flags := rfl
  length := rfl
  byte := by
    intro j hj
    have hbytes : j < p.memory.bytes.size := hj
    show p.memory.bytes.data.toList[j]? = some (p.memory.bytes[j]?.getD 0)
    rw [getElem?_pos p.memory.bytes j hbytes, Array.getElem?_toList]
    exact Array.getElem?_eq_getElem hbytes

/-! ### The trace -/

/-- The interpreter covers all instructions that a machine carries out with its next steps. -/
def CoversSteps (m : Machine) (steps : Nat) : Prop :=
  ∀ i < steps, ∀ x ∈ (Machine.stepped^[i] m).step.toOption, Covers (Machine.stepped^[i] m) x.1

instance (m : Machine) (steps : Nat) : Decidable (CoversSteps m steps) :=
  inferInstanceAs (Decidable (∀ i < steps, ∀ x ∈ (Machine.stepped^[i] m).step.toOption, Covers (Machine.stepped^[i] m) x.1))

/-- **Both interpreters agree.** If the trace of a program ends by an executed halt and the second interpreter covers
each instruction that was executed, then its run has a result, and shows the program counters and registers of the
trace, entry by entry. -/
theorem run_eq_build (size : Nat) (hsize : 0 < size) (hsmall : size < 2 ^ 62) (text : String) {p : Program}
    (hload : Program.load (.zeros size hsize) text = .ok p) {n : Nat}
    (hlimit : (Trace.build n p).limitReached = false) (hhalt : (Trace.build n p).finalStatus? = some .hlt)
    (hcovers : CoversSteps (.initial p.memory p.entry) ((Trace.build n p).length - 1)) {bound : Nat} (hbound : n ≤ bound) :
    run bound p.memory.bytes.data.toList p.entry
      = some ((Trace.build n p).entries.toList.map fun e => (e.pc, e.registers)) := by
  have hmemory : p.memory.size < 2 ^ 62 := by
    rw [Program.size_load hload, Memory.size_zeros]
    exact hsmall
  have halted := Trace.status_of_finalStatus? hload rfl hlimit hhalt
  have stopped := Trace.stopped_of_limitReached hlimit
  have hlength : (Trace.build n p).length = Recording.attempts n (.start p) + 1 :=
    Trace.length_of_not_running hload rfl stopped
  -- the machine runs at the start, so there is a step
  obtain ⟨k, hk⟩ : ∃ k, Recording.attempts n (.start p) = k + 1 := by
    refine Nat.exists_eq_succ_of_ne_zero fun hzero => ?_
    rw [Recording.run_eq_iterate, hzero] at halted
    cases halted
  have hstates : statesWithin (k + 1) (start p.memory.bytes.data.toList p.entry)
      = some ((List.range (k + 2)).map fun i => shown (Machine.stepped^[i] (.initial p.memory p.entry))) := by
    refine statesWithin_eq (mirrors_start hmemory) hmemory (fun i hi => ?_) ?_
    · obtain ⟨op, next, hstep, hkind⟩ := Trace.exists_step_of_halted halted (i := i) (by omega)
      exact ⟨op, next, hstep, by rw [Ne, hkind]; omega, hcovers i (by omega) (op, next) (by rw [hstep]; rfl)⟩
    · obtain ⟨op, next, hstep, hkind⟩ := Trace.exists_step_of_halted halted (i := k) (by omega)
      exact ⟨op, next, hstep, hkind.2 hk.symm⟩
  have hle : k + 1 ≤ bound := hk ▸ Nat.le_trans (Recording.attempts_le n _) hbound
  rw [run, statesWithin_of_le hstates hle, Trace.map_entries_of_stopped hload rfl stopped, hk]
  rfl

/-- Two constants, and a function that counts one of them down to zero. -/
theorem run_eq_build_countdown :
    let text := "0x000: 30f00200000000000000\n0x00a: 30f10100000000000000\n0x014: 801e00000000000000\n" ++
      "0x01d: 00\n0x01e: 6110\n0x020: 741e00000000000000\n0x029: 90"
    ∃ p, Program.load (.zeros 56 (by decide)) text = .ok p ∧ (Trace.build 9 p).length = 10 ∧
      (Trace.build 9 p).statistics.counts = [(.irmovq, 2), (.call, 1), (.opq, 2), (.jxx, 2), (.ret, 1), (.halt, 1)] ∧
      run 9 p.memory.bytes.data.toList p.entry
        = some ((Trace.build 9 p).entries.toList.map fun e => (e.pc, e.registers)) := by
  intro text
  have hvalues : ((Program.load (.zeros 56 (by decide)) text).toOption.map fun p =>
      ((Trace.build 9 p).limitReached, (Trace.build 9 p).finalStatus?, (Trace.build 9 p).length,
        decide ((Trace.build 9 p).statistics.counts
            = [(.irmovq, 2), (.call, 1), (.opq, 2), (.jxx, 2), (.ret, 1), (.halt, 1)] ∧
          CoversSteps (.initial p.memory p.entry) ((Trace.build 9 p).length - 1))))
      = some (false, some .hlt, 10, true) := by
    decide +kernel
  -- the trace is computed; that the interpreter gives the same is the theorem
  obtain ⟨p, hp, hvalues⟩ := Option.map_eq_some_iff.1 hvalues
  have hload := eq_ok_of_toOption hp
  simp only [Prod.mk.injEq, decide_eq_true_eq] at hvalues
  obtain ⟨hlimit, hhalt, hlength, hcounts, hcovers⟩ := hvalues
  exact ⟨p, hload, hlength, hcounts, run_eq_build 56 (by decide) (by decide) text hload hlimit hhalt hcovers (Nat.le_refl 9)⟩

end Interpreter

end Y86
