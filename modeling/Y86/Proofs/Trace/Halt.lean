import Y86.Proofs.Machine.Frame
import Y86.Proofs.Trace.Shape

/-!
# Runs that stop by themselves

A trace that the bound has not cut off shows nothing but what the machine reaches step by step
(`Trace.map_entries_of_stopped`). If it ends with a halt, then every step was carried out, and the last one is the halt
(`Trace.exists_step_of_halted`): a step that fails stops the run with a fault.
-/

namespace Y86

namespace Recording

variable {r : Recording}

/-- A step whose end shows a machine that runs or has halted was carried out. -/
theorem exists_step_of_status (hrun : r.machine.status = .aok)
    (h : r.advance.machine.status = .aok ∨ r.advance.machine.status = .hlt) :
    ∃ op next, r.machine.step = .ok (op, next) ∧ (op.kind = .halt ↔ r.advance.machine.status = .hlt) := by
  change (attempt r.machine).1.status = .aok ∨ (attempt r.machine).1.status = .hlt at h
  show ∃ op next, _ ∧ (_ ↔ (attempt r.machine).1.status = .hlt)
  unfold attempt at h ⊢
  cases hstep : r.machine.step with
  | ok x =>
    obtain ⟨op, next⟩ := x
    refine ⟨op, next, rfl, ?_⟩
    show op.kind = .halt ↔ next.status = .hlt
    rw [(Machine.frame_of_step hstep).status, hrun]
    split
    case isTrue hkind => exact iff_of_true hkind rfl
    case isFalse hkind => exact iff_of_false hkind (fun e => nomatch e)
  | error e =>
    rw [hstep] at h
    change e.fault.status?.getD .ins = .aok ∨ e.fault.status?.getD .ins = .hlt at h
    -- a failure leaves one of the two fault statuses
    rcases (Machine.fails_of_step hstep).status with hadr | hins
    · rw [hadr] at h
      rcases h with h | h <;> cases h
    · rw [hins] at h
      rcases h with h | h <;> cases h

end Recording

namespace Trace

variable {p : Program} {n : Nat} {blank : Memory} {text : String}

section Stopped

variable (h : Program.load blank text = .ok p) (hblank : blank.touched = [])
  (stopped : (Recording.run n (.start p)).machine.status ≠ .aok)

include h hblank stopped

/-- The entries of a run that has stopped by itself show what the machine reaches step by step. -/
theorem map_entries_of_stopped :
    ((build n p).entries.toList.map fun e => (e.pc, e.registers))
      = (List.range (Recording.attempts n (.start p) + 1)).map fun i =>
          ((Machine.stepped^[i] (.initial p.memory p.entry)).pc,
            (Machine.stepped^[i] (.initial p.memory p.entry)).registers.toList) := by
  have hlength : (build n p).entries.size = Recording.attempts n (.start p) + 1 := length_of_not_running h hblank stopped
  refine List.ext_getElem? fun i => ?_
  rw [List.getElem?_map, List.getElem?_map]
  -- both lists have as many items, so it is enough to compare them place by place
  by_cases hi : i < Recording.attempts n (.start p) + 1
  · obtain ⟨e, he⟩ : ∃ e, (build n p).entries[i]? = some e := ⟨_, Array.getElem?_eq_getElem (by omega)⟩
    -- an entry shows the machine after as many steps as its index
    obtain ⟨touched, label, rfl⟩ := (recorded_of_getElem? he).shows (Nat.le_of_lt_succ hi)
    have hagrees := Recording.iterate_advance_agrees _ (Recording.start_agrees p) i
    rw [Array.getElem?_toList, he, List.getElem?_range hi, Option.map_some, Option.map_some]
    show some (_, _) = some (_, _)
    rw [← hagrees.pc, ← hagrees.registers]
    rfl
  · rw [List.getElem?_eq_none (by rw [Array.length_toList]; omega),
      List.getElem?_eq_none (by rw [List.length_range]; omega)]
    rfl

end Stopped

/-- In a run that ends with a halt all steps are carried out, and only the last one is the halt. -/
theorem exists_step_of_halted (halted : (Recording.run n (.start p)).machine.status = .hlt) {i : Nat}
    (hi : i < Recording.attempts n (.start p)) :
    ∃ op next, (Machine.stepped^[i] (.initial p.memory p.entry)).step = .ok (op, next) ∧
      (op.kind = .halt ↔ i + 1 = Recording.attempts n (.start p)) := by
  have hrun := Recording.status_of_lt_attempts hi
  have hstatus : (Recording.advance^[i + 1] (.start p)).machine.status
      = if i + 1 = Recording.attempts n (.start p) then .hlt else .aok := by
    split
    case isTrue hlast => rw [hlast, ← Recording.run_eq_iterate, halted]
    case isFalse hmore => exact Recording.status_of_lt_attempts (n := n) (by omega)
  rw [Function.iterate_succ_apply'] at hstatus
  have hends : (Recording.advance^[i] (.start p)).advance.machine.status = .aok ∨
      (Recording.advance^[i] (.start p)).advance.machine.status = .hlt := by
    rw [hstatus]
    split
    · exact Or.inr rfl
    · exact Or.inl rfl
  obtain ⟨op, next, hstep, hkind⟩ := Recording.exists_step_of_status hrun hends
  -- plain execution agrees with the recording in front of the step
  obtain ⟨next', hstep'⟩ := (Recording.iterate_advance_agrees _ (Recording.start_agrees p) i).exists_step hstep
  refine ⟨op, next', hstep', ?_⟩
  rw [hkind, hstatus]
  split
  case isTrue hlast => exact iff_of_true rfl hlast
  case isFalse hmore => exact iff_of_false (fun e => nomatch e) hmore

theorem stopped_of_limitReached (hlimit : (build n p).limitReached = false) :
    (Recording.run n (.start p)).machine.status ≠ .aok := by
  intro running
  rw [limitReached_build_iff.2 running] at hlimit
  cases hlimit

theorem status_of_finalStatus? (h : Program.load blank text = .ok p) (hblank : blank.touched = [])
    (hlimit : (build n p).limitReached = false) {status : Status} (hfinal : (build n p).finalStatus? = some status) :
    (Recording.run n (.start p)).machine.status = status := by
  have stopped := stopped_of_limitReached hlimit
  have hlength : (build n p).entries.size = Recording.attempts n (.start p) + 1 := length_of_not_running h hblank stopped
  obtain ⟨last, hlast, rfl⟩ := Option.map_eq_some_iff.1 hfinal
  rw [Array.back?_eq_getElem?, hlength, Nat.add_sub_cancel] at hlast
  obtain ⟨touched, label, rfl⟩ := (recorded_of_getElem? hlast).shows (Nat.le_refl _)
  rw [Recording.run_eq_iterate]
  rfl

end Trace

end Y86
