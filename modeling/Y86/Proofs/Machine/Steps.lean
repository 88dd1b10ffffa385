import Y86.Proofs.Machine.Fault
import Y86.Proofs.Machine.Step

/-!
# Steps in a row

`m.Steps k n` says that `k` steps in a row are carried out, of any instructions, and lead from `m` to `n`. What each
step keeps, all of them keep (`Machine.Steps.induction`), as memory keeps its size.

A step is carried out if something can be decoded and no address that it needs is out of bounds
(`Machine.exists_step_of_not_blocked`). This is the way to know that a step succeeds without going through the checks of
its instruction.
-/

namespace Y86

namespace Machine

/-- `k` steps in a row are carried out and lead from one machine to the other. -/
inductive Steps : Machine → Nat → Machine → Prop where
  | refl (m : Machine) : m.Steps 0 m
  | cons {m next n : Machine} {op : Operation} {k : Nat} (step : m.step = .ok (op, next)) (rest : next.Steps k n) :
      m.Steps (k + 1) n

variable {m next n : Machine} {op : Operation} {k j : Nat}

theorem stepped_of_step (h : m.step = .ok (op, next)) : m.stepped = next := by
  unfold stepped
  rw [h]

/-- A step is carried out if it has the class of what it carries out. -/
theorem exists_step_of_kind (m : Machine) (kind : InstructionClass) (h : (m.step.toOption.map fun x => x.1.kind) = some kind) :
    ∃ op, m.step = .ok (op, m.stepped) ∧ op.kind = kind := by
  obtain ⟨⟨op, next⟩, hx, hkind⟩ := Option.map_eq_some_iff.1 h
  have hstep := eq_ok_of_toOption hx
  rw [stepped_of_step hstep]
  exact ⟨op, hstep, hkind⟩

namespace Steps

theorem single (h : m.step = .ok (op, next)) : m.Steps 1 next := .cons h (.refl next)

theorem trans (h : m.Steps k next) (h' : next.Steps j n) : m.Steps (k + j) n := by
  induction h with
  | refl m => simpa using h'
  | @cons m next _ op k step rest ih =>
    rw [Nat.succ_add]
    exact .cons step (ih h')

/-- What a step preserves, a run of any length preserves. -/
theorem induction {P : Machine → Prop} (hstep : ∀ m op next, m.step = .ok (op, next) → P m → P next)
    (h : m.Steps k n) (hm : P m) : P n := by
  induction h with
  | refl m => exact hm
  | @cons m next _ op k step rest ih => exact ih (hstep m op next step hm)

end Steps

theorem size_of_step (h : m.step = .ok (op, next)) : next.memory.size = m.memory.size := by
  rcases (effect_of_step h).2.stores with hsame | ⟨address, value, hstored⟩
  · rw [hsame]
  · exact (Memory.stored_of_writeQuad hstored).size_eq

theorem Steps.size_eq (h : m.Steps k n) : n.memory.size = m.memory.size := by
  refine h.induction (P := fun n => n.memory.size = m.memory.size) ?_ rfl
  intro a op b hstep ha
  rw [size_of_step hstep, ha]

/-- What can be decoded is carried out, unless an address is out of bounds. -/
theorem exists_step_of_not_blocked (hdecode : Operation.decode m.memory m.pc = .ok op) (h : ¬m.Blocked op) :
    ∃ next, m.step = .ok (op, next) ∧ m.Effect op next := by
  cases hstep : m.step with
  | ok x =>
    obtain ⟨op', next⟩ := x
    obtain ⟨hdecode', heffect⟩ := effect_of_step hstep
    obtain rfl : op' = op := Except.ok.inj (hdecode'.symm.trans hdecode)
    exact ⟨next, rfl, heffect⟩
  | error e =>
    -- of the three ways to fail, only a blocked operation is left
    cases fails_of_step hstep with
    | fetch outside _ =>
      obtain ⟨hpos, hlt, -⟩ := Operation.room_of_decode hdecode
      exact absurd ⟨hpos, hlt⟩ outside
    | decode undecoded =>
      rw [hdecode] at undecoded
      cases undecoded
    | execute decoded stops =>
      obtain rfl := Except.ok.inj (decoded.symm.trans hdecode)
      exact absurd stops.2.blocked h

end Machine

end Y86
