import Y86.Proofs.Machine.Effect

/-!
# What a failed step leaves behind

A step that fails leaves the machine as it was, but for the stack pointer, and the stack pointer moves in two cases only:
a push or a call has lowered it before the store fails (`Machine.PushFails`), and a return has raised it before the
return address turns out to be outside memory (`Machine.ReturnFails`). `Machine.residue_of_step` is the main statement.

Both cases are stated on the machine before the step. For a machine whose next operation is known they are conditions on
that operation (`pushFails_iff`, `returnFails_iff`), since decoding gives one operation at most.
-/

namespace Y86

namespace Machine

/-- The next instruction is a push, or a call of an address inside memory, and there is no room on the stack. -/
def PushFails (m : Machine) : Prop :=
  ∃ op, Operation.decode m.memory m.pc = .ok op ∧ (op.kind = .pushq ∨ op.kind = .call ∧ op.valC < m.memory.size) ∧
    ¬m.memory.HasQuad (Word.signed (m.rsp - 8))

/-- The next instruction is a return, and there is a return address on the stack, which is outside memory. -/
def ReturnFails (m : Machine) : Prop :=
  ∃ op target, Operation.decode m.memory m.pc = .ok op ∧ op.kind = .ret ∧ m.memory.readQuad m.rsp = .ok target ∧
    m.memory.size ≤ target

/-- `left` is what a failed step leaves of `m`. -/
structure Residue (m left : Machine) : Prop where
  pc : left.pc = m.pc
  status : left.status = m.status
  flags : left.flags = m.flags
  cycle : left.cycle = m.cycle
  /-- Memory is as it was, and so is the record of touched words. -/
  memory : left.memory = m.memory
  registers : ∀ r, r ≠ .rsp → left.registers.get r = m.registers.get r
  /-- A store on the stack that fails leaves the stack pointer lowered. -/
  rsp_push : m.PushFails → left.rsp = Word.signed (m.rsp - 8)
  /-- A return to outside memory leaves the stack pointer raised. -/
  rsp_ret : m.ReturnFails → left.rsp = Word.signed (m.rsp + 8)
  /-- In all other cases the stack pointer has not moved. -/
  rsp_other : ¬m.PushFails → ¬m.ReturnFails → left.rsp = m.rsp

variable {m : Machine} {op : Operation}

/-! ### The two cases, for a known operation -/

theorem pushFails_iff (h : Operation.decode m.memory m.pc = .ok op) :
    m.PushFails ↔ (op.kind = .pushq ∨ op.kind = .call ∧ op.valC < m.memory.size) ∧
      ¬m.memory.HasQuad (Word.signed (m.rsp - 8)) := by
  constructor
  · rintro ⟨op', hdecode, hfails⟩
    obtain rfl : op' = op := Except.ok.inj (hdecode.symm.trans h)
    exact hfails
  · intro hfails
    exact ⟨op, h, hfails⟩

theorem returnFails_iff (h : Operation.decode m.memory m.pc = .ok op) :
    m.ReturnFails ↔ op.kind = .ret ∧ ∃ target, m.memory.readQuad m.rsp = .ok target ∧ m.memory.size ≤ target := by
  constructor
  · rintro ⟨op', target, hdecode, kind, hpopped, houtside⟩
    obtain rfl : op' = op := Except.ok.inj (hdecode.symm.trans h)
    exact ⟨kind, target, hpopped, houtside⟩
  · rintro ⟨kind, target, hpopped, houtside⟩
    exact ⟨op, target, h, kind, hpopped, houtside⟩

theorem not_fails_of_undecoded {fault : Fault} (h : Operation.decode m.memory m.pc = .error fault) :
    ¬m.PushFails ∧ ¬m.ReturnFails := by
  constructor
  · rintro ⟨op, hdecode, -⟩
    rw [h] at hdecode
    cases hdecode
  · rintro ⟨op, target, hdecode, -⟩
    rw [h] at hdecode
    cases hdecode

/-! ### What is left -/

/-- Nothing has changed, and neither case arises. -/
theorem Residue.same (hpush : ¬m.PushFails) (hret : ¬m.ReturnFails) : m.Residue m where
  pc := rfl
  status := rfl
  flags := rfl
  cycle := rfl
  memory := rfl
  registers := fun _ _ => rfl
  rsp_push := fun h => absurd h hpush
  rsp_ret := fun h => absurd h hret
  rsp_other := fun _ _ => rfl

/-- The stack pointer has moved, and the two cases say how far. -/
theorem Residue.moved {distance : Int} (hpush : m.PushFails → distance = -8) (hret : m.ReturnFails → distance = 8)
    (hfails : m.PushFails ∨ m.ReturnFails) : m.Residue (m.moveStack distance) where
  pc := rfl
  status := rfl
  flags := rfl
  cycle := rfl
  memory := rfl
  registers := fun _ hr => get_moveStack_of_ne hr m distance
  rsp_push := fun h => by rw [hpush h, rsp_lowered]
  rsp_ret := fun h => by rw [hret h, rsp_moveStack]
  rsp_other := fun hpush' hret' => absurd hfails (not_or.2 ⟨hpush', hret'⟩)

/-- What stops an instruction part of the way leaves no more than a moved stack pointer. -/
theorem Stops.residue {left : Machine} (h : m.Stops op left) (hdecode : Operation.decode m.memory m.pc = .ok op) :
    m.Residue left := by
  have hpush := pushFails_iff hdecode
  have hret := returnFails_iff hdecode
  cases h with
  | target kind outside =>
    -- a call whose destination is outside has not touched the stack yet
    refine .same (fun h => ?_) (fun h => ?_)
    · obtain ⟨hkind | ⟨-, hinside⟩, -⟩ := hpush.1 h
      · simp [hkind] at kind
      · omega
    · simp [(hret.1 h).1] at kind
  | operand kind rB noRoom =>
    refine .same (fun h => ?_) (fun h => ?_)
    · obtain ⟨hkind | ⟨hkind, -⟩, -⟩ := hpush.1 h <;> simp [hkind] at kind
    · simp [(hret.1 h).1] at kind
  | push kind noRoom =>
    rw [rsp_lowered] at noRoom
    refine .moved (fun _ => rfl) (fun h => ?_) (Or.inl (hpush.2 ⟨kind, noRoom⟩))
    simp [(hret.1 h).1] at kind
  | pop kind noRoom =>
    refine .same (fun h => ?_) (fun h => ?_)
    · obtain ⟨hkind | ⟨hkind, -⟩, -⟩ := hpush.1 h <;> simp [hkind] at kind
    · -- there is no return address on the stack
      obtain ⟨-, target, hpopped, -⟩ := hret.1 h
      exact noRoom (Memory.readQuad_eq_ok_iff.1 hpopped).1
  | ret kind popped outside =>
    refine .moved (fun h => ?_) (fun _ => rfl) (Or.inr (hret.2 ⟨kind, _, popped, outside⟩))
    obtain ⟨hkind | ⟨hkind, -⟩, -⟩ := hpush.1 h <;> simp [hkind] at kind

/-- A failed step leaves everything but the stack pointer as it was. -/
theorem residue_of_step {e : Failure} (h : m.step = .error e) : m.Residue e.machine := by
  cases fails_of_step h with
  | fetch outside status =>
    obtain ⟨fault, hfault, -⟩ := Operation.decode_of_not_inside outside
    obtain ⟨hpush, hret⟩ := not_fails_of_undecoded hfault
    exact .same hpush hret
  | decode undecoded =>
    obtain ⟨hpush, hret⟩ := not_fails_of_undecoded undecoded
    exact .same hpush hret
  | execute decoded stops => exact stops.2.residue decoded

end Machine

end Y86
