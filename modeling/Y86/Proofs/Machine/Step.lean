import Y86.Proofs.Machine.Outcome

/-!
# What a step depends on

Machines that agree take the same step, and agree again afterwards, also if the step fails (`Machine.step_alike`). So
the machine after any number of steps (`Machine.stepped`) depends on what a program can read only.
-/

namespace Y86

/-- What is decoded depends on the bytes of memory, and not on its record. -/
theorem Operation.decode_congr {m n : Memory} (h : m.bytes = n.bytes) (pc : Int) :
    decode m pc = decode n pc := by
  rw [Memory.eq_of_bytes h]
  -- the record is not looked at by any read
  have hbytes : ∀ address length,
      Memory.readBytes { n with touched := m.touched } address length = n.readBytes address length := by
    intro address length
    induction length generalizing address with
    | zero => rfl
    | succ length ih =>
      unfold Memory.readBytes
      rw [ih]
      rfl
  unfold decode
  simp only [hbytes]
  rfl

namespace Machine

variable {a b : Machine}

/-! ### Machines that agree take the same step -/

/-- Agreeing machines admit the same addresses. -/
theorem requireAddress_alike (h : a.Agrees b) (access : Access) (address : Int) :
    Alike (fun _ _ => True) (a.requireAddress access address) (b.requireAddress access address) := by
  unfold requireAddress
  rw [Memory.size_congr h.bytes]
  split
  · trivial
  · exact ⟨rfl, h⟩

/-- What does not depend on the machine is attempted alike. -/
theorem attempt_alike (h : a.Agrees b) {α : Type} {x y : Except Fault α} (hxy : x = y) :
    Alike Eq (a.attempt x) (b.attempt y) := by
  subst hxy
  cases x with
  | ok v => exact rfl
  | error fault => exact ⟨rfl, h⟩

/-- A store leaves the same bytes in both. -/
theorem writeQuad_alike (h : a.Agrees b) (address value : Int) :
    Alike (fun m n => m.bytes = n.bytes) (a.attempt (a.memory.writeQuad address value))
      (b.attempt (b.memory.writeQuad address value)) := by
  unfold Memory.writeQuad Memory.require
  rw [Memory.size_congr h.bytes]
  split
  · exact congrArg (Memory.overlay · address.toNat (Word.toBytes value)) h.bytes
  · exact ⟨rfl, h⟩

theorem effectiveAddress_alike (h : a.Agrees b) (op : Operation) :
    Alike Eq (a.effectiveAddress op) (b.effectiveAddress op) := by
  refine (attempt_alike h (by rw [h.registers])).bind fun base _ hbase => ?_
  subst hbase
  exact (requireAddress_alike h _ _).bind fun _ _ _ => rfl

/-- Agreeing machines agree with their stacks moved. -/
theorem moveStack_agrees (h : a.Agrees b) (distance : Int) : (a.moveStack distance).Agrees (b.moveStack distance) where
  pc := h.pc
  registers := by unfold moveStack rsp; rw [h.registers]
  flags := h.flags
  bytes := h.bytes

theorem rsp_eq (h : a.Agrees b) : a.rsp = b.rsp := by
  unfold rsp
  rw [h.registers]

/-- They push alike, if what they push is the same. -/
theorem push_alike (h : a.Agrees b) {f g : Machine → Except Fault Int} (hfg : ∀ x y, x.Agrees y → f x = g y) :
    Alike Agrees (a.push f) (b.push g) := by
  have hl := moveStack_agrees h (-8)
  unfold push
  dsimp only
  -- the stack pointer has moved before anything is checked, and stays there if a check fails
  rw [rsp_eq hl]
  refine (requireAddress_alike hl _ _).bind fun _ _ _ => ?_
  refine (attempt_alike hl (hfg _ _ hl)).bind fun v _ hv => ?_
  subst hv
  exact (writeQuad_alike hl _ _).bind fun m n hmn => ⟨hl.pc, hl.registers, hl.flags, hmn⟩

theorem advance_agrees (h : a.Agrees b) (op : Operation) : (a.advance op).Agrees (b.advance op) where
  pc := congrArg (· + op.length) h.pc
  registers := h.registers
  flags := h.flags
  bytes := h.bytes

theorem setRegisters_agrees (h : a.Agrees b) (registers : RegisterFile) :
    Agrees { a with registers } { b with registers } := ⟨h.pc, rfl, h.flags, h.bytes⟩

/-- The end of an instruction that writes one register: the write may fail, and then the machine moves on. -/
theorem writeRegister_alike (h : a.Agrees b) (value : Int) (field : Option Register)
    {f g : RegisterFile → Except Failure Machine} (hfg : ∀ registers, Alike Agrees (f registers) (g registers)) :
    Alike Agrees (a.attempt (a.registers.write value field) >>= f)
      (b.attempt (b.registers.write value field) >>= g) := by
  refine (attempt_alike h (by rw [h.registers])).bind fun registers _ he => ?_
  subst he
  exact hfg registers

/-- **Execution** depends on what machines agree on. -/
theorem execute_alike (h : a.Agrees b) (op : Operation) : Alike Agrees (execute op a) (execute op b) := by
  have hcode : Condition.codeHolds op.ifun a.flags = Condition.codeHolds op.ifun b.flags := by rw [h.flags]
  unfold execute
  -- what is read of the machines is the same in each part, so the parts go through one by one
  cases op.kind with
  | halt => exact ⟨(advance_agrees h op).pc, h.registers, h.flags, h.bytes⟩
  | nop => exact advance_agrees h op
  | rrmovq =>
    dsimp only
    rw [hcode]
    split
    · refine (attempt_alike h (by rw [h.registers])).bind fun value _ hv => ?_
      subst hv
      exact writeRegister_alike h value _ fun registers => advance_agrees (setRegisters_agrees h registers) op
    · exact advance_agrees h op
  | irmovq => exact writeRegister_alike h _ _ fun registers => advance_agrees (setRegisters_agrees h registers) op
  | rmmovq =>
    refine (effectiveAddress_alike h op).bind fun address _ ha => ?_
    subst ha
    refine (attempt_alike h (by rw [h.registers])).bind fun value _ hv => ?_
    subst hv
    exact (writeQuad_alike h _ _).bind fun m n hmn => ⟨(advance_agrees h op).pc, h.registers, h.flags, hmn⟩
  | mrmovq =>
    refine (effectiveAddress_alike h op).bind fun address _ ha => ?_
    subst ha
    refine (attempt_alike h (Memory.readSigned_congr h.bytes _)).bind fun value _ hv => ?_
    subst hv
    exact writeRegister_alike h value _ fun registers => advance_agrees (setRegisters_agrees h registers) op
  | opq =>
    refine (attempt_alike h (by rw [h.registers])).bind fun x _ hx => ?_
    subst hx
    refine (attempt_alike h (by rw [h.registers])).bind fun y _ hy => ?_
    subst hy
    cases Arithmetic.ofCode? op.ifun with
    | none => exact ⟨rfl, h⟩
    | some f => exact writeRegister_alike h _ _ fun _ => ⟨(advance_agrees h op).pc, rfl, rfl, h.bytes⟩
  | jxx =>
    refine (requireAddress_alike h _ _).bind fun _ _ _ => ?_
    rw [hcode]
    split
    · exact ⟨rfl, h.registers, h.flags, h.bytes⟩
    · exact advance_agrees h op
  | call =>
    refine (requireAddress_alike h _ _).bind fun _ _ _ => ?_
    exact (push_alike h fun _ _ _ => by rw [h.pc]).bind fun p q hpq => ⟨rfl, hpq.registers, hpq.flags, hpq.bytes⟩
  | ret =>
    dsimp only
    rw [rsp_eq h]
    refine (requireAddress_alike h _ _).bind fun _ _ _ => ?_
    refine (attempt_alike h (Memory.readQuad_congr h.bytes _)).bind fun target _ ht => ?_
    subst ht
    have hr := moveStack_agrees h 8
    exact (requireAddress_alike hr _ _).bind fun _ _ _ => ⟨rfl, hr.registers, hr.flags, hr.bytes⟩
  | pushq =>
    exact (push_alike h fun x y hxy => by rw [hxy.registers]).bind fun p q hpq => advance_agrees hpq op
  | popq =>
    dsimp only
    rw [rsp_eq h]
    refine (requireAddress_alike h _ _).bind fun _ _ _ => ?_
    refine (attempt_alike h (Memory.readSigned_congr h.bytes _)).bind fun value _ hv => ?_
    subst hv
    refine writeRegister_alike h value _ fun registers => ?_
    exact advance_agrees (moveStack_agrees (setRegisters_agrees h registers) 8) op

/-- Machines that agree take the same step and agree again afterwards. -/
theorem step_alike (h : a.Agrees b) : Alike (fun x y => x.1 = y.1 ∧ x.2.Agrees y.2) a.step b.step := by
  unfold step
  rw [h.pc]
  refine (requireAddress_alike h _ _).bind fun _ _ _ => ?_
  refine (attempt_alike h (Operation.decode_congr h.bytes _)).bind fun op _ hop => ?_
  subst hop
  exact (execute_alike h op).bind fun m n hmn => ⟨rfl, hmn⟩

/-- The machine after a step; a step that fails keeps what it had changed by then. -/
def stepped (m : Machine) : Machine :=
  match m.step with
  | .ok x => x.2
  | .error failure => failure.machine

/-- So do any number of steps. -/
theorem stepped_agrees (h : a.Agrees b) : a.stepped.Agrees b.stepped := by
  have hstep := step_alike h
  unfold stepped
  cases ha : a.step with
  | ok x =>
    cases hb : b.step with
    | ok y => rw [ha, hb] at hstep; exact hstep.2
    | error f => rw [ha, hb] at hstep; exact False.elim hstep
  | error e =>
    -- the failures hold machines that agree
    cases hb : b.step with
    | ok y => rw [ha, hb] at hstep; exact False.elim hstep
    | error f => rw [ha, hb] at hstep; exact hstep.2

end Machine

end Y86
