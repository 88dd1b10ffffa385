import Y86.Proofs.Machine.Effect

/-!
# What a successful step leaves alone

An instruction changes little of a machine, and what it changes can be read off the operation and the machine before
it. `Machine.Frame` lists it field by field: flags, status, cycle, memory with its record, registers and program
counter. Memory changes in one place at most, by one word (`Memory.Stored`); registers change only where
`Machine.writes` says so, which for a move depends on its condition.

`Machine.frame_of_step` is the main statement. The program counter stays inside memory or moves right behind its end:
where it goes on, all bytes of the instruction had been read, and where it jumps, the target had been checked.
-/

namespace Y86

namespace Machine

/-- The registers that an operation may change. -/
def writes (m : Machine) (op : Operation) : List Register :=
  match op.kind with
  | .rrmovq => if Condition.codeHolds op.ifun m.flags then op.rB.toList else []
  | .irmovq | .opq => op.rB.toList
  | .mrmovq => op.rA.toList
  | .popq => .rsp :: op.rA.toList
  | .pushq | .call | .ret => [.rsp]
  | .halt | .nop | .rmmovq | .jxx => []

/-- What becomes of a machine by a step that carries out `op`. -/
structure Frame (m : Machine) (op : Operation) (next : Machine) : Prop where
  /-- Only arithmetic sets flags. -/
  flags : op.kind ≠ .opq → next.flags = m.flags
  /-- Only a halt changes the status. -/
  status : next.status = if op.kind = .halt then .hlt else m.status
  cycle : next.cycle = m.cycle
  /-- All other instructions leave memory and its record alone. -/
  memory : op.kind ∉ [.rmmovq, .pushq, .call] → next.memory = m.memory
  rmmovq : op.kind = .rmmovq → ∃ a b, op.rA = some a ∧ op.rB = some b ∧
    m.memory.Stored (Word.signed (m.registers.get b + op.valC)) (m.registers.get a) next.memory
  /-- A register, read when the stack pointer has moved, is stored at the new stack pointer. -/
  pushq : op.kind = .pushq → ∃ a, op.rA = some a ∧
    m.memory.Stored next.rsp ((m.moveStack (-8)).registers.get a) next.memory
  /-- The address behind the call is stored at the new stack pointer. -/
  call : op.kind = .call → m.memory.Stored next.rsp (m.pc + 9) next.memory
  /-- The new stack pointer of a push or a call is one word below the old one. -/
  rsp : op.kind = .pushq ∨ op.kind = .call → next.rsp = Word.signed (m.rsp - 8)
  /-- Registers change only where the operation writes. -/
  registers : ∀ r, r ∉ m.writes op → next.registers.get r = m.registers.get r
  inRange : ∀ r, Word.InRange (next.registers.get r)
  /-- Most instructions go on to the one behind them. -/
  pc : op.kind ∉ [.jxx, .call, .ret] → next.pc = m.pc + op.length
  pc_jump : op.kind = .jxx →
    next.pc = if Condition.codeHolds op.ifun m.flags then op.valC else m.pc + op.length
  pc_call : op.kind = .call → next.pc = op.valC
  /-- A return goes to the unsigned word that was on the stack. -/
  pc_ret : op.kind = .ret → ∃ target : Nat, m.memory.readQuad m.rsp = .ok target ∧ next.pc = target
  /-- The program counter is inside memory or right behind it. -/
  pc_range : 0 ≤ next.pc ∧ next.pc ≤ m.memory.size

variable {m next : Machine} {op : Operation}

/-! ### Registers -/

/-- A register that is not named is not written. -/
theorem get_setRegister_of_not_mem {field : Option Register} {r s : Register} (hfield : field = some r)
    (hs : s ∉ field.toList) (m : Machine) (value : Int) :
    (m.setRegister r value).registers.get s = m.registers.get s := by
  subst hfield
  have hne : s ≠ r := List.ne_of_not_mem_cons hs
  exact m.registers.get_set_of_ne hne.symm value

/-- **Registers.** A step writes the registers that its operation names, and no others. -/
theorem Effect.get_of_not_mem (h : m.Effect op next) {r : Register} (hr : r ∉ m.writes op) :
    next.registers.get r = m.registers.get r := by
  unfold writes at hr
  cases h with
  -- the register file is the same
  | halt kind => rfl
  | nop kind => rfl
  | noMove kind fails => rfl
  | store kind rA rB stored => rfl
  | jump kind holds target => rfl
  | noJump kind fails target => rfl
  -- one register is written
  | move kind holds rA rB =>
    rw [kind, holds] at hr
    exact get_setRegister_of_not_mem rB hr m _
  | constant kind rB =>
    rw [kind] at hr
    exact get_setRegister_of_not_mem rB hr m _
  | compute kind rA rB function =>
    rw [kind] at hr
    exact get_setRegister_of_not_mem rB hr m _
  | load kind rA rB loaded =>
    rw [kind] at hr
    exact get_setRegister_of_not_mem rA hr m _
  -- the stack pointer moves
  | call kind target stored =>
    rw [kind] at hr
    exact get_moveStack_of_ne (List.ne_of_not_mem_cons hr) m _
  | ret kind popped inside =>
    rw [kind] at hr
    exact get_moveStack_of_ne (List.ne_of_not_mem_cons hr) m _
  | push kind rA stored =>
    rw [kind] at hr
    exact get_moveStack_of_ne (List.ne_of_not_mem_cons hr) m _
  -- two registers are written, the stack pointer last
  | @pop a value kind rA popped =>
    rw [kind] at hr
    calc ((m.setRegister a value).moveStack 8).registers.get r
      _ = (m.setRegister a value).registers.get r := get_moveStack_of_ne (List.ne_of_not_mem_cons hr) _ _
      _ = m.registers.get r := get_setRegister_of_not_mem rA (List.not_mem_of_not_mem_cons hr) m value

/-- A push and a call move the stack pointer down by a word. -/
theorem Effect.rsp (h : m.Effect op next) (kind : op.kind = .pushq ∨ op.kind = .call) :
    next.rsp = Word.signed (m.rsp - 8) := by
  cases h with
  | push _ _ _ => exact m.rsp_lowered
  | call _ _ _ => exact m.rsp_lowered
  | _ => simp_all

/-! ### Flags, status and cycle -/

/-- **Flags.** Only an arithmetic instruction writes them. -/
theorem Effect.flags (h : m.Effect op next) (hkind : op.kind ≠ .opq) : next.flags = m.flags := by
  cases h with
  | compute kind _ _ _ => exact absurd kind hkind
  | _ => rfl

/-- **Status.** Only a halt changes it. -/
theorem Effect.status (h : m.Effect op next) : next.status = if op.kind = .halt then .hlt else m.status := by
  cases h with
  | halt kind => rw [if_pos kind]
  | _ => simp_all [advance, setRegister, moveStack]

theorem Effect.cycle (h : m.Effect op next) : next.cycle = m.cycle := by cases h <;> rfl

/-! ### Memory -/

/-- **Memory.** Only three classes write it. -/
theorem Effect.memory (h : m.Effect op next) (hkind : op.kind ∉ [.rmmovq, .pushq, .call]) :
    next.memory = m.memory := by
  cases h with
  | store kind _ _ _ => simp_all
  | push kind _ _ => simp_all
  | call kind _ _ => simp_all
  | _ => rfl

/-- A move to memory stores the register at the address of its operand. -/
theorem Effect.stored_rmmovq (h : m.Effect op next) (hkind : op.kind = .rmmovq) :
    ∃ a b, op.rA = some a ∧ op.rB = some b ∧
      m.memory.Stored (Word.signed (m.registers.get b + op.valC)) (m.registers.get a) next.memory := by
  cases h with
  | store _ rA rB stored => exact ⟨_, _, rA, rB, Memory.stored_of_writeQuad stored⟩
  | _ => simp_all

/-- A push stores the register as it is once the stack pointer has moved. -/
theorem Effect.stored_pushq (h : m.Effect op next) (hkind : op.kind = .pushq) :
    ∃ a, op.rA = some a ∧ m.memory.Stored next.rsp ((m.moveStack (-8)).registers.get a) next.memory := by
  cases h with
  | push _ rA stored => exact ⟨_, rA, Memory.stored_of_writeQuad stored⟩
  | _ => simp_all

/-- A call stores the address of what comes behind it. -/
theorem Effect.stored_call (h : m.Effect op next) (hop : op.WellFormed) (hkind : op.kind = .call) :
    m.memory.Stored next.rsp (m.pc + 9) next.memory := by
  -- a call is nine bytes long
  have hlength : op.length = 9 := by
    rw [hop.length, hkind]
    rfl
  cases h with
  | call _ _ stored =>
    rw [hlength] at stored
    exact Memory.stored_of_writeQuad stored
  | _ => simp_all

/-! ### The program counter -/

/-- **Program counter.** Most instructions go on behind themselves. -/
theorem Effect.pc (h : m.Effect op next) (hkind : op.kind ∉ [.jxx, .call, .ret]) : next.pc = m.pc + op.length := by
  cases h with
  | jump kind _ _ => simp_all
  | noJump kind _ _ => rfl
  | call kind _ _ => simp_all
  | ret kind _ _ => simp_all
  | _ => rfl

/-- A jump goes to its destination if its condition holds, and on behind itself otherwise. -/
theorem Effect.pc_jump (h : m.Effect op next) (hkind : op.kind = .jxx) :
    next.pc = if Condition.codeHolds op.ifun m.flags then op.valC else m.pc + op.length := by
  cases h with
  | jump _ holds _ => rw [if_pos holds]
  | noJump _ fails _ => rw [if_neg (Bool.eq_false_iff.1 fails)]; rfl
  | _ => simp_all

theorem Effect.pc_call (h : m.Effect op next) (hkind : op.kind = .call) : next.pc = op.valC := by
  cases h with
  | call _ _ _ => rfl
  | _ => simp_all

/-- A return goes to the word at the stack pointer. -/
theorem Effect.pc_ret (h : m.Effect op next) (hkind : op.kind = .ret) :
    ∃ target : Nat, m.memory.readQuad m.rsp = .ok target ∧ next.pc = target := by
  cases h with
  | @ret target _ popped _ => exact ⟨target, popped, rfl⟩
  | _ => simp_all

/-- Where an instruction goes on it had been read as a whole, and where it jumps its target had been checked. -/
theorem Effect.pc_range (h : m.Effect op next) (hdecode : Operation.decode m.memory m.pc = .ok op) :
    0 ≤ next.pc ∧ next.pc ≤ m.memory.size := by
  obtain ⟨hpc, -, hroom⟩ := Operation.room_of_decode hdecode
  have hlength := (Operation.wellFormed_of_decode hdecode).length
  have hbehind : 0 ≤ m.pc + op.length ∧ m.pc + op.length ≤ m.memory.size := by omega
  cases h with
  | jump _ _ target => exact ⟨target.1, Int.le_of_lt target.2⟩
  | call _ target _ => exact ⟨target.1, Int.le_of_lt target.2⟩
  | @ret target _ _ inside => exact ⟨Int.natCast_nonneg target, Int.ofNat_le.2 (Nat.le_of_lt inside)⟩
  | _ => exact hbehind

/-- **The frame of a step.** A step that carries out `op` changes of the machine what its frame says and nothing
else. -/
theorem frame_of_step (h : m.step = .ok (op, next)) : m.Frame op next := by
  obtain ⟨hdecode, heffect⟩ := effect_of_step h
  have hop := Operation.wellFormed_of_decode hdecode
  -- each clause is one lemma on the effect of the class
  exact
    { flags := heffect.flags
      status := heffect.status
      cycle := heffect.cycle
      memory := heffect.memory
      rmmovq := heffect.stored_rmmovq
      pushq := heffect.stored_pushq
      call := heffect.stored_call hop
      rsp := heffect.rsp
      registers := fun _ hr => heffect.get_of_not_mem hr
      inRange := next.registers.get_inRange
      pc := heffect.pc
      pc_jump := heffect.pc_jump
      pc_call := heffect.pc_call
      pc_ret := heffect.pc_ret
      pc_range := heffect.pc_range hdecode }

/-- A push of the stack pointer at an odd address, over two words of memory. -/
theorem frame_of_step_push_rsp :
    let m : Machine :=
      { registers := RegisterFile.zeros.set .rsp 21
        memory := (Memory.zeros 24 (by decide)).lay 0 [0xA0, 0x4F] }
    ∃ op next, m.step = .ok (op, next) ∧ op.text = "pushq %rsp" ∧ next.memory.touched = [8, 16] ∧
      m.Frame op next ∧ m.memory.Stored 13 13 next.memory := by
  intro m
  have hvalues : (m.step.toOption.map fun x => (x.1.text, x.1.kind, x.1.rA, x.2.memory.touched, x.2.rsp))
      = some ("pushq %rsp", .pushq, some .rsp, [8, 16], 13) := by
    decide +kernel
  have hlowered : (m.moveStack (-8)).registers.get .rsp = 13 := by decide +kernel
  cases hstep : m.step with
  | error e => rw [hstep] at hvalues; cases hvalues
  | ok x =>
    obtain ⟨op, next⟩ := x
    rw [hstep] at hvalues
    have hframe := frame_of_step hstep
    simp only [Except.toOption, Option.map_some, Option.some.injEq, Prod.mk.injEq] at hvalues
    obtain ⟨htext, hkind, hrA, htouched, hrsp⟩ := hvalues
    -- the value is read when the stack pointer has moved
    obtain ⟨a, ha, hstored⟩ := hframe.pushq hkind
    obtain rfl : a = .rsp := Option.some.inj (ha.symm.trans hrA)
    rw [hlowered, hrsp] at hstored
    exact ⟨op, next, rfl, htext, htouched, hframe, hstored⟩

end Machine

end Y86
