import Y86.Proofs.Arithmetic
import Y86.Proofs.Machine.Frame
import Y86.Proofs.Machine.Residue
import Y86.Proofs.Machine.Steps

/-!
# Calls and returns

A call puts the address behind it on the stack, and a return goes wherever the word on the stack says. Nothing else ties
the two together: what the callee does in between is free, and so is the place of the return instruction. If the callee
leaves the stack pointer as it has found it, and the word there, then the return goes back behind the call and takes the
word off the stack (`Machine.step_ret_of_call`).

The address behind a call is inside memory or right behind its end. In the second case the call itself succeeds, since a
call looks at its destination only, and it is the return that faults. No memory can be asked for that has `2 ^ 63` bytes
or more (`Memory.checkSize`), so the address is a word that comes back from the stack as it was put there.
-/

namespace Y86

namespace Machine

variable {m called s next : Machine} {op call ret : Operation} {k target : Nat}

/-- A call leaves the address behind it on the stack, one word below the old stack pointer. -/
theorem stored_of_call (h : m.step = .ok (call, called)) (hkind : call.kind = .call) :
    called.rsp = Word.signed (m.rsp - 8) ∧ m.memory.Stored called.rsp (m.pc + 9) called.memory := by
  obtain ⟨hdecode, heffect⟩ := effect_of_step h
  exact ⟨heffect.rsp (Or.inr hkind), heffect.stored_call (Operation.wellFormed_of_decode hdecode) hkind⟩

theorem inside_of_call (h : m.step = .ok (call, called)) (hkind : call.kind = .call) :
    0 ≤ m.pc ∧ m.pc + 9 ≤ m.memory.size := by
  obtain ⟨hdecode, -⟩ := effect_of_step h
  obtain ⟨hpos, -, hroom⟩ := Operation.room_of_decode hdecode
  have hlength : call.length = 9 := by
    rw [(Operation.wellFormed_of_decode hdecode).length, hkind]
    rfl
  omega

/-! ### A return whose target is known -/

section Return

variable (hdecode : Operation.decode s.memory s.pc = .ok ret) (hkind : ret.kind = .ret)
  (hpopped : s.memory.readQuad s.rsp = .ok target)

include hdecode hkind hpopped

theorem step_ret_of_inside (hinside : target < s.memory.size) :
    s.step = .ok (ret, { s.moveStack 8 with pc := target }) := by
  have hfree : ¬s.Blocked ret := by
    intro hblocked
    cases hblocked with
    | target kind outside => simp [hkind] at kind
    | push kind noRoom => simp [hkind] at kind
    | pop kind noRoom => exact noRoom (Memory.readQuad_eq_ok_iff.1 hpopped).1
    | operand kind rB noRoom => simp [hkind] at kind
    | ret kind popped outside =>
      -- the word on the stack is the target
      obtain rfl := Except.ok.inj (popped.symm.trans hpopped)
      omega
  obtain ⟨next, hstep, heffect⟩ := exists_step_of_not_blocked hdecode hfree
  cases heffect with
  | ret kind popped inside =>
    obtain rfl := Except.ok.inj (popped.symm.trans hpopped)
    exact hstep
  | _ => simp_all

theorem step_ret_of_outside (houtside : s.memory.size ≤ target) :
    ∃ e, s.step = .error e ∧ e.fault.status? = some .adr ∧ e.machine.pc = s.pc := by
  have hfaults : s.Faults .adr := .execute hdecode (.ret hkind hpopped houtside)
  obtain ⟨e, hstep, hstatus⟩ := hfaults.exists_error
  exact ⟨e, hstep, hstatus, (residue_of_step hstep).pc⟩

end Return

/-! ### A return that follows a call -/

/-- The word on the stack is still the address behind the call. -/
theorem readQuad_of_call (hbound : m.memory.size < Memory.sizeBound) (hcall : m.step = .ok (call, called))
    (hkind : call.kind = .call) (hsteps : called.Steps k s) (hrsp : s.rsp = called.rsp)
    (hslot : s.memory.window s.rsp.toNat 8 = called.memory.window called.rsp.toNat 8) :
    s.memory.readQuad s.rsp = .ok (m.pc + 9).toNat := by
  obtain ⟨-, hstored⟩ := stored_of_call hcall hkind
  obtain ⟨hpos, hend⟩ := inside_of_call hcall hkind
  obtain ⟨hroom, hword⟩ := Memory.readQuad_eq_ok_iff.1 hstored.readQuad_eq
  -- the bound on memory keeps the return address below the sign
  have haddress : Word.unsigned (m.pc + 9) = (m.pc + 9).toNat := by
    have hunsigned := Word.unsigned_eq (m.pc + 9)
    unfold Memory.sizeBound at hbound
    omega
  refine Memory.readQuad_eq_ok_iff.2 ⟨?_, ?_⟩
  · rw [hrsp]
    unfold Memory.HasQuad
    rw [hsteps.size_eq]
    exact hroom
  · rw [hslot, ← hword, haddress]

/-- **Calls return.** Whatever is carried out behind a call: if it arrives at a return with the stack pointer and the word
there as the call has left them, the return goes to the address behind the call and puts the stack pointer back, and
changes nothing else. If there is no memory behind the call, the return faults where it is. -/
theorem step_ret_of_call {m called s : Machine} {call ret : Operation} {k : Nat}
    (hbound : m.memory.size < Memory.sizeBound)
    (hcall : m.step = .ok (call, called)) (hkind : call.kind = .call) (hsteps : called.Steps k s)
    (hret : Operation.decode s.memory s.pc = .ok ret) (hkind' : ret.kind = .ret) (hrsp : s.rsp = called.rsp)
    (hslot : s.memory.window s.rsp.toNat 8 = called.memory.window called.rsp.toNat 8) :
    (m.pc + 9 < m.memory.size → ∃ next, s.step = .ok (ret, next) ∧ next.pc = m.pc + 9 ∧ next.rsp = m.rsp ∧
      (∀ r, r ≠ .rsp → next.registers.get r = s.registers.get r) ∧ next.flags = s.flags ∧ next.status = s.status ∧
      next.cycle = s.cycle ∧ next.memory = s.memory) ∧
    (m.pc + 9 = m.memory.size →
      ∃ e, s.step = .error e ∧ e.fault.status? = some .adr ∧ e.machine.pc = s.pc) := by
  -- whatever came between, the stack has the address behind the call
  have hpopped := readQuad_of_call hbound hcall hkind hsteps hrsp hslot
  have hsize : s.memory.size = m.memory.size := hsteps.size_eq.trans (size_of_step hcall)
  obtain ⟨hpos, -⟩ := inside_of_call hcall hkind
  constructor
  · intro hinside
    have hstep := step_ret_of_inside hret hkind' hpopped (by omega)
    refine ⟨_, hstep, ?_, ?_, ?_, rfl, rfl, rfl, rfl⟩
    · exact Int.toNat_of_nonneg (by omega)
    · -- the stack pointer goes down and up by one word
      calc (s.moveStack 8).rsp
        _ = Word.signed (Word.signed (m.rsp - 8) + 8) := by rw [rsp_moveStack, hrsp, (stored_of_call hcall hkind).1]
        _ = Word.signed m.rsp := by rw [Word.signed_signed_add, Int.sub_add_cancel]
        _ = m.rsp := Word.signed_of_inRange (m.registers.get_inRange .rsp)
    · intro r hr
      exact get_moveStack_of_ne hr s 8
  · intro hend
    exact step_ret_of_outside hret hkind' hpopped (by omega)

/-- A callee that calls another one; and a call that ends where memory ends. -/
theorem step_ret_of_call_nested :
    (let m : Machine :=
      { registers := RegisterFile.zeros.set .rsp 40
        memory := (Memory.zeros 40 (by decide)).lay 0
          [0x80, 10, 0, 0, 0, 0, 0, 0, 0, 0x00, 0x80, 20, 0, 0, 0, 0, 0, 0, 0, 0x90, 0x90] }
      ∃ call called s ret next, m.step = .ok (call, called) ∧ called.Steps 2 s ∧ s.pc = 19 ∧
        s.step = .ok (ret, next) ∧ next.pc = 9 ∧ next.rsp = 40) ∧
    (let m : Machine :=
      { pc := 11
        registers := RegisterFile.zeros.set .rsp 11
        memory := (Memory.zeros 20 (by decide)).lay 0 [0x90, 0, 0, 0, 0, 0, 0, 0, 0, 0, 0, 0x80] }
      ∃ call called e, m.step = .ok (call, called) ∧ called.pc = 0 ∧ called.step = .error e ∧
        e.fault.status? = some .adr ∧ e.machine.pc = 0) := by
  constructor
  · intro m
    obtain ⟨call, hcall, hkind⟩ := exists_step_of_kind m .call (by decide +kernel)
    -- the second call, and its return
    obtain ⟨call', hcall', -⟩ := exists_step_of_kind m.stepped .call (by decide +kernel)
    obtain ⟨ret', hret', -⟩ := exists_step_of_kind m.stepped.stepped .ret (by decide +kernel)
    have hsteps : m.stepped.Steps 2 m.stepped.stepped.stepped := (Steps.single hcall').trans (.single hret')
    obtain ⟨ret, hret, hkind'⟩ := exists_step_of_kind m.stepped.stepped.stepped .ret (by decide +kernel)
    obtain ⟨next, hnext, hpc, hrsp, -⟩ := (step_ret_of_call (by decide +kernel) hcall hkind hsteps
      (effect_of_step hret).1 hkind' (by decide +kernel) (by decide +kernel)).1 (by decide +kernel)
    exact ⟨call, _, _, ret, next, hcall, hsteps, by decide +kernel, hnext, hpc, hrsp⟩
  · intro m
    obtain ⟨call, hcall, hkind⟩ := exists_step_of_kind m .call (by decide +kernel)
    obtain ⟨ret, hret, hkind'⟩ : ∃ ret, Operation.decode m.stepped.memory m.stepped.pc = .ok ret ∧ ret.kind = .ret := by
      have hvalue : ((Operation.decode m.stepped.memory m.stepped.pc).toOption.map (·.kind)) = some .ret := by
        decide +kernel
      obtain ⟨ret, hx, hkind⟩ := Option.map_eq_some_iff.1 hvalue
      exact ⟨ret, eq_ok_of_toOption hx, hkind⟩
    obtain ⟨e, herror, hstatus, hpc⟩ := (step_ret_of_call (by decide +kernel) hcall hkind (.refl _) hret hkind' rfl rfl).2
      (by decide +kernel)
    exact ⟨call, _, e, hcall, by decide +kernel, herror, hstatus, hpc.trans (by decide +kernel)⟩

end Machine

end Y86
