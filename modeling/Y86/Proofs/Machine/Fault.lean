import Y86.Proofs.Machine.Effect

/-!
# When a step faults

A step that fails is ended by an address fault or by an instruction fault, never by a misuse, and whether it fails can be
read off the machine before it (`Machine.Faults`). Addresses are looked at more than once on the way, by their first byte
and by all eight, and a transfer of eight bytes needs room for all of them; so a transfer is out of bounds if there is no
room for it, whatever was looked at first.

* `Machine.Effect.not_blocked`: what was carried out had all its addresses inside memory.
* `Machine.step_faults_iff`: a step faults exactly under the conditions listed, and with their status.
-/

namespace Y86

namespace Machine

/-- An address that `op` needs is out of bounds. -/
inductive Blocked (m : Machine) (op : Operation) : Prop where
  /-- The destination of a jump or a call, also of a jump that is not taken. -/
  | target (kind : op.kind = .jxx ∨ op.kind = .call) (outside : m.memory.size ≤ op.valC)
  /-- The place of a new word on the stack. -/
  | push (kind : op.kind = .pushq ∨ op.kind = .call) (noRoom : ¬m.memory.HasQuad (Word.signed (m.rsp - 8)))
  /-- The last word on the stack. -/
  | pop (kind : op.kind = .popq ∨ op.kind = .ret) (noRoom : ¬m.memory.HasQuad m.rsp)
  /-- The word that a memory operand names. -/
  | operand {b : Register} (kind : op.kind = .rmmovq ∨ op.kind = .mrmovq) (rB : op.rB = some b)
      (noRoom : ¬m.memory.HasQuad (Word.signed (m.registers.get b + op.valC)))
  /-- The return address that was on the stack. -/
  | ret {target : Nat} (kind : op.kind = .ret) (popped : m.memory.readQuad m.rsp = .ok target)
      (outside : m.memory.size ≤ target)

/-- The conditions under which a step faults, with the status of the fault. -/
inductive Faults (m : Machine) : Status → Prop where
  /-- The program counter is outside memory. -/
  | fetch (outside : ¬(0 ≤ m.pc ∧ m.pc < m.memory.size)) : m.Faults .adr
  /-- Nothing can be decoded at the program counter; the status is that of the decoder's fault. -/
  | decode {fault : Fault} {status : Status} (undecoded : Operation.decode m.memory m.pc = .error fault)
      (code : fault.status? = some status) : m.Faults status
  /-- An address of the decoded operation is out of bounds. -/
  | execute {op : Operation} (decoded : Operation.decode m.memory m.pc = .ok op) (blocked : m.Blocked op) :
      m.Faults .adr

variable {m next : Machine} {op : Operation}

/-- An operation stops only where one of its addresses is out of bounds. -/
theorem Stops.blocked {left : Machine} (h : m.Stops op left) : m.Blocked op := by
  cases h with
  | target kind outside => exact .target kind outside
  | operand kind rB noRoom => exact .operand kind rB noRoom
  | push kind noRoom =>
    -- a call that stops here has passed the check of its destination
    rw [rsp_lowered] at noRoom
    exact .push (kind.imp_right And.left) noRoom
  | pop kind noRoom => exact .pop kind noRoom
  | ret kind popped outside => exact .ret kind popped outside

/-! ### What was carried out had its addresses inside memory -/

theorem Effect.target (h : m.Effect op next) (kind : op.kind = .jxx ∨ op.kind = .call) : op.valC < m.memory.size := by
  cases h with
  | jump _ _ target => exact target.2
  | noJump _ _ target => exact target.2
  | call _ target _ => exact target.2
  -- all other effects are of other classes
  | _ => simp_all

theorem Effect.room_push (h : m.Effect op next) (kind : op.kind = .pushq ∨ op.kind = .call) :
    m.memory.HasQuad (Word.signed (m.rsp - 8)) := by
  rw [← rsp_lowered]
  cases h with
  | push _ _ stored => exact (Memory.stored_of_writeQuad stored).room
  | call _ _ stored => exact (Memory.stored_of_writeQuad stored).room
  | _ => simp_all

theorem Effect.room_pop (h : m.Effect op next) (kind : op.kind = .popq ∨ op.kind = .ret) : m.memory.HasQuad m.rsp := by
  cases h with
  | pop _ _ popped =>
    obtain ⟨word, hword, -⟩ := Memory.readSigned_eq_ok_iff.1 popped
    exact (Memory.readQuad_eq_ok_iff.1 hword).1
  | ret _ popped _ => exact (Memory.readQuad_eq_ok_iff.1 popped).1
  | _ => simp_all

theorem Effect.room_operand (h : m.Effect op next) (kind : op.kind = .rmmovq ∨ op.kind = .mrmovq) {b : Register}
    (hb : op.rB = some b) : m.memory.HasQuad (Word.signed (m.registers.get b + op.valC)) := by
  cases h with
  | @store _ b' _ _ _ rB stored =>
    obtain rfl : b' = b := Option.some.inj (rB.symm.trans hb)
    exact (Memory.stored_of_writeQuad stored).room
  | @load _ b' _ _ _ rB loaded =>
    obtain rfl : b' = b := Option.some.inj (rB.symm.trans hb)
    obtain ⟨word, hword, -⟩ := Memory.readSigned_eq_ok_iff.1 loaded
    exact (Memory.readQuad_eq_ok_iff.1 hword).1
  | _ => simp_all

theorem Effect.return_inside (h : m.Effect op next) (kind : op.kind = .ret) {target : Nat}
    (hpopped : m.memory.readQuad m.rsp = .ok target) : target < m.memory.size := by
  cases h with
  | @ret target' _ popped inside =>
    obtain rfl : target' = target := Except.ok.inj (popped.symm.trans hpopped)
    exact inside
  | _ => simp_all

/-- A step with an effect has met none of the conditions that block it. -/
theorem Effect.not_blocked (h : m.Effect op next) : ¬m.Blocked op := by
  intro hblocked
  cases hblocked with
  | target kind outside => exact absurd (h.target kind) (Int.not_lt.2 outside)
  | push kind noRoom => exact noRoom (h.room_push kind)
  | pop kind noRoom => exact noRoom (h.room_pop kind)
  | operand kind rB noRoom => exact noRoom (h.room_operand kind rB)
  | ret kind popped outside => exact absurd (h.return_inside kind popped) (Nat.not_lt.2 outside)

/-! ### Faults -/

/-- A failed step has one of the two statuses of a fault. -/
theorem Fails.status {e : Failure} (h : m.Fails e) : e.fault.status? = some .adr ∨ e.fault.status? = some .ins := by
  cases h with
  | fetch outside status => exact Or.inl status
  | decode undecoded => exact Operation.status_of_decode_eq_error undecoded
  | execute decoded stops => exact Or.inl stops.1

/-- A failure has the status of the condition that was met. -/
theorem Fails.faults {e : Failure} (h : m.Fails e) {status : Status} (hstatus : e.fault.status? = some status) :
    m.Faults status := by
  cases h with
  | fetch outside hadr =>
    obtain rfl : Status.adr = status := Option.some.inj (hadr.symm.trans hstatus)
    exact .fetch outside
  | decode undecoded => exact .decode undecoded hstatus
  | execute decoded stops =>
    obtain rfl : Status.adr = status := Option.some.inj (stops.1.symm.trans hstatus)
    exact .execute decoded stops.2.blocked

/-- Under one of the conditions a step is not carried out, and its failure has the status of the condition. -/
theorem Faults.exists_error {status : Status} (h : m.Faults status) :
    ∃ e, m.step = .error e ∧ e.fault.status? = some status := by
  have hfetch : ¬(0 ≤ m.pc ∧ m.pc < m.memory.size) → ∃ e, m.step = .error e ∧ e.fault.status? = some .adr := by
    intro outside
    refine ⟨⟨.address .fetch m.pc, m⟩, ?_, rfl⟩
    unfold step requireAddress
    rw [if_neg outside]
    rfl
  cases h with
  | fetch outside => exact hfetch outside
  | @decode fault status undecoded code =>
    by_cases hinside : 0 ≤ m.pc ∧ m.pc < m.memory.size
    · refine ⟨⟨fault, m⟩, ?_, code⟩
      unfold step requireAddress
      rw [if_pos hinside, undecoded]
      rfl
    · -- the fetch fails first, with the status that decoding has there
      obtain ⟨fault', hfault', hadr⟩ := Operation.decode_of_not_inside hinside
      obtain rfl : fault = fault' := Except.error.inj (undecoded.symm.trans hfault')
      obtain rfl : status = Status.adr := Option.some.inj (code.symm.trans hadr)
      exact hfetch hinside
  | @execute op decoded blocked =>
    cases hstep : m.step with
    | ok x =>
      -- what was carried out is the decoded operation, which is blocked
      obtain ⟨op', next⟩ := x
      obtain ⟨decoded', heffect⟩ := effect_of_step hstep
      obtain rfl : op' = op := Except.ok.inj (decoded'.symm.trans decoded)
      exact absurd blocked heffect.not_blocked
    | error e =>
      refine ⟨e, rfl, ?_⟩
      cases fails_of_step hstep with
      | fetch outside status => exact status
      | decode undecoded => rw [decoded] at undecoded; cases undecoded
      | execute decoded' stops => exact stops.1

/-- **The faults of a step.** A step is carried out, or ends with an address fault or an instruction fault; and it ends
with one or the other exactly if the program counter is outside memory, if nothing can be decoded there, or if an address
that the decoded operation needs is out of bounds. -/
theorem step_faults_iff (m : Machine) :
    ((∃ op next, m.step = .ok (op, next)) ∨
      ∃ e, m.step = .error e ∧ (e.fault.status? = some .adr ∨ e.fault.status? = some .ins)) ∧
    ∀ status, (∃ e, m.step = .error e ∧ e.fault.status? = some status) ↔ m.Faults status := by
  refine ⟨?_, fun status => ⟨?_, Faults.exists_error⟩⟩
  · cases hstep : m.step with
    | ok x => exact Or.inl ⟨x.1, x.2, rfl⟩
    | error e => exact Or.inr ⟨e, rfl, (fails_of_step hstep).status⟩
  · rintro ⟨e, hstep, hstatus⟩
    exact (fails_of_step hstep).faults hstatus

end Machine

end Y86
