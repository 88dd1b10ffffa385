import Y86.Operation.Decode
import Y86.Proofs.Memory.Quad

/-!
# What decoding yields

An operation that was decoded from memory is well formed (`Operation.WellFormed`): the register fields that its class
requires hold registers, the function code of an arithmetic instruction names a function, and a destination is not
negative. So nothing that execution asks of an operation can be missing.

All bytes of a decoded instruction lie inside memory (`Operation.room_of_decode`), since the last of them was read; and
where nothing can be decoded, the fault is that of an address or of an invalid instruction
(`Operation.status_of_decode_eq_error`).
-/

namespace Y86

/-- What an operation owes to its class. -/
structure Operation.WellFormed (op : Operation) : Prop where
  /-- The first register field holds a register if the class requires one. -/
  first : op.kind.layout.first = true → ∃ a, op.rA = some a
  /-- The second register field holds a register if the class requires one. -/
  second : op.kind.layout.second = true → ∃ b, op.rB = some b
  /-- The function code of an arithmetic instruction names a function. -/
  arithmetic : op.kind.layout.function = .arithmetic → ∃ f, Arithmetic.ofCode? op.ifun = some f
  /-- A destination is an unsigned word. -/
  destination : op.kind.layout.constant = some .unsigned → 0 ≤ op.valC
  length : op.length = op.kind.layout.length

namespace Operation

variable {m : Memory} {pc : Int} {op : Operation}

/-- The checks that an operation has passed, with its opcode and what was read behind it. -/
structure DecodedFrom (op : Operation) (m : Memory) (pc : Int) (opcode : UInt8) : Prop where
  read : m.read pc = .ok opcode
  kind : InstructionClass.ofCode? (opcode / 16).toNat = some op.kind
  function : op.kind.layout.checkFunction opcode = .ok ()
  ifun : op.ifun = (opcode % 16).toNat
  registers : decodeRegisters op.kind.layout m pc = .ok (op.rA, op.rB)
  constant : decodeConstant op.kind.layout m pc = .ok op.valC
  length : op.length = op.kind.layout.length
  operands : op.operandBytes = m.window (pc.toNat + 1) (op.kind.layout.length - 1)

/-! ### Register fields and constants -/

/-- Where things are listed by their codes, a position is a code. -/
theorem eq_of_getElem?_all {α : Type} {all : List α} (code : α → Nat) (hall : ∀ i : Fin all.length, code (all.get i) = i)
    {i : Nat} {x : α} (h : all[i]? = some x) : i = code x := by
  obtain ⟨hi, rfl⟩ := List.getElem?_eq_some_iff.1 h
  exact (hall ⟨i, hi⟩).symm

/-- A register is listed at its index. -/
theorem index_of_register {code : Nat} {r : Register} (h : Register.ofCode? code = some r) : code = r.index :=
  eq_of_getElem?_all (fun r : Register => r.index) (by decide) h

section Field

variable {wanted : Bool} {code : UInt8} {field : Option Register} {r : Register} {fault : Fault}

/-- A field that is wanted holds a register, and one that is not wanted is left empty. -/
theorem decodeRegister_eq_ok (h : decodeRegister wanted code = .ok field) : (wanted = true → code.toNat ≠ 15) ∧
    field.map (fun r => (r.index : Nat)) = if wanted then some code.toNat else none := by
  unfold decodeRegister at h
  split at h
  case isTrue hwanted =>
    split at h
    case h_1 r hr =>
      cases h
      -- a register that exists has a code below 15
      have hcode := index_of_register hr
      refine ⟨fun _ => by omega, ?_⟩
      rw [if_pos hwanted, hcode, Option.map_some]
    case h_2 => cases h
  case isFalse hwanted =>
    cases h
    exact ⟨fun h => absurd h hwanted, (if_neg hwanted).symm⟩

/-- Only a wanted field without a register is refused. -/
theorem decodeRegister_eq_error (h : decodeRegister wanted code = .error fault) :
    wanted = true ∧ 15 ≤ code.toNat ∧ fault = .register := by
  unfold decodeRegister at h
  split at h
  case isTrue hwanted =>
    split at h
    case h_1 => cases h
    case h_2 hnone => exact ⟨hwanted, List.getElem?_eq_none_iff.1 hnone, (Except.error.inj h).symm⟩
  case isFalse => cases h

theorem exists_of_decodeRegister (h : decodeRegister true code = .ok field) : ∃ r, field = some r := by
  obtain ⟨r, hr, -⟩ := Option.map_eq_some_iff.1 (decodeRegister_eq_ok h).2
  exact ⟨r, hr⟩

/-- The register of a field is the one that it codes. -/
theorem register_of_decodeRegister (h : decodeRegister wanted code = .ok (some r)) : code.toNat = r.index := by
  have hindex := (decodeRegister_eq_ok h).2
  split at hindex
  · exact (Option.some.inj hindex).symm
  · cases hindex

end Field

/-- The fields that a layout requires hold registers. -/
theorem exists_of_decodeRegisters {l : Layout} {rA rB : Option Register}
    (h : decodeRegisters l m pc = .ok (rA, rB)) :
    (l.first = true → ∃ a, rA = some a) ∧ (l.second = true → ∃ b, rB = some b) := by
  unfold decodeRegisters at h
  split at h
  case isTrue =>
    obtain ⟨fields, -, h⟩ := exists_of_bind_eq_ok h
    obtain ⟨a, ha, h⟩ := exists_of_bind_eq_ok h
    obtain ⟨b, hb, h⟩ := exists_of_bind_eq_ok h
    cases h
    constructor
    · intro hfirst
      rw [hfirst] at ha
      exact exists_of_decodeRegister ha
    · intro hsecond
      rw [hsecond] at hb
      exact exists_of_decodeRegister hb
  case isFalse hnone =>
    -- without a register byte neither field is required
    have hfields : l.first = false ∧ l.second = false := by
      unfold Layout.hasRegisters at hnone
      rwa [Bool.not_eq_true, Bool.or_eq_false_iff] at hnone
    rw [hfields.1, hfields.2]
    exact ⟨fun h => (nomatch h), fun h => (nomatch h)⟩

/-- A required constant is a word of memory, and an unsigned one has the value of the word. -/
theorem exists_of_decodeConstant {l : Layout} {valC : Int} (h : decodeConstant l m pc = .ok valC)
    (hl : l.constant.isSome = true) :
    ∃ word : Nat, m.readQuad (pc + l.constantOffset) = .ok word ∧ (l.constant = some .unsigned → valC = word) := by
  unfold decodeConstant at h
  split at h
  case h_1 hnone => rw [hnone] at hl; cases hl
  case h_2 hsigned =>
    obtain ⟨word, hword, -⟩ := Memory.readSigned_eq_ok_iff.1 h
    refine ⟨word, hword, fun hunsigned => ?_⟩
    -- a signed constant is not the case asked for
    rw [hsigned] at hunsigned
    cases hunsigned
  case h_3 =>
    obtain ⟨word, hword, hvalue⟩ := exists_of_map_eq_ok h
    exact ⟨word, hword, fun _ => hvalue.symm⟩

/-! ### The parts of an instruction -/

/-- The register byte lies inside memory if it is read. -/
theorem room_of_decodeRegisters {l : Layout} {fields : Option Register × Option Register}
    (h : decodeRegisters l m pc = .ok fields) (hl : l.hasRegisters = true) : pc + 1 < m.size := by
  unfold decodeRegisters at h
  rw [if_pos hl] at h
  obtain ⟨byte, hbyte, -⟩ := exists_of_bind_eq_ok h
  exact (Memory.read_eq_ok_iff.1 hbyte).1.2

/-- Parts that were read lie inside memory with all bytes of the instruction. -/
theorem room_of_parts {opcode : UInt8} {l : Layout} {fields : Option Register × Option Register} {valC : Int}
    (hopcode : m.read pc = .ok opcode) (hregisters : decodeRegisters l m pc = .ok fields)
    (hconstant : decodeConstant l m pc = .ok valC) : 0 ≤ pc ∧ pc < m.size ∧ pc + l.length ≤ m.size := by
  have hpc := (Memory.read_eq_ok_iff.1 hopcode).1
  refine ⟨hpc.1, hpc.2, ?_⟩
  unfold Layout.length
  cases hsome : l.constant.isSome with
  | true =>
    -- the constant comes last
    obtain ⟨word, hword, -⟩ := exists_of_decodeConstant hconstant hsome
    have hroom := (Memory.readQuad_eq_ok_iff.1 hword).1.2
    rw [if_pos rfl]
    omega
  | false =>
    -- the opcode or the register byte comes last
    have hroom := room_of_decodeRegisters hregisters
    rw [if_neg Bool.false_ne_true]
    unfold Layout.constantOffset
    cases hbyte : l.hasRegisters with
    | true =>
      have hinside := hroom hbyte
      rw [if_pos rfl]
      omega
    | false =>
      rw [if_neg Bool.false_ne_true]
      omega

/-- An instruction has an opcode at least. -/
theorem one_le_length (l : Layout) : 1 ≤ l.length := by
  unfold Layout.length Layout.constantOffset
  split <;> split <;> decide

/-- So the bytes behind the opcode can be read. -/
theorem readBytes_of_parts {opcode : UInt8} {l : Layout} {fields : Option Register × Option Register} {valC : Int}
    (hopcode : m.read pc = .ok opcode) (hregisters : decodeRegisters l m pc = .ok fields)
    (hconstant : decodeConstant l m pc = .ok valC) :
    m.readBytes (pc + 1) (l.length - 1) = .ok (m.window (pc.toNat + 1) (l.length - 1)) := by
  obtain ⟨hnonneg, -, hroom⟩ := room_of_parts hopcode hregisters hconstant
  have hlength := one_le_length l
  rw [Memory.readBytes_of_room (by omega) (by omega), show (pc + 1).toNat = pc.toNat + 1 from Int.toNat_add_nat hnonneg 1]

/-- A decoded operation has passed all checks in their order. -/
theorem exists_of_decode (h : decode m pc = .ok op) : ∃ opcode, op.DecodedFrom m pc opcode := by
  unfold decode at h
  obtain ⟨opcode, hopcode, h⟩ := exists_of_bind_eq_ok h
  dsimp only at h
  split at h
  case h_1 => cases h
  case h_2 kind hkind =>
    -- the parts behind the opcode are read in their order
    obtain ⟨_, hfunction, h⟩ := exists_of_bind_eq_ok h
    obtain ⟨⟨rA, rB⟩, hregisters, h⟩ := exists_of_bind_eq_ok h
    obtain ⟨valC, hconstant, h⟩ := exists_of_bind_eq_ok h
    rw [readBytes_of_parts hopcode hregisters hconstant] at h
    cases h
    exact ⟨opcode, hopcode, hkind, hfunction, rfl, hregisters, hconstant, rfl, rfl⟩

/-- Parts that pass their checks make up an operation. -/
theorem decode_of_parts {opcode : UInt8} {kind : InstructionClass} {rA rB : Option Register} {valC : Int}
    (hopcode : m.read pc = .ok opcode) (hkind : InstructionClass.ofCode? (opcode / 16).toNat = some kind)
    (hfunction : kind.layout.checkFunction opcode = .ok ())
    (hregisters : decodeRegisters kind.layout m pc = .ok (rA, rB))
    (hconstant : decodeConstant kind.layout m pc = .ok valC) :
    ∃ op, decode m pc = .ok op ∧ op.kind = kind ∧ op.rA = rA ∧ op.rB = rB ∧ op.valC = valC := by
  unfold decode
  simp only [hopcode, hkind, hfunction, hregisters, hconstant, readBytes_of_parts hopcode hregisters hconstant, bind,
    Except.bind]
  exact ⟨_, rfl, rfl, rfl, rfl, rfl⟩

/-- **Well-formedness.** What is decoded owes nothing to its class. -/
theorem wellFormed_of_decode (h : decode m pc = .ok op) : op.WellFormed := by
  obtain ⟨opcode, hd⟩ := exists_of_decode h
  have hregisters := exists_of_decodeRegisters hd.registers
  have hfunction := hd.function
  unfold Layout.checkFunction at hfunction
  exact
    { first := hregisters.1
      second := hregisters.2
      arithmetic := by
        intro harithmetic
        rw [harithmetic] at hfunction
        dsimp only at hfunction
        split at hfunction
        case isTrue hsome =>
          rw [hd.ifun]
          exact Option.isSome_iff_exists.1 hsome
        case isFalse => cases hfunction
      destination := by
        intro hunsigned
        -- the constant was read as an unsigned word
        obtain ⟨word, -, hvalue⟩ := exists_of_decodeConstant hd.constant (by rw [hunsigned]; rfl)
        rw [hvalue hunsigned]
        exact Int.natCast_nonneg word
      length := hd.length }

/-! ### The codes in the bytes -/

theorem code_of_function {code : Nat} {f : Arithmetic} (h : Arithmetic.ofCode? code = some f) : code = f.code := by
  unfold Arithmetic.ofCode? at h
  rw [if_pos (Int.natCast_nonneg code)] at h
  exact eq_of_getElem?_all Arithmetic.code (by decide) h

theorem code_of_condition {code : Nat} {c : Condition} (h : Condition.ofCode? code = some c) : code = c.code := by
  unfold Condition.ofCode? at h
  rw [if_pos (Int.natCast_nonneg code)] at h
  exact eq_of_getElem?_all Condition.code (by decide) h

namespace DecodedFrom

variable {opcode : UInt8}

/-- The upper half of the opcode is the code of the class. -/
theorem code (h : op.DecodedFrom m pc opcode) : (opcode / 16).toNat = op.kind.code := by
  have hcode := InstructionClass.ofCode?_eq_some h.kind
  omega

/-- The registers of an operation are named by the halves of one byte. -/
theorem exists_fields (h : op.DecodedFrom m pc opcode) (hl : op.kind.layout.hasRegisters = true) :
    ∃ fields, m.read (pc + 1) = .ok fields ∧ (∀ a, op.rA = some a → (fields / 16).toNat = a.index) ∧
      ∀ b, op.rB = some b → (fields % 16).toNat = b.index := by
  have hregisters := h.registers
  unfold decodeRegisters at hregisters
  rw [if_pos hl] at hregisters
  -- one byte holds both fields
  obtain ⟨fields, hread, hregisters⟩ := exists_of_bind_eq_ok hregisters
  obtain ⟨rA, hA, hregisters⟩ := exists_of_bind_eq_ok hregisters
  obtain ⟨rB, hB, hregisters⟩ := exists_of_bind_eq_ok hregisters
  obtain ⟨rfl, rfl⟩ := Prod.mk.inj (Except.ok.inj hregisters)
  refine ⟨fields, hread, fun a ha => ?_, fun b hb => ?_⟩
  · rw [ha] at hA
    exact register_of_decodeRegister hA
  · rw [hb] at hB
    exact register_of_decodeRegister hB

/-- A signed constant is the signed reading of a word. -/
theorem exists_signed (h : op.DecodedFrom m pc opcode) (hl : op.kind.layout.constant = some .signed) :
    ∃ word : Nat, m.readQuad (pc + op.kind.layout.constantOffset) = .ok word ∧ op.valC = Word.signed word := by
  have hconstant := h.constant
  unfold decodeConstant at hconstant
  rw [hl] at hconstant
  exact Memory.readSigned_eq_ok_iff.1 hconstant

/-- An unsigned constant is a word. -/
theorem exists_unsigned (h : op.DecodedFrom m pc opcode) (hl : op.kind.layout.constant = some .unsigned) :
    ∃ word : Nat, m.readQuad (pc + op.kind.layout.constantOffset) = .ok word ∧ op.valC = word := by
  obtain ⟨word, hword, hvalue⟩ := exists_of_decodeConstant h.constant (by rw [hl]; rfl)
  exact ⟨word, hword, hvalue hl⟩

/-- The function code of a conditional instruction names a condition. -/
theorem exists_condition (h : op.DecodedFrom m pc opcode) (hl : op.kind.layout.function = .condition) :
    ∃ c, Condition.ofCode? op.ifun = some c := by
  have hfunction := h.function
  unfold Layout.checkFunction at hfunction
  rw [hl] at hfunction
  dsimp only at hfunction
  split at hfunction
  case isTrue hsome =>
    rw [h.ifun]
    exact Option.isSome_iff_exists.1 hsome
  case isFalse => cases hfunction

end DecodedFrom

/-! ### Bytes inside memory -/

/-- All bytes of a decoded instruction lie inside memory. -/
theorem room_of_decode (h : decode m pc = .ok op) : 0 ≤ pc ∧ pc < m.size ∧ pc + op.length ≤ m.size := by
  obtain ⟨opcode, hd⟩ := exists_of_decode h
  rw [hd.length]
  exact room_of_parts hd.read hd.registers hd.constant

/-- The opcode and the bytes behind it are one stretch of memory. -/
theorem window_of_decode (h : decode m pc = .ok op) :
    m.byteAt pc.toNat :: op.operandBytes = m.window pc.toNat op.length.toNat := by
  obtain ⟨opcode, hd⟩ := exists_of_decode h
  have hlength : op.length.toNat = op.kind.layout.length - 1 + 1 := by
    rw [hd.length, Int.toNat_natCast, Nat.sub_add_cancel (one_le_length _)]
  rw [hd.operands, hlength, Memory.window_succ]

/-! ### Faults -/

/-- A function code that is refused makes an instruction invalid. -/
theorem status_of_checkFunction_eq_error {l : Layout} {opcode : UInt8} {fault : Fault}
    (h : l.checkFunction opcode = .error fault) : fault.status? = some .ins := by
  unfold Layout.checkFunction at h
  dsimp only at h
  -- each of the three checks has one fault of its own
  split at h <;> split at h <;> cases h <;> rfl

theorem status_of_decodeRegister_eq_error {wanted : Bool} {code : UInt8} {fault : Fault}
    (h : decodeRegister wanted code = .error fault) : fault.status? = some .ins := by
  rw [(decodeRegister_eq_error h).2.2]
  rfl

/-- A register byte is cut off, or a field of it makes the instruction invalid. -/
theorem status_of_decodeRegisters_eq_error {l : Layout} {fault : Fault} (h : decodeRegisters l m pc = .error fault) :
    fault.status? = some .adr ∨ fault.status? = some .ins := by
  unfold decodeRegisters at h
  split at h
  case isTrue =>
    rcases exists_of_bind_eq_error h with hread | ⟨fields, -, h⟩
    · -- the byte itself may be outside of memory
      exact Or.inl (Memory.read_eq_error hread)
    · rcases exists_of_bind_eq_error h with hfirst | ⟨a, -, h⟩
      · exact Or.inr (status_of_decodeRegister_eq_error hfirst)
      · rcases exists_of_bind_eq_error h with hsecond | ⟨b, -, h⟩
        · exact Or.inr (status_of_decodeRegister_eq_error hsecond)
        · cases h
  case isFalse => cases h

/-- A constant is only refused because it is cut off. -/
theorem status_of_decodeConstant_eq_error {l : Layout} {fault : Fault} (h : decodeConstant l m pc = .error fault) :
    fault.status? = some .adr := by
  unfold decodeConstant at h
  split at h
  case h_1 => cases h
  case h_2 => exact (Memory.readSigned_eq_error h).2
  case h_3 => exact (Memory.readQuad_eq_error (eq_error_of_map h)).2

/-- Where nothing can be decoded, an address is out of bounds or the instruction is invalid. -/
theorem status_of_decode_eq_error {fault : Fault} (h : decode m pc = .error fault) :
    fault.status? = some .adr ∨ fault.status? = some .ins := by
  unfold decode at h
  rcases exists_of_bind_eq_error h with hopcode | ⟨opcode, hread, h⟩
  · exact Or.inl (Memory.read_eq_error hopcode)
  · dsimp only at h
    split at h
    case h_1 => cases h; exact Or.inr rfl
    case h_2 =>
      rcases exists_of_bind_eq_error h with hfunction | ⟨_, -, h⟩
      · exact Or.inr (status_of_checkFunction_eq_error hfunction)
      · rcases exists_of_bind_eq_error h with hregisters | ⟨fields, hfields, h⟩
        · exact status_of_decodeRegisters_eq_error hregisters
        · rcases exists_of_bind_eq_error h with hconstant | ⟨valC, hvalue, h⟩
          · exact Or.inl (status_of_decodeConstant_eq_error hconstant)
          · -- with all parts read, the operand bytes can be read too
            rw [readBytes_of_parts hread hfields hvalue] at h
            cases h

/-- Behind the end of memory nothing can be decoded. -/
theorem decode_of_not_inside (h : ¬(0 ≤ pc ∧ pc < m.size)) :
    ∃ fault, decode m pc = .error fault ∧ fault.status? = some .adr := by
  unfold decode
  cases hread : m.read pc with
  | ok byte => exact absurd (Memory.read_eq_ok_iff.1 hread).1 h
  | error fault => exact ⟨fault, rfl, Memory.read_eq_error hread⟩

end Operation

end Y86
