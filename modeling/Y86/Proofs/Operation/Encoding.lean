import Mathlib.Data.Option.Basic
import Y86.Proofs.Operation.Decode

/-!
# The encoding of instructions

What bytes are an instruction is said here by numbers alone, without the table that decoding goes by: which function
codes an instruction code has, which of its register fields are required, and how many bytes it takes. Memory holds an
instruction at a position if its opcode is valid, no required register is missing, and all of its bytes lie inside
memory (`Encoding.Held`). Decoding succeeds exactly there, its result has the fields that the bytes encode
(`Operation.EncodedBy`), and from any other memory that holds the same bytes the same is decoded
(`Operation.decode_exact`).

Where nothing is held, the fault is that of an invalid instruction if the bytes which are there show it
(`Encoding.Malformed`). So a missing register is found though the constant behind it is cut off by the end of memory,
while a register byte that is cut off itself is a matter of the address.
-/

namespace Y86

open Text

/-! ### What is encoded -/

namespace Encoding

/-- The upper half of a byte. -/
def high (b : UInt8) : Nat := b.toNat / 16

/-- The lower half of a byte. -/
def low (b : UInt8) : Nat := b.toNat % 16

/-- The last of the function codes that an instruction code has. -/
def lastFunction : Nat → Nat
  | 2 | 7 => 6
  | 6 => 3
  | _ => 0

def requiresFirst (icode : Nat) : Bool := icode ∈ [2, 4, 5, 6, 10, 11]

def requiresSecond (icode : Nat) : Bool := icode ∈ [2, 3, 4, 5, 6]

/-- The number of bytes of an instruction. -/
def size : Nat → Nat
  | 2 | 6 | 10 | 11 => 2
  | 3 | 4 | 5 => 10
  | 7 | 8 => 9
  | _ => 1

/-- The constant in the bytes behind an opcode: signed behind a register byte, unsigned without one. -/
def constant (icode : Nat) (operands : List UInt8) : Int :=
  if icode ∈ [3, 4, 5] then Word.signed (Word.ofBytes (operands.drop 1))
  else if icode ∈ [7, 8] then Word.ofBytes operands
  else 0

def ValidOpcode (opcode : UInt8) : Prop := high opcode ≤ 11 ∧ low opcode ≤ lastFunction (high opcode)

/-- No required register is missing, which the code 15 stands for. -/
def ValidFields (opcode fields : UInt8) : Prop :=
  (requiresFirst (high opcode) = true → high fields ≠ 15) ∧ (requiresSecond (high opcode) = true → low fields ≠ 15)

/-- Memory holds an instruction at a position. -/
structure Held (m : Memory) (p : Nat) : Prop where
  opcode : ValidOpcode (m.byteAt p)
  fields : ValidFields (m.byteAt p) (m.byteAt (p + 1))
  room : p + size (high (m.byteAt p)) ≤ m.size

/-- The opcode is invalid, or the register byte lies inside memory and a required register is missing. -/
def Malformed (m : Memory) (p : Nat) : Prop :=
  ¬ValidOpcode (m.byteAt p) ∨ p + 1 < m.size ∧ ¬ValidFields (m.byteAt p) (m.byteAt (p + 1))

instance (opcode : UInt8) : Decidable (ValidOpcode opcode) := inferInstanceAs (Decidable (_ ∧ _))

instance (opcode fields : UInt8) : Decidable (ValidFields opcode fields) := inferInstanceAs (Decidable (_ ∧ _))

instance (m : Memory) (p : Nat) : Decidable (Malformed m p) := inferInstanceAs (Decidable (_ ∨ _))

/-! ### Codes and classes -/

/-- Half a byte is taken by division, also inside a byte. -/
theorem toNat_div_sixteen (b : UInt8) : (b / 16).toNat = high b := UInt8.toNat_div b 16

theorem toNat_mod_sixteen (b : UInt8) : (b % 16).toNat = low b := UInt8.toNat_mod b 16

theorem high_lt (b : UInt8) : high b < 16 := by
  have hb : b.toNat < 256 := b.toNat_lt
  unfold high
  omega

theorem low_lt (b : UInt8) : low b < 16 := Nat.mod_lt _ (by decide)

theorem size_pos (icode : Nat) : 0 < size icode := by
  unfold size
  split <;> decide

/-- A required register takes a byte. -/
theorem two_le_size {icode : Nat} (h : requiresFirst icode = true ∨ requiresSecond icode = true) : 2 ≤ size icode := by
  have hmem : icode ∈ [2, 3, 4, 5, 6, 10, 11] := by
    rcases h with h | h
    · exact (by decide : [2, 4, 5, 6, 10, 11] ⊆ [2, 3, 4, 5, 6, 10, 11]) (of_decide_eq_true h)
    · exact (by decide : [2, 3, 4, 5, 6] ⊆ [2, 3, 4, 5, 6, 10, 11]) (of_decide_eq_true h)
  exact (by decide : ∀ icode ∈ [2, 3, 4, 5, 6, 10, 11], 2 ≤ size icode) icode hmem

/-- A constant never stands at the opcode. -/
theorem one_le_constantOffset (l : Layout) : 1 ≤ l.constantOffset := by
  unfold Layout.constantOffset
  split <;> decide

section Class

variable (k : InstructionClass)

theorem layout_first : k.layout.first = requiresFirst k.code := by cases k <;> rfl

theorem layout_second : k.layout.second = requiresSecond k.code := by cases k <;> rfl

/-- The layout of a class is as long as the table of sizes says. -/
theorem layout_length : k.layout.length = size k.code := by cases k <;> rfl

theorem code_le : k.code ≤ 11 := by cases k <;> decide

/-- The table of constants and the layout of a class read the same bytes, and read them alike. -/
theorem constant_code (operands : List UInt8) :
    constant k.code operands = match k.layout.constant with
      | none => 0
      | some .signed => Word.signed (Word.ofBytes (operands.drop (k.layout.constantOffset - 1)))
      | some .unsigned => Word.ofBytes (operands.drop (k.layout.constantOffset - 1)) := by
  cases k <;>
    simp [constant, InstructionClass.code, InstructionClass.layout, Layout.constantOffset, Layout.hasRegisters]

/-- A register byte is there if one of its fields is required. -/
theorem hasRegisters_iff :
    k.layout.hasRegisters = true ↔ requiresFirst k.code = true ∨ requiresSecond k.code = true := by
  rw [← layout_first, ← layout_second]
  exact Bool.or_eq_true_iff

/-- The last function code by what the codes select. -/
def last : FunctionCode → Nat
  | .unused => 0
  | .condition => 6
  | .arithmetic => 3

/-- The last function code of a class is told by what the code selects. -/
theorem last_function : last k.layout.function = lastFunction k.code := by cases k <;> rfl

end Class

section Code

variable {n : Nat}

/-- There are twelve classes, numbered through. -/
theorem ofCode?_eq_none (h : InstructionClass.ofCode? n = none) : 11 < n := by
  unfold InstructionClass.ofCode? at h
  rw [if_pos (Int.natCast_nonneg n)] at h
  exact List.getElem?_eq_none_iff.1 h

/-- There are seven conditions, numbered through. -/
theorem isSome_condition : (Condition.ofCode? n).isSome = true ↔ n ≤ 6 := by
  unfold Condition.ofCode?
  rw [if_pos (Int.natCast_nonneg n), isSome_getElem?, ← Nat.lt_succ_iff]
  rfl

/-- There are four functions, numbered through. -/
theorem isSome_arithmetic : (Arithmetic.ofCode? n).isSome = true ↔ n ≤ 3 := by
  unfold Arithmetic.ofCode?
  rw [if_pos (Int.natCast_nonneg n), isSome_getElem?, ← Nat.lt_succ_iff]
  rfl

theorem ite_eq_ok_iff {c : Prop} [Decidable c] {fault : Fault} :
    (if c then Except.ok () else Except.error fault) = Except.ok () ↔ c := by
  split
  case isTrue hc => exact ⟨fun _ => hc, fun _ => rfl⟩
  case isFalse hc => exact ⟨fun h => (nomatch h), fun h => absurd h hc⟩

/-- A function code is admitted up to the last one, whatever it selects. -/
theorem checkFunction_eq_ok_iff {l : Layout} {opcode : UInt8} :
    l.checkFunction opcode = .ok () ↔ low opcode ≤ last l.function := by
  unfold Layout.checkFunction
  dsimp only
  rw [toNat_mod_sixteen]
  split
  case h_1 h => rw [ite_eq_ok_iff, h, last, Nat.le_zero, Int.natCast_eq_zero]
  case h_2 h => rw [ite_eq_ok_iff, h, last, isSome_condition]
  case h_3 h => rw [ite_eq_ok_iff, h, last, isSome_arithmetic]

end Code

section Valid

variable {k : InstructionClass} {opcode fields : UInt8}

/-- An opcode is valid if its function code passes the check of its class. -/
theorem validOpcode_iff (hcode : high opcode = k.code) : ValidOpcode opcode ↔ k.layout.checkFunction opcode = .ok () := by
  unfold ValidOpcode
  rw [checkFunction_eq_ok_iff, last_function, hcode]
  exact and_iff_right (code_le k)

/-- Register fields are valid if those that the class requires hold registers. -/
theorem validFields_iff (hcode : high opcode = k.code) : ValidFields opcode fields ↔
    (k.layout.first = true → high fields ≠ 15) ∧ (k.layout.second = true → low fields ≠ 15) := by
  unfold ValidFields
  rw [hcode, layout_first, layout_second]

/-- An instruction is malformed by its opcode or by its fields, and by nothing else. -/
theorem not_malformed {m : Memory} {p : Nat} (hopcode : ValidOpcode (m.byteAt p))
    (hfields : p + 1 < m.size → ValidFields (m.byteAt p) (m.byteAt (p + 1))) : ¬Malformed m p := by
  rintro (hinvalid | ⟨hin, hinvalid⟩)
  · exact hinvalid hopcode
  · exact hinvalid (hfields hin)

end Valid

end Encoding

namespace Operation

open Encoding

variable {m m' : Memory} {p p' : Nat} {op op' : Operation} {fault : Fault} {opcode : UInt8}

/-- The fields of an operation are those that bytes encode. -/
structure EncodedBy (op : Operation) (opcode : UInt8) (operands : List UInt8) : Prop where
  opcode_eq : op.opcode = Hex.byteUpper opcode
  code_eq : op.kind.code = high opcode
  ifun_eq : op.ifun = low opcode
  rA_eq : op.rA.map (fun r => (r.index : Nat)) =
    if requiresFirst (high opcode) then some (high (operands.headD 0)) else none
  rB_eq : op.rB.map (fun r => (r.index : Nat)) =
    if requiresSecond (high opcode) then some (low (operands.headD 0)) else none
  valC_eq : op.valC = constant (high opcode) operands
  length_eq : op.length = size (high opcode)
  operandBytes_eq : op.operandBytes = operands

/-- Bytes encode one operation at most. -/
theorem EncodedBy.unique {operands : List UInt8} (h : op.EncodedBy opcode operands)
    (h' : op'.EncodedBy opcode operands) : op = op' := by
  have hindex : Function.Injective fun r : Register => (r.index : Nat) := fun r r' hr =>
    Register.index_injective (Fin.ext hr)
  -- the code of an instruction class determines it
  have hkind : op.kind = op'.kind := by
    have hcode := InstructionClass.ofCode?_code op.kind
    rw [h.code_eq, ← h'.code_eq, InstructionClass.ofCode?_code] at hcode
    exact (Option.some.inj hcode).symm
  have hrA := Option.map_injective hindex (h.rA_eq.trans h'.rA_eq.symm)
  have hrB := Option.map_injective hindex (h.rB_eq.trans h'.rB_eq.symm)
  cases op
  cases op'
  rw [mk.injEq]
  exact ⟨h.opcode_eq.trans h'.opcode_eq.symm, hkind, h.ifun_eq.trans h'.ifun_eq.symm, hrA, hrB,
    h.valC_eq.trans h'.valC_eq.symm, h.length_eq.trans h'.length_eq.symm,
    h.operandBytes_eq.trans h'.operandBytes_eq.symm⟩

/-! ### Register fields -/

/-- Register fields that are decoded are those of the byte behind the opcode. -/
theorem decodeRegisters_eq_ok {l : Layout} {rA rB : Option Register} (h : decodeRegisters l m p = .ok (rA, rB)) :
    ((l.first = true → high (m.byteAt (p + 1)) ≠ 15) ∧ (l.second = true → low (m.byteAt (p + 1)) ≠ 15)) ∧
      rA.map (fun r => (r.index : Nat)) = (if l.first then some (high (m.byteAt (p + 1))) else none) ∧
      rB.map (fun r => (r.index : Nat)) = if l.second then some (low (m.byteAt (p + 1))) else none := by
  unfold decodeRegisters at h
  split at h
  case isTrue =>
    obtain ⟨fields, hfields, h⟩ := exists_of_bind_eq_ok h
    obtain ⟨a, ha, h⟩ := exists_of_bind_eq_ok h
    obtain ⟨b, hb, h⟩ := exists_of_bind_eq_ok h
    cases h
    obtain rfl : fields = m.byteAt (p + 1) := (Memory.read_eq_ok_iff.1 hfields).2
    obtain ⟨hfirst, hrA⟩ := decodeRegister_eq_ok ha
    obtain ⟨hsecond, hrB⟩ := decodeRegister_eq_ok hb
    rw [toNat_div_sixteen] at hfirst hrA
    rw [toNat_mod_sixteen] at hsecond hrB
    exact ⟨⟨hfirst, hsecond⟩, hrA, hrB⟩
  case isFalse hnone =>
    -- without a register byte neither field is required
    unfold Layout.hasRegisters at hnone
    rw [Bool.not_eq_true, Bool.or_eq_false_iff] at hnone
    cases h
    rw [hnone.1, hnone.2]
    exact ⟨⟨nofun, nofun⟩, rfl, rfl⟩

/-- Register fields are refused because the byte is cut off, or because a required one is empty. -/
theorem decodeRegisters_eq_error {l : Layout} (h : decodeRegisters l m p = .error fault) :
    l.hasRegisters = true ∧ (m.size ≤ p + 1 ∧ fault.status? = some .adr ∨
      p + 1 < m.size ∧ fault.status? = some .ins ∧
        ¬((l.first = true → high (m.byteAt (p + 1)) ≠ 15) ∧ (l.second = true → low (m.byteAt (p + 1)) ≠ 15))) := by
  unfold decodeRegisters at h
  split at h
  case isTrue hregisters =>
    refine ⟨hregisters, ?_⟩
    rcases exists_of_bind_eq_error h with hread | ⟨fields, hread, h⟩
    · refine Or.inl ⟨Nat.le_of_not_lt fun hin => ?_, Memory.read_eq_error hread⟩
      have hok : m.read (p + 1) = .ok (m.byteAt (p + 1)) := Memory.read_eq_ok_iff.2 ⟨by omega, rfl⟩
      rw [hok] at hread
      cases hread
    · obtain ⟨hin, hfields⟩ := Memory.read_eq_ok_iff.1 hread
      obtain rfl : fields = m.byteAt (p + 1) := hfields
      refine Or.inr ⟨by omega, ?_⟩
      -- the fields are looked at one after the other
      rcases exists_of_bind_eq_error h with hfirst | ⟨a, -, h⟩
      · obtain ⟨hwanted, hcode, -⟩ := decodeRegister_eq_error hfirst
        have hlt := high_lt (m.byteAt (p + 1))
        rw [toNat_div_sixteen] at hcode
        exact ⟨status_of_decodeRegister_eq_error hfirst, fun hpresent => hpresent.1 hwanted (by omega)⟩
      · rcases exists_of_bind_eq_error h with hsecond | ⟨b, -, h⟩
        · obtain ⟨hwanted, hcode, -⟩ := decodeRegister_eq_error hsecond
          have hlt := low_lt (m.byteAt (p + 1))
          rw [toNat_mod_sixteen] at hcode
          exact ⟨status_of_decodeRegister_eq_error hsecond, fun hpresent => hpresent.2 hwanted (by omega)⟩
        · cases h
  case isFalse => cases h

/-- A constant is refused only because it is cut off. -/
theorem decodeConstant_eq_error {l : Layout} (h : decodeConstant l m p = .error fault) :
    m.size < p + l.length ∧ fault.status? = some .adr := by
  -- the constant is the last part, so where it is cut off the instruction is
  have hcut : l.constant.isSome = true → ¬m.HasQuad (p + l.constantOffset) → m.size < p + l.length := by
    intro hsome hout
    unfold Layout.length
    unfold Memory.HasQuad at hout
    rw [if_pos hsome]
    omega
  unfold decodeConstant at h
  split at h
  case h_1 => cases h
  case h_2 hsigned =>
    obtain ⟨hout, hadr⟩ := Memory.readSigned_eq_error h
    exact ⟨hcut (by rw [hsigned]; rfl) hout, hadr⟩
  case h_3 hunsigned =>
    obtain ⟨hout, hadr⟩ := Memory.readQuad_eq_error (eq_error_of_map h)
    exact ⟨hcut (by rw [hunsigned]; rfl) hout, hadr⟩

/-! ### The bytes of an instruction -/

/-- The opcode is shown as it stands in memory. -/
theorem opcode_of_decode (h : decode m p = .ok op) : op.opcode = Hex.byteUpper (m.byteAt p) := by
  unfold decode at h
  obtain ⟨opcode, hopcode, h⟩ := exists_of_bind_eq_ok h
  dsimp only at h
  split at h
  case h_1 => cases h
  case h_2 =>
    -- the checks that follow leave the first byte as it was read
    obtain ⟨_, -, h⟩ := exists_of_bind_eq_ok h
    obtain ⟨⟨rA, rB⟩, -, h⟩ := exists_of_bind_eq_ok h
    obtain ⟨valC, -, h⟩ := exists_of_bind_eq_ok h
    obtain ⟨bytes, -, h⟩ := exists_of_bind_eq_ok h
    cases h
    obtain rfl : opcode = m.byteAt p := (Memory.read_eq_ok_iff.1 hopcode).2
    rfl

theorem headD_window {i n : Nat} (h : 0 < n) : (m.window i n).headD 0 = m.byteAt i := by
  obtain ⟨n, rfl⟩ := Nat.exists_eq_succ_of_ne_zero (Nat.pos_iff_ne_zero.1 h)
  rw [Memory.window_succ]
  rfl

/-- A constant stands at the end of an instruction. -/
theorem valC_of_constant {l : Layout} {valC : Int} (h : decodeConstant l m p = .ok valC) :
    valC = match l.constant with
      | none => 0
      | some .signed => Word.signed (Word.ofBytes ((m.window (p + 1) (l.length - 1)).drop (l.constantOffset - 1)))
      | some .unsigned => Word.ofBytes ((m.window (p + 1) (l.length - 1)).drop (l.constantOffset - 1)) := by
  have hoffset := one_le_constantOffset l
  -- the word of the constant is the end of the window of the operand bytes
  have hwindow : l.constant.isSome = true → m.window ((p : Int) + l.constantOffset).toNat Memory.wordSize =
      (m.window (p + 1) (l.length - 1)).drop (l.constantOffset - 1) := by
    intro hsome
    have hstart : ((p : Int) + l.constantOffset).toNat = p + 1 + (l.constantOffset - 1) := by omega
    have hrest : l.constantOffset + Memory.wordSize - 1 - (l.constantOffset - 1) = Memory.wordSize := by omega
    unfold Layout.length
    rw [if_pos hsome, Memory.drop_window, hstart, hrest]
  unfold decodeConstant at h
  cases hconstant : l.constant with
  | none =>
    rw [hconstant] at h
    exact (Except.ok.inj h).symm
  | some reading =>
    rw [hconstant] at h hwindow
    have hword := hwindow rfl
    cases reading with
    | signed =>
      obtain ⟨word, hread, hvalue⟩ := Memory.readSigned_eq_ok_iff.1 h
      rw [hvalue, (Memory.readQuad_eq_ok_iff.1 hread).2, hword]
    | unsigned =>
      obtain ⟨word, hread, rfl⟩ := exists_of_map_eq_ok h
      rw [(Memory.readQuad_eq_ok_iff.1 hread).2, hword]

/-- **Reading.** Every part of a decoded operation is where the encoding puts it. -/
theorem encodedBy_of_decode (h : decode m p = .ok op) : op.EncodedBy (m.byteAt p) op.operandBytes := by
  obtain ⟨opcode, hd⟩ := exists_of_decode h
  obtain rfl : opcode = m.byteAt p := (Memory.read_eq_ok_iff.1 hd.read).2
  have hcode : high (m.byteAt p) = op.kind.code := by rw [← toNat_div_sixteen, hd.code]
  obtain ⟨-, hrA, hrB⟩ := decodeRegisters_eq_ok hd.registers
  have hoperands : op.operandBytes = m.window (p + 1) (op.kind.layout.length - 1) := hd.operands
  -- the first byte behind the opcode, if there is one
  have hfields : op.kind.layout.hasRegisters = true → op.operandBytes.headD 0 = m.byteAt (p + 1) := by
    intro hregisters
    have hsize := two_le_size ((hasRegisters_iff op.kind).1 hregisters)
    rw [← layout_length] at hsize
    rw [hoperands, headD_window (by omega)]
  exact
    { opcode_eq := opcode_of_decode h
      code_eq := hcode.symm
      ifun_eq := by rw [hd.ifun, toNat_mod_sixteen]
      rA_eq := by
        rw [hrA, hcode, ← layout_first]
        refine if_ctx_congr Iff.rfl (fun hfirst => ?_) fun _ => rfl
        rw [hfields (Bool.or_eq_true_iff.2 (Or.inl hfirst))]
      rB_eq := by
        rw [hrB, hcode, ← layout_second]
        refine if_ctx_congr Iff.rfl (fun hsecond => ?_) fun _ => rfl
        rw [hfields (Bool.or_eq_true_iff.2 (Or.inr hsecond))]
      valC_eq := by
        rw [hcode, constant_code, hoperands]
        exact valC_of_constant hd.constant
      length_eq := by rw [hd.length, layout_length, hcode]
      operandBytes_eq := rfl }

/-- What is decoded is held by memory: it is valid, and all of it is there. -/
theorem held_of_decode (h : decode m p = .ok op) : Held m p := by
  obtain ⟨opcode, hd⟩ := exists_of_decode h
  obtain rfl : opcode = m.byteAt p := (Memory.read_eq_ok_iff.1 hd.read).2
  have hcode : high (m.byteAt p) = op.kind.code := by rw [← toNat_div_sixteen, hd.code]
  exact
    { opcode := (validOpcode_iff hcode).2 hd.function
      fields := (validFields_iff hcode).2 (decodeRegisters_eq_ok hd.registers).1
      room := by
        have hroom := (room_of_decode h).2.2
        rw [hd.length, layout_length, ← hcode] at hroom
        exact_mod_cast hroom }

/-- The cause of a fault is the first one in the order of the checks. Those that come before it were passed. -/
theorem decode_eq_error (hp : p < m.size) (h : decode m p = .error fault) :
    (Malformed m p ∧ fault.status? = some .ins) ∨
      (¬Malformed m p ∧ m.size < p + size (high (m.byteAt p)) ∧ fault.status? = some .adr) := by
  have hread : m.read p = .ok (m.byteAt p) := Memory.read_eq_ok_iff.2 ⟨by omega, rfl⟩
  unfold decode at h
  obtain hout | ⟨opcode, hopcode, h⟩ := exists_of_bind_eq_error h
  · rw [hread] at hout
    cases hout
  obtain rfl : m.byteAt p = opcode := Except.ok.inj (hread.symm.trans hopcode)
  dsimp only at h
  rw [toNat_div_sixteen] at h
  split at h
  case h_1 hnone =>
    -- no class has the code
    cases h
    exact Or.inl ⟨Or.inl fun hvalid => absurd hvalid.1 (Nat.not_le.2 (ofCode?_eq_none hnone)), rfl⟩
  case h_2 kind hkind =>
    have hcode : high (m.byteAt p) = kind.code := by exact_mod_cast InstructionClass.ofCode?_eq_some hkind
    rcases exists_of_bind_eq_error h with hfunction | ⟨_, hfunction, h⟩
    · -- the function code is refused
      refine Or.inl ⟨Or.inl fun hvalid => ?_, status_of_checkFunction_eq_error hfunction⟩
      rw [(validOpcode_iff hcode).1 hvalid] at hfunction
      cases hfunction
    have hopcode := (validOpcode_iff hcode).2 hfunction
    rcases exists_of_bind_eq_error h with hregisters | ⟨⟨rA, rB⟩, hregisters, h⟩
    · obtain ⟨hbyte, ⟨hcut, hadr⟩ | ⟨hin, hins, hmissing⟩⟩ := decodeRegisters_eq_error hregisters
      · -- the register byte is cut off
        have hsize := two_le_size ((hasRegisters_iff kind).1 hbyte)
        rw [← hcode] at hsize
        exact Or.inr ⟨not_malformed hopcode fun hin => by omega, by omega, hadr⟩
      · -- the register byte is there, and a register that is required is missing
        exact Or.inl ⟨Or.inr ⟨hin, fun hvalid => hmissing ((validFields_iff hcode).1 hvalid)⟩, hins⟩
    have hfields := (validFields_iff hcode).2 (decodeRegisters_eq_ok hregisters).1
    rcases exists_of_bind_eq_error h with hconstant | ⟨valC, hconstant, h⟩
    · -- the constant is cut off, behind register fields that are in order
      obtain ⟨hcut, hadr⟩ := decodeConstant_eq_error hconstant
      rw [layout_length, ← hcode] at hcut
      exact Or.inr ⟨not_malformed hopcode fun _ => hfields, hcut, hadr⟩
    · -- with the constant all bytes lie inside memory
      rw [readBytes_of_parts hread hregisters hconstant] at h
      cases h

/-- **Success.** An instruction is decoded exactly if memory holds one. -/
theorem exists_decode_iff (hp : p < m.size) : (∃ op, decode m p = .ok op) ↔ Held m p := by
  constructor
  · rintro ⟨op, hop⟩
    exact held_of_decode hop
  · intro h
    cases hdecode : decode m p with
    | ok op => exact ⟨op, rfl⟩
    | error fault =>
      rcases decode_eq_error hp hdecode with ⟨hmalformed | hmalformed, -⟩ | ⟨-, hroom, -⟩
      · exact absurd h.opcode hmalformed
      · exact absurd h.fields hmalformed.2
      · exact absurd h.room (Nat.not_le.2 hroom)

/-- An instruction is held wherever its bytes are. -/
theorem held_of_window (h : Held m p) (hroom : p' + size (high (m.byteAt p)) ≤ m'.size)
    (hbytes : m'.window p' (size (high (m.byteAt p))) = m.window p (size (high (m.byteAt p)))) :
    m'.byteAt p' = m.byteAt p ∧ Held m' p' := by
  obtain ⟨n, hn⟩ := Nat.exists_eq_add_of_lt (size_pos (high (m.byteAt p)))
  rw [Nat.zero_add] at hn
  rw [hn, Memory.window_succ, Memory.window_succ] at hbytes
  obtain ⟨hopcode, hrest⟩ := List.cons_eq_cons.1 hbytes
  -- the register byte is the same, if there is one
  have hnext : requiresFirst (high (m.byteAt p)) = true ∨ requiresSecond (high (m.byteAt p)) = true →
      m'.byteAt (p' + 1) = m.byteAt (p + 1) := by
    intro hrequired
    have hsize := two_le_size hrequired
    have hhead := congrArg (·.headD 0) hrest
    rwa [headD_window (by omega), headD_window (by omega)] at hhead
  exact ⟨hopcode,
    { opcode := hopcode ▸ h.opcode
      fields := by
        unfold ValidFields
        rw [hopcode]
        constructor
        · intro hfirst
          rw [hnext (Or.inl hfirst)]
          exact h.fields.1 hfirst
        · intro hsecond
          rw [hnext (Or.inr hsecond)]
          exact h.fields.2 hsecond
      room := by rwa [hopcode] }⟩

/-- What is decoded depends on the bytes of the instruction only. -/
theorem decode_of_window (h : decode m p = .ok op) (hroom : p' + op.length ≤ m'.size)
    (hbytes : m'.window p' op.length.toNat = m.window p op.length.toNat) : decode m' p' = .ok op := by
  have hencoded := encodedBy_of_decode h
  have hlength := hencoded.length_eq
  have hcount : op.length.toNat = size (high (m.byteAt p)) := by omega
  obtain ⟨hopcode, hheld⟩ := held_of_window (held_of_decode h) (by omega) (hcount ▸ hbytes)
  have hpos := size_pos (high (m.byteAt p))
  obtain ⟨op', hop'⟩ := (exists_decode_iff (by omega)).2 hheld
  have hencoded' := encodedBy_of_decode hop'
  -- both operations are encoded by the bytes that the memories share
  have hlength' : op'.length = op.length := by rw [hencoded'.length_eq, hopcode, hlength]
  have hwindow : m.byteAt p :: op.operandBytes = m.window p op.length.toNat := window_of_decode h
  have hwindow' : m'.byteAt p' :: op'.operandBytes = m'.window p' op'.length.toNat := window_of_decode hop'
  rw [hlength', hbytes, ← hwindow, hopcode] at hwindow'
  rw [hopcode, List.tail_eq_of_cons_eq hwindow'] at hencoded'
  rw [hop', hencoded'.unique hencoded]

/-- **Decoding accepts exactly the encodings**, says of everything else what is wrong with it, and yields the fields of
the bytes, whatever memory they are read from. -/
theorem decode_exact (hp : p < m.size) :
    ((∃ op, decode m p = .ok op) ↔ Held m p) ∧
      (∀ fault, decode m p = .error fault →
        (Malformed m p ∧ fault.status? = some .ins) ∨ (¬Malformed m p ∧ fault.status? = some .adr)) ∧
      ∀ op, decode m p = .ok op →
        m.byteAt p :: op.operandBytes = m.window p op.length.toNat ∧ op.EncodedBy (m.byteAt p) op.operandBytes ∧
          ∀ m' : Memory, ∀ p' : Nat, p' + op.length ≤ m'.size →
            m'.window p' op.length.toNat = m.window p op.length.toNat → decode m' p' = .ok op := by
  refine ⟨exists_decode_iff hp, fun fault hfault => ?_, fun op hop => ?_⟩
  · rcases decode_eq_error hp hfault with hins | ⟨hshape, -, hadr⟩
    · exact Or.inl hins
    · exact Or.inr ⟨hshape, hadr⟩
  · exact ⟨window_of_decode hop, encodedBy_of_decode hop, fun m' p' => decode_of_window hop⟩

/-- The register that a constant should be moved to is missing, and the constant is cut off: the instruction is invalid,
and its address is not looked at. -/
theorem decode_exact_cut_constant :
    let m : Memory := ⟨⟨#[0x30, 0x0F, 0x01]⟩, [], by decide⟩
    0 < m.size ∧ ¬Held m 0 ∧ ∃ fault, decode m (0 : Nat) = .error fault ∧ fault.status? = some .ins := by
  intro m
  obtain ⟨hheld, hfault, -⟩ := decode_exact (show 0 < m.size by decide)
  -- the register byte comes first, and it asks for no register where one is required
  have hnone : ¬Held m 0 := fun h => absurd h.fields (by decide)
  refine ⟨by decide, hnone, ?_⟩
  cases hdecode : decode m (0 : Nat) with
  | ok op => exact absurd (hheld.1 ⟨op, hdecode⟩) hnone
  | error fault =>
    rcases hfault fault hdecode with ⟨-, hins⟩ | ⟨hshape, -⟩
    · exact ⟨fault, rfl, hins⟩
    · exact absurd (show Malformed m 0 by decide) hshape

end Operation

end Y86
