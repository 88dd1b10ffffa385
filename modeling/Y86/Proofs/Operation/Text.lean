import Y86.Machine.Execute
import Y86.Proofs.Operation.Encoding
import Y86.Proofs.Text.Separator

/-!
# The text of an instruction

An instruction is known from its text (`Operation.text_determines`). The text begins with the mnemonic, which contains
no blank, and no two pairs of a class and a function code have the same mnemonic. Behind it are the operands, which
contain no comma, so that each of them can be found again; and an operand is known from its text. Fields which the text
does not show are empty in every operation that was decoded.

What the text does not tell is the half of a register byte that an instruction ignores. Execution does not look at it
(`Machine.execute_congr`).

No text of an instruction begins with a dot (`Operation.toList_text_ne`), as the one of a byte of data does.
-/

namespace Y86

open Text

/-- The text begins, and not with a dot. -/
def Text.undotted (s : String) : Bool := s.toList.head?.any (· != '.')

namespace Operation

open Encoding

variable {op op' : Operation} {n n' : Nat}

/-- Whether a text begins with a dot is told by its beginning, if there is one. -/
theorem undotted_append {s : String} (h : undotted s = true) (rest : String) : undotted (s ++ rest) = true := by
  unfold undotted at h ⊢
  rw [String.toList_append]
  cases hs : s.toList with
  | nil => rw [hs] at h; cases h
  | cons c cs => rw [hs] at h; exact h

theorem undotted_mnemonic (op : Operation) : undotted op.mnemonic = true := by
  unfold mnemonic
  cases op.kind
  -- only these three classes choose the mnemonic by the function code
  case rrmovq =>
    dsimp only
    split
    · decide
    · exact undotted_append (by decide) _
  case jxx =>
    dsimp only
    split
    · decide
    · exact undotted_append (by decide) _
  case opq =>
    dsimp only
    cases Arithmetic.ofCode? op.ifun with
    | none => decide
    | some f => cases f <;> decide
  all_goals
    dsimp only
    decide

/-- No operation looks like a row of data, which begins with a dot. -/
theorem undotted_text (op : Operation) : undotted op.text = true := by
  unfold text
  split
  · exact op.undotted_mnemonic
  · rw [String.append_assoc]
    exact undotted_append op.undotted_mnemonic _

theorem toList_text_ne (op : Operation) (rest : List Char) : op.text.toList ≠ '.' :: rest := by
  intro h
  have hundotted := op.undotted_text
  unfold undotted at hundotted
  rw [h] at hundotted
  cases hundotted

/-! ### Mnemonics -/

/-- The classes with their function codes. -/
def codes : List (InstructionClass × Nat) :=
  InstructionClass.all.flatMap fun k => (List.range (lastFunction k.code + 1)).map (Prod.mk k)

/-- The mnemonic for a class and a function code. -/
def mnemonicFor (c : InstructionClass × Nat) : String :=
  mnemonic { opcode := "", kind := c.1, ifun := c.2, length := 0 }

/-- The table of mnemonics has every class with every function code that it admits. -/
theorem mem_codes {k : InstructionClass} (h : n ≤ lastFunction k.code) : (k, n) ∈ codes := by
  have hall : k ∈ InstructionClass.all := by cases k <;> decide
  refine List.mem_flatMap.2 ⟨k, hall, List.mem_map.2 ⟨n, List.mem_range.2 ?_, rfl⟩⟩
  omega

/-- No two of them share a mnemonic. -/
theorem nodup_mnemonic : (codes.map mnemonicFor).Nodup := by decide +kernel

theorem mnemonic_eq (h : op.ifun = n) : op.mnemonic = mnemonicFor (op.kind, n) := by
  unfold mnemonicFor mnemonic suffix
  rw [h]

/-- So the first blank of a text ends the mnemonic. -/
theorem blank_not_mem_mnemonicFor : ∀ c ∈ codes, ' ' ∉ (mnemonicFor c).toList := by decide +kernel

/-! ### Operands -/

/-- A register operand tells the register, and whether there is one. -/
theorem registerOperand_injective : Function.Injective registerOperand := by
  intro field field' h
  have hall : ∀ field : Option Register, field ∈ none :: Register.all.map some := by
    intro field
    cases field with
    | none => exact List.mem_cons_self
    | some r => exact List.mem_cons_of_mem _ (List.mem_map.2 ⟨r, Register.mem_all r, rfl⟩)
  have hnodup : ((none :: Register.all.map some).map registerOperand).Nodup := by decide +kernel
  exact List.inj_on_of_nodup_map hnodup (hall field) (hall field') h

theorem comma_not_mem_registerOperand (field : Option Register) : ',' ∉ (registerOperand field).toList := by
  cases field with
  | none => decide
  | some r => cases r <;> decide

/-- A memory operand is a number with a register in brackets. -/
theorem toList_memoryOperand (op : Operation) :
    op.memoryOperand.toList = (toString op.valC).toList ++ '(' :: ((registerOperand op.rB).toList ++ [')']) := by
  unfold memoryOperand
  rw [String.toList_append, String.toList_append, String.toList_append, List.append_assoc, List.append_assoc]
  rfl

/-- No operand has a comma in it, so commas tell operands apart. -/
theorem comma_not_mem_operands (op : Operation) : ∀ operand ∈ op.operands, ',' ∉ operand.toList := by
  have hvalue : ',' ∉ (toString op.valC).toList := not_mem_toString (by decide) (by decide) op.valC
  have hdigits : ',' ∉ (Hex.field 0 op.valC).toList := not_mem_field (by decide) (by decide) 0 op.valC
  have hfirst := comma_not_mem_registerOperand op.rA
  have hsecond := comma_not_mem_registerOperand op.rB
  -- the displacement and the base register have no comma, and nor have the brackets
  have hmemory : ',' ∉ op.memoryOperand.toList := by
    rw [toList_memoryOperand]
    have hbase := List.not_mem_append hsecond (by decide : ',' ∉ [')'])
    exact List.not_mem_append hvalue (List.not_mem_cons_of_ne_of_not_mem (by decide) hbase)
  have himmediate : ',' ∉ ("$" ++ toString op.valC).toList := by
    rw [String.toList_append]
    exact List.not_mem_append (by decide) hvalue
  have hdestination : ',' ∉ ("0x" ++ Hex.field 0 op.valC).toList := by
    rw [String.toList_append]
    exact List.not_mem_append (by decide) hdigits
  unfold operands
  cases op.kind <;>
    simp only [List.forall_mem_cons, List.not_mem_nil, IsEmpty.forall_iff, implies_true, hfirst, hsecond, hmemory,
      himmediate, hdestination, not_false_eq_true, and_self]

/-- A memory operand tells its number and its register, as no number has a bracket in it. -/
theorem memoryOperand_inj (h : op.memoryOperand = op'.memoryOperand) : op.valC = op'.valC ∧ op.rB = op'.rB := by
  have hlists := congrArg String.toList h
  rw [toList_memoryOperand, toList_memoryOperand] at hlists
  obtain ⟨hvalue, hbase⟩ := append_separator_inj (not_mem_toString (by decide) (by decide) op.valC)
    (not_mem_toString (by decide) (by decide) op'.valC) hlists
  exact ⟨toString_inj hvalue, registerOperand_injective (String.toList_inj.1 (List.append_cancel_right hbase))⟩

/-- A field that a class has an operand for is known from the operands. -/
theorem fields_of_operands (hkind : op.kind = op'.kind) (h : op.operands = op'.operands)
    (hpos : op.kind.layout.constant = some .unsigned → 0 ≤ op.valC ∧ 0 ≤ op'.valC) :
    (op.kind.layout.first = true → op.rA = op'.rA) ∧ (op.kind.layout.second = true → op.rB = op'.rB) ∧
      (op.kind.layout.constant.isSome = true → op.valC = op'.valC) := by
  have hregister : ∀ {field field'}, registerOperand field = registerOperand field' → field = field' := fun h =>
    registerOperand_injective h
  unfold operands at h
  rw [← hkind] at h
  -- operands stand in the order of the class, so each class is taken apart on its own
  cases hk : op.kind <;> rw [hk] at h
  case halt | nop | ret => exact ⟨nofun, nofun, nofun⟩
  case rrmovq | opq =>
    obtain ⟨hA, hB⟩ := List.cons_eq_cons.1 h
    exact ⟨fun _ => hregister hA, fun _ => hregister (List.head_eq_of_cons_eq hB), nofun⟩
  case irmovq =>
    obtain ⟨hvalue, hB⟩ := List.cons_eq_cons.1 h
    exact ⟨nofun, fun _ => hregister (List.head_eq_of_cons_eq hB), fun _ =>
      toString_inj (congrArg String.toList ((String.append_right_inj _).1 hvalue))⟩
  case rmmovq =>
    obtain ⟨hA, hmemory⟩ := List.cons_eq_cons.1 h
    obtain ⟨hvalue, hB⟩ := memoryOperand_inj (List.head_eq_of_cons_eq hmemory)
    exact ⟨fun _ => hregister hA, fun _ => hB, fun _ => hvalue⟩
  case mrmovq =>
    obtain ⟨hmemory, hA⟩ := List.cons_eq_cons.1 h
    obtain ⟨hvalue, hB⟩ := memoryOperand_inj hmemory
    exact ⟨fun _ => hregister (List.head_eq_of_cons_eq hA), fun _ => hB, fun _ => hvalue⟩
  case jxx | call =>
    -- digits leave out the sign, which is why the destination has to be no negative number
    obtain ⟨hlo, hlo'⟩ := hpos (by rw [hk]; rfl)
    have hdigits := (String.append_right_inj _).1 (List.head_eq_of_cons_eq h)
    exact ⟨nofun, nofun, fun _ => Hex.field_inj hlo hlo' (congrArg String.toList hdigits)⟩
  case pushq | popq => exact ⟨fun _ => hregister (List.head_eq_of_cons_eq h), nofun, nofun⟩

/-! ### The parts of a text -/

/-- A text with operands is the mnemonic, a blank, and the operands with commas between them. -/
theorem toList_text (h : op.operands ≠ []) :
    op.text.toList = op.mnemonic.toList ++ ' ' :: List.intercalate [',', ' '] (op.operands.map String.toList) := by
  unfold text
  split
  case h_1 hnil => exact absurd hnil h
  case h_2 =>
    rw [String.toList_append, String.toList_append, String.toList_intercalate, List.append_assoc]
    rfl

/-- With a blank behind the text, there is always one behind the mnemonic. -/
theorem exists_toList_text (op : Operation) :
    ∃ rest, op.text.toList ++ [' '] = op.mnemonic.toList ++ ' ' :: rest := by
  by_cases h : op.operands = []
  · refine ⟨[], ?_⟩
    unfold text
    rw [h]
  · refine ⟨List.intercalate [',', ' '] (op.operands.map String.toList) ++ [' '], ?_⟩
    rw [toList_text h, List.append_assoc, List.cons_append]

/-- The mnemonic tells class and function code. -/
theorem code_of_text (hifun : op.ifun = n) (hifun' : op'.ifun = n') (hmem : (op.kind, n) ∈ codes)
    (hmem' : (op'.kind, n') ∈ codes) (htext : op.text = op'.text) : op.kind = op'.kind ∧ n = n' := by
  obtain ⟨rest, hrest⟩ := op.exists_toList_text
  obtain ⟨rest', hrest'⟩ := op'.exists_toList_text
  rw [mnemonic_eq hifun] at hrest
  rw [← htext, mnemonic_eq hifun', hrest] at hrest'
  -- the first blank is the one behind the mnemonic
  have hmnemonic := (append_separator_inj (blank_not_mem_mnemonicFor _ hmem) (blank_not_mem_mnemonicFor _ hmem')
    hrest').1
  -- no other class or function code has it
  exact Prod.mk.inj (List.inj_on_of_nodup_map nodup_mnemonic hmem hmem' (String.toList_inj.1 hmnemonic))

/-- What stands behind the mnemonic tells the operands. -/
theorem operands_of_text (hkind : op.kind = op'.kind) (hmnemonic : op.mnemonic = op'.mnemonic)
    (h : op.text = op'.text) : op.operands = op'.operands := by
  have hlength : op.operands.length = op'.operands.length := by
    unfold operands
    rw [hkind]
    cases op'.kind <;> rfl
  -- the texts can be taken apart only where there are operands
  by_cases hnil : op.operands = []
  · rw [hnil] at hlength ⊢
    exact (List.length_eq_zero_iff.1 hlength.symm).symm
  · have hnil' : op'.operands ≠ [] := fun hnil' => hnil (List.length_eq_zero_iff.1 (hlength.trans (by rw [hnil']; rfl)))
    rw [← String.toList_inj, toList_text hnil, toList_text hnil', hmnemonic] at h
    have hlists := List.tail_eq_of_cons_eq (List.append_cancel_left h)
    have hcomma : ∀ op : Operation, ∀ l ∈ op.operands.map String.toList, ',' ∉ l := by
      intro op l hl
      obtain ⟨operand, hoperand, rfl⟩ := List.mem_map.1 hl
      exact op.comma_not_mem_operands operand hoperand
    -- with as many operands on both sides, the commas divide the texts in the same places
    have hinjective : Function.Injective String.toList := fun _ _ => String.toList_inj.1
    refine hinjective.list_map (intercalate_inj ?_ (hcomma op) (hcomma op') hlists)
    rw [List.length_map, List.length_map, hlength]

/-! ### Fields -/

/-- The two operations have the same fields, apart from the bytes that they were decoded from. -/
structure Alike (op op' : Operation) : Prop where
  kind : op.kind = op'.kind
  ifun : op.ifun = op'.ifun
  rA : op.rA = op'.rA
  rB : op.rB = op'.rB
  valC : op.valC = op'.valC
  length : op.length = op'.length

section Encoded

variable {opcode opcode' : UInt8} {bytes bytes' : List UInt8}

/-- Where a class has no register in a field, none is decoded. -/
theorem EncodedBy.rA_eq_none (h : op.EncodedBy opcode bytes) (hfirst : ¬op.kind.layout.first = true) :
    op.rA = none := by
  have hrA := h.rA_eq
  rw [← h.code_eq, ← layout_first, if_neg hfirst] at hrA
  exact Option.map_eq_none_iff.1 hrA

/-- A register field that is not required is left empty. -/
theorem EncodedBy.rB_eq_none (h : op.EncodedBy opcode bytes) (hsecond : ¬op.kind.layout.second = true) :
    op.rB = none := by
  have hrB := h.rB_eq
  rw [← h.code_eq, ← layout_second, if_neg hsecond] at hrB
  exact Option.map_eq_none_iff.1 hrB

/-- Without a constant the value is zero. -/
theorem EncodedBy.valC_eq_zero (h : op.EncodedBy opcode bytes) (hconstant : ¬op.kind.layout.constant.isSome = true) :
    op.valC = 0 := by
  have hvalC := h.valC_eq
  rw [← h.code_eq, constant_code, Option.not_isSome_iff_eq_none.1 hconstant] at hvalC
  exact hvalC

/-- A destination is read without a sign. -/
theorem EncodedBy.valC_nonneg (h : op.EncodedBy opcode bytes) (hconstant : op.kind.layout.constant = some .unsigned) :
    0 ≤ op.valC := by
  have hvalC := h.valC_eq
  rw [← h.code_eq, constant_code, hconstant] at hvalC
  rw [hvalC]
  exact Int.natCast_nonneg _

/-- **Fields.** Operations with the same text are alike. Class and function code are told by the mnemonic; the operands
then tell what the class requires, and the fields that it does not require are empty on both sides. -/
theorem alike_of_text (h : op.EncodedBy opcode bytes) (h' : op'.EncodedBy opcode' bytes') (hvalid : ValidOpcode opcode)
    (hvalid' : ValidOpcode opcode') (htext : op.text = op'.text) : op.Alike op' := by
  obtain ⟨hkind, hfunction⟩ := code_of_text h.ifun_eq h'.ifun_eq (mem_codes (h.code_eq ▸ hvalid.2))
    (mem_codes (h'.code_eq ▸ hvalid'.2)) htext
  have hmnemonic : op.mnemonic = op'.mnemonic := by
    rw [mnemonic_eq h.ifun_eq, mnemonic_eq h'.ifun_eq, hkind, hfunction]
  obtain ⟨hfirst, hsecond, hconstant⟩ := fields_of_operands hkind (operands_of_text hkind hmnemonic htext)
    fun hunsigned => ⟨h.valC_nonneg hunsigned, h'.valC_nonneg (hkind ▸ hunsigned)⟩
  exact
    { kind := hkind
      ifun := by rw [h.ifun_eq, h'.ifun_eq, hfunction]
      -- a field that the layout does not ask for is empty on both sides
      rA := by
        by_cases hwanted : op.kind.layout.first = true
        · exact hfirst hwanted
        · rw [h.rA_eq_none hwanted, h'.rA_eq_none (hkind ▸ hwanted)]
      rB := by
        by_cases hwanted : op.kind.layout.second = true
        · exact hsecond hwanted
        · rw [h.rB_eq_none hwanted, h'.rB_eq_none (hkind ▸ hwanted)]
      valC := by
        by_cases hwanted : op.kind.layout.constant.isSome = true
        · exact hconstant hwanted
        · rw [h.valC_eq_zero hwanted, h'.valC_eq_zero (hkind ▸ hwanted)]
      length := by rw [h.length_eq, h'.length_eq, ← h.code_eq, ← h'.code_eq, hkind] }

/-- The bytes of two instructions of a class agree, up to the half of the register byte that the class ignores. -/
structure AgreeFor (kind : InstructionClass) (bytes bytes' : List UInt8) : Prop where
  length_eq : bytes.length = bytes'.length
  eq_of_ne_one : ∀ i, i ≠ 1 → bytes[i]? = bytes'[i]?
  high_eq : kind ≠ .irmovq → bytes[1]?.map high = bytes'[1]?.map high
  low_eq : kind ≠ .pushq → kind ≠ .popq → bytes[1]?.map low = bytes'[1]?.map low

/-- Alike operations have the same opcode, as it is put together from class and function code. -/
theorem EncodedBy.opcode_inj (h : op.EncodedBy opcode bytes) (h' : op'.EncodedBy opcode' bytes')
    (halike : op.Alike op') : opcode = opcode' := by
  have hhigh : high opcode = high opcode' := by rw [← h.code_eq, ← h'.code_eq, halike.kind]
  have hlow : low opcode = low opcode' := by
    have hifun := halike.ifun
    rw [h.ifun_eq, h'.ifun_eq] at hifun
    exact Int.ofNat_inj.1 hifun
  unfold high at hhigh
  unfold low at hlow
  exact UInt8.toNat_inj.1 (by omega)

/-- The bytes of a constant are known from its value. -/
theorem constantBytes_inj {k : InstructionClass} (hlength : bytes.length + 1 = size k.code)
    (hlength' : bytes'.length + 1 = size k.code) (h : constant k.code bytes = constant k.code bytes') :
    bytes.drop (k.layout.constantOffset - 1) = bytes'.drop (k.layout.constantOffset - 1) := by
  have hoffset := one_le_constantOffset k.layout
  rw [constant_code, constant_code] at h
  rw [← layout_length] at hlength hlength'
  unfold Layout.length at hlength hlength'
  cases hconstant : k.layout.constant with
  | none =>
    -- nothing stands behind the register byte
    rw [hconstant, if_neg (by decide)] at hlength hlength'
    rw [List.drop_of_length_le (by omega), List.drop_of_length_le (by omega)]
  | some reading =>
    rw [hconstant, if_pos (by rfl)] at hlength hlength'
    rw [hconstant] at h
    have hcount : ∀ bs : List UInt8, bs.length + 1 = k.layout.constantOffset + Memory.wordSize →
        (bs.drop (k.layout.constantOffset - 1)).length = 8 := by
      intro bs hbs
      rw [List.length_drop, Nat.eq_sub_of_add_eq hbs, Nat.sub_sub, Nat.add_sub_cancel' hoffset, Nat.add_sub_cancel_left]
    cases reading with
    | signed => exact Word.signed_ofBytes_inj (hcount _ hlength) (hcount _ hlength') h
    | unsigned => exact Word.signed_ofBytes_inj (hcount _ hlength) (hcount _ hlength') (congrArg Word.signed h)

/-- Of all classes with a register byte one leaves the first field unused. -/
theorem first_of_ne {k : InstructionClass} (hregisters : k.layout.hasRegisters = true) (hne : k ≠ .irmovq) :
    k.layout.first = true := by
  revert hregisters hne
  cases k <;> decide

/-- And two leave the second one unused. -/
theorem second_of_ne {k : InstructionClass} (hregisters : k.layout.hasRegisters = true) (hpush : k ≠ .pushq)
    (hpop : k ≠ .popq) : k.layout.second = true := by
  revert hregisters hpush hpop
  cases k <;> decide

/-- Alike operations have the same bytes, but for the half of the register byte that is not used. -/
theorem agreeFor_of_alike (h : op.EncodedBy opcode bytes) (h' : op'.EncodedBy opcode' bytes')
    (hlength : bytes.length + 1 = size (high opcode)) (hlength' : bytes'.length + 1 = size (high opcode'))
    (halike : op.Alike op') : AgreeFor op.kind (opcode :: bytes) (opcode' :: bytes') := by
  obtain rfl := h.opcode_inj h' halike
  have hvalC := h.valC_eq.symm.trans (halike.valC.trans h'.valC_eq)
  rw [← h.code_eq] at hlength hlength' hvalC
  have hrest := constantBytes_inj hlength hlength' hvalC
  unfold Layout.constantOffset at hrest
  by_cases hregisters : op.kind.layout.hasRegisters = true
  · -- the register bytes come first, and agree in the fields that are required
    rw [if_pos hregisters] at hrest
    have hsize := two_le_size ((hasRegisters_iff op.kind).1 hregisters)
    obtain ⟨fields, rest, rfl⟩ := List.exists_cons_of_length_pos (show 0 < bytes.length by omega)
    obtain ⟨fields', rest', rfl⟩ := List.exists_cons_of_length_pos (show 0 < bytes'.length by omega)
    obtain rfl : rest = rest' := hrest
    have hfirst := h.rA_eq.symm.trans ((congrArg (Option.map _) halike.rA).trans h'.rA_eq)
    have hsecond := h.rB_eq.symm.trans ((congrArg (Option.map _) halike.rB).trans h'.rB_eq)
    rw [← h.code_eq] at hfirst hsecond
    rw [← layout_first] at hfirst
    rw [← layout_second] at hsecond
    exact
      { length_eq := rfl
        eq_of_ne_one := by
          rintro (_ | _ | i) hi
          · rfl
          · exact absurd rfl hi
          · rfl
        high_eq := by
          intro hne
          rwa [if_pos (first_of_ne hregisters hne), if_pos (first_of_ne hregisters hne)] at hfirst
        low_eq := by
          intro hpush hpop
          rwa [if_pos (second_of_ne hregisters hpush hpop), if_pos (second_of_ne hregisters hpush hpop)] at hsecond }
  · rw [if_neg hregisters] at hrest
    obtain rfl : bytes = bytes' := hrest
    exact ⟨rfl, fun _ _ => rfl, fun _ => rfl, fun _ _ => rfl⟩

end Encoded

end Operation

/-- Alike operations do the same to every machine. -/
theorem Machine.execute_congr {op op' : Operation} (h : op.Alike op') (s : Machine) : execute op s = execute op' s := by
  have hop : op = { op' with opcode := op.opcode, operandBytes := op.operandBytes } := by
    cases op
    cases op'
    rw [Operation.mk.injEq]
    exact ⟨rfl, h.kind, h.ifun, h.rA, h.rB, h.valC, h.length, rfl⟩
  rw [hop]
  rfl

namespace Operation

open Encoding

variable {m : Memory} {pc : Int} {op : Operation}

/-- The bytes of a decoded operation are an opcode and what is encoded behind it. -/
theorem exists_encodedBy (h : decode m pc = .ok op) :
    ∃ opcode bytes, m.window pc.toNat op.length.toNat = opcode :: bytes ∧ ValidOpcode opcode ∧
      bytes.length + 1 = size (high opcode) ∧ op.EncodedBy opcode bytes := by
  obtain ⟨p, rfl⟩ := Int.eq_ofNat_of_zero_le (room_of_decode h).1
  have hencoded := encodedBy_of_decode h
  have hwindow := window_of_decode h
  have hcount := congrArg List.length hwindow
  have hlength := hencoded.length_eq
  rw [List.length_cons, Memory.length_window] at hcount
  exact ⟨m.byteAt p, op.operandBytes, hwindow.symm, (held_of_decode h).opcode, by omega, hencoded⟩

/-- **An instruction is known from its text**, which no byte of data has: one with the same text has the same fields, is
carried out alike, and is the same string of bytes but for an ignored half of the register byte. -/
theorem text_determines (h : decode m pc = .ok op) :
    (∀ (m' : Memory) (pc' : Int) (op' : Operation), decode m' pc' = .ok op' → op.text = op'.text →
      op.Alike op' ∧
        AgreeFor op.kind (m.window pc.toNat op.length.toNat) (m'.window pc'.toNat op'.length.toNat) ∧
        ∀ s, Machine.execute op s = Machine.execute op' s) ∧
      ∀ b, op.text ≠ ".byte 0x" ++ Hex.byte b := by
  constructor
  · intro m' pc' op' h' htext
    obtain ⟨opcode, bytes, hwindow, hvalid, hlength, hencoded⟩ := exists_encodedBy h
    obtain ⟨opcode', bytes', hwindow', hvalid', hlength', hencoded'⟩ := exists_encodedBy h'
    have halike := alike_of_text hencoded hencoded' hvalid hvalid' htext
    rw [hwindow, hwindow']
    exact ⟨halike, agreeFor_of_alike hencoded hencoded' hlength hlength' halike, Machine.execute_congr halike⟩
  · intro b hbyte
    refine op.toList_text_ne ("byte 0x".toList ++ (Hex.byte b).toList) ?_
    rw [hbyte, String.toList_append]
    rfl

/-- Two instructions that differ in the half of the register byte which is ignored. -/
theorem text_determines_ignored_half :
    let m : Memory := ⟨⟨#[0x30, 0xF0, 7, 0, 0, 0, 0, 0, 0, 0]⟩, [], by decide⟩
    let m' : Memory := ⟨⟨#[0x10, 0x30, 0x20, 7, 0, 0, 0, 0, 0, 0, 0]⟩, [], by decide⟩
    ∃ op op', decode m 0 = .ok op ∧ decode m' 1 = .ok op' ∧ op.text = "irmovq $7, %rax" ∧ op ≠ op' ∧
      op.Alike op' ∧ ∀ s, Machine.execute op s = Machine.execute op' s := by
  intro m m'
  have hop : decode m 0 = .ok
      { opcode := "30", kind := .irmovq, rB := some .rax, valC := 7, length := 10
        operandBytes := [0xF0, 7, 0, 0, 0, 0, 0, 0, 0] } := by decide +kernel
  have hop' : decode m' 1 = .ok
      { opcode := "30", kind := .irmovq, rB := some .rax, valC := 7, length := 10
        operandBytes := [0x20, 7, 0, 0, 0, 0, 0, 0, 0] } := by decide +kernel
  obtain ⟨halike, -, hexecute⟩ := (text_determines hop).1 m' 1 _ hop' (by decide +kernel)
  exact ⟨_, _, hop, hop', by decide +kernel, by decide, halike, hexecute⟩

end Operation

end Y86
