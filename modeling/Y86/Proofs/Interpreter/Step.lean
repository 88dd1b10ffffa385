import Y86.Interpreter
import Y86.Proofs.Arithmetic
import Y86.Proofs.Machine.Fault
import Y86.Proofs.Machine.Registers

/-!
# One instruction in both interpreters

The second interpreter mirrors a machine (`Interpreter.Mirrors`) if it holds what a program can read of it. It still does
when both have carried out an instruction that it covers (`Interpreter.exists_step`), for these reasons:

* What the machine reads is inside memory, so no index is counted from the end and no slice is cut off.
* A result that is changed by being made a word is one that overflows, except for the negative of the least word.
* A stack pointer that points to a word of memory has not wrapped around, since memory is small.
* The destination of a call is the same before its store and behind it, if they do not meet.

An instruction that the machine does not carry out is not followed: the interpreter may find bytes elsewhere.
-/

namespace Y86

namespace Interpreter

/-! ### Numbers, functions and conditions -/

/-- The interpreter wraps as words are wrapped. -/
theorem wrap_eq (value : Int) : wrap value = Word.signed value := by
  change (if 9223372036854775808 ≤ value % 18446744073709551616
    then value % 18446744073709551616 - 18446744073709551616 else value % 18446744073709551616) = Word.signed value
  rw [Word.signed_eq]
  split <;> split <;> omega

/-- Its table of results has that of a function at its code. -/
theorem getElem?_results (f : Arithmetic) (a b : Int) : (results a b)[f.code]? = some (f.onIntegers a b) := by
  cases f <;> rfl

/-- Its table of conditions has that of a condition at its code. -/
theorem getElem?_conditions (c : Condition) (flags : Flags) : (conditions flags)[c.code]? = some (c.holds flags) := by
  cases c <;> rfl

/-! ### Slices inside the list -/

section Slices

variable {bytes values : List UInt8} {length a : Nat}

/-- A position inside a list is taken as it is. -/
theorem position?_of_lt (h : a < length) : position? length a = some a := by
  have hpos : ¬(a : Int) < 0 := by omega
  unfold position?
  rw [if_neg hpos]
  dsimp only
  rw [if_pos (by omega), Int.toNat_natCast]

/-- So is a bound up to its length. -/
theorem bound_of_le (h : a ≤ length) : bound length a = a := by
  unfold bound
  rw [if_neg (by omega), Int.toNat_natCast, Nat.min_eq_left h]

section Room

variable (h : a + 8 ≤ bytes.length)

include h

theorem bound_stop : bound bytes.length (a + 8) = a + 8 := bound_of_le h

/-- Eight bytes inside memory are cut out whole. -/
theorem slice_eq : slice bytes a (a + 8) = (bytes.drop a).take 8 := by
  unfold slice
  rw [bound_of_le (by omega), bound_stop h, List.take_drop]

/-- And eight bytes are put in their place. -/
theorem replaceSlice_eq : replaceSlice bytes a (a + 8) values = bytes.take a ++ (values ++ bytes.drop (a + 8)) := by
  unfold replaceSlice
  rw [bound_of_le (by omega), bound_stop h]
  dsimp only
  rw [Nat.max_eq_right (by omega), List.append_assoc]

/-- As many values as the slice is long replace its bytes one by one. -/
theorem getElem?_replaceSlice (hvalues : values.length = 8) (j : Nat) :
    (replaceSlice bytes a (a + 8) values)[j]? = if a ≤ j ∧ j < a + 8 then values[j - a]? else bytes[j]? := by
  have hfirst : (bytes.take a).length = a := List.length_take_of_le (by omega)
  rw [replaceSlice_eq h]
  by_cases hlow : j < a
  · rw [if_neg (by omega), List.getElem?_append_left (by omega), List.getElem?_take_of_lt hlow]
  · rw [List.getElem?_append_right (by omega), hfirst]
    by_cases hhigh : j < a + 8
    · rw [if_pos (by omega), List.getElem?_append_left (by omega)]
    · rw [if_neg (by omega), List.getElem?_append_right (by omega), List.getElem?_drop]
      congr 1
      omega

theorem length_replaceSlice (hvalues : values.length = 8) :
    (replaceSlice bytes a (a + 8) values).length = bytes.length := by
  rw [replaceSlice_eq h]
  simp only [List.length_append, List.length_take, List.length_drop]
  omega

end Room

end Slices

/-! ### The machine in the interpreter -/

/-- The interpreter holds what a program can read of a machine. -/
structure Mirrors (s : Interpreter) (m : Machine) : Prop where
  pc : s.pc = m.pc
  registers : s.registers = m.registers.toList
  flags : s.flags = m.flags
  length : s.bytes.length = m.memory.size
  byte : ∀ j < m.memory.size, s.bytes[j]? = some (m.memory.byteAt j)

namespace Mirrors

variable {s : Interpreter} {m next : Machine} {op : Operation} {address : Int} {opcode : UInt8}

/-- A mirror has the byte that memory has. -/
theorem byte?_eq (h : s.Mirrors m) {byte : UInt8} (hread : m.memory.read address = .ok byte) :
    s.byte? address = some byte := by
  obtain ⟨⟨hpos, hlt⟩, rfl⟩ := Memory.read_eq_ok_iff.1 hread
  obtain ⟨a, rfl⟩ := Int.eq_ofNat_of_zero_le hpos
  have ha : a < m.memory.size := by omega
  unfold byte?
  rw [position?_of_lt (by rw [h.length]; exact ha)]
  exact h.byte a ha

/-- And the eight bytes of a word. -/
theorem slice_eq_window {a : Nat} (h : s.Mirrors m) (ha : a + 8 ≤ m.memory.size) :
    slice s.bytes a (a + 8) = m.memory.window a Memory.wordSize := by
  rw [slice_eq (by rw [h.length]; exact ha)]
  refine List.ext_getElem? fun k => ?_
  by_cases hk : k < 8
  · rw [List.getElem?_take_of_lt hk, List.getElem?_drop, Memory.getElem?_window _ hk, h.byte (a + k) (by omega)]
  · rw [List.getElem?_eq_none (by rw [List.length_take]; omega),
      List.getElem?_eq_none (by rw [Memory.length_window]; exact Nat.le_of_not_lt hk)]

/-- So it reads the same word. -/
theorem quad_eq (h : s.Mirrors m) {word : Nat} (hread : m.memory.readQuad address = .ok word) :
    s.quad address = word := by
  obtain ⟨⟨hpos, hroom⟩, hword⟩ := Memory.readQuad_eq_ok_iff.1 hread
  obtain ⟨a, rfl⟩ := Int.eq_ofNat_of_zero_le hpos
  have ha : a + 8 ≤ m.memory.size := by
    unfold Memory.wordSize at hroom
    omega
  unfold quad
  rw [h.slice_eq_window ha, hword, Int.toNat_natCast]

/-- A mirror has the registers in the order of their codes. -/
theorem getElem?_registers (h : s.Mirrors m) (r : Register) : s.registers[(r.index : Nat)]? = some (m.registers.get r) := by
  rw [h.registers]
  exact m.registers.getElem?_toList r

/-- A word that is stored in memory replaces a slice. -/
theorem stored (h : s.Mirrors m) {value : Int} {memory : Memory} (hstored : m.memory.Stored address value memory) :
    (replaceSlice s.bytes address (address + 8) (Word.toBytes value)).length = memory.size ∧
      ∀ j < memory.size, (replaceSlice s.bytes address (address + 8) (Word.toBytes value))[j]? = some (memory.byteAt j) := by
  obtain ⟨⟨hpos, hroom⟩, hsize, hwindow, houtside, -⟩ := hstored
  obtain ⟨a, rfl⟩ := Int.eq_ofNat_of_zero_le hpos
  unfold Memory.wordSize at hroom hwindow houtside
  have ha : a + 8 ≤ s.bytes.length := by
    rw [h.length]
    omega
  have hvalues : (Word.toBytes value).length = 8 := Word.length_toBytes value
  constructor
  · rw [length_replaceSlice ha hvalues, h.length, hsize]
  · intro j hj
    rw [getElem?_replaceSlice ha hvalues]
    -- inside the slice both have the bytes of the word, outside of it what was there
    by_cases hin : a ≤ j ∧ j < a + 8
    · rw [if_pos hin, ← hwindow, Memory.getElem?_window _ (by omega), Int.toNat_natCast, Nat.add_sub_of_le hin.1]
    · rw [if_neg hin, houtside j (by omega), h.byte j (by omega)]

end Mirrors

/-! ### The stack pointer

That of the interpreter does not wrap around, and that of the machine does not where there is room for a word on the
stack. -/

section Stack

variable {s : Interpreter} {m : Machine} {distance : Int}

/-- Where there is room for a word below it, the stack pointer goes down by eight without wrapping. -/
theorem rsp_lowered_of_room (hroom : m.memory.HasQuad (m.moveStack (-8)).rsp) (hsize : m.memory.size < 2 ^ 62) :
    (m.moveStack (-8)).rsp = m.rsp - 8 := by
  have hrange : Word.InRange m.rsp := m.registers.get_inRange .rsp
  have hsigned := Word.signed_eq (m.rsp - 8)
  rw [m.rsp_lowered] at hroom ⊢
  unfold Memory.HasQuad Memory.wordSize at hroom
  unfold Word.InRange at hrange
  split at hsigned <;> omega

/-- Where there is a word at it, it goes up by eight without wrapping. -/
theorem rsp_raised_of_room (hroom : m.memory.HasQuad m.rsp) (hsize : m.memory.size < 2 ^ 62) :
    (m.moveStack 8).rsp = m.rsp + 8 := by
  unfold Memory.HasQuad Memory.wordSize at hroom
  rw [Machine.rsp_moveStack]
  apply Word.signed_of_inRange
  unfold Word.InRange
  omega

/-- Writing the stack pointer mirrors moving the stack. -/
theorem Mirrors.registers_moveStack (h : s.Mirrors m) {rsp : Int} (hrsp : (m.moveStack distance).rsp = rsp) :
    s.registers.set stackPointer rsp = (m.moveStack distance).registers.toList := by
  rw [← hrsp, Machine.rsp_moveStack, h.registers]
  exact (m.registers.toList_set .rsp _).symm

end Stack

/-! ### The instructions, one by one -/

section Instructions

variable {s : Interpreter} {m next : Machine} {op : Operation} {opcode : UInt8} {a b : Register}
  (h : s.Mirrors m) (hd : op.DecodedFrom m.memory m.pc opcode)

include h hd

theorem step_constant (hkind : op.kind = .irmovq) (hb : op.rB = some b) :
    ∃ s', s.step opcode = some s' ∧ s'.Mirrors ((m.setRegister b op.valC).advance op) := by
  have hcode : (opcode / 16).toNat = 3 := by rw [hd.code, hkind]; rfl
  obtain ⟨fields, hfields, -, hB⟩ := hd.exists_fields (by rw [hkind]; rfl)
  obtain ⟨word, hword, hvalue⟩ := hd.exists_signed (by rw [hkind]; rfl)
  -- both sides read the same register byte and the same constant
  have hbyte : s.byte? (s.pc + 1) = some fields := by rw [h.pc, h.byte?_eq hfields]
  have hquad : s.quad (s.pc + 2) = word := by
    rw [hkind] at hword
    rw [h.pc]
    exact h.quad_eq hword
  have hlength : op.length = 10 := by rw [hd.length, hkind]; rfl
  have hindex : (b.index : Nat) < s.registers.length := by
    rw [h.registers, RegisterFile.length_toList]
    exact b.index.isLt
  refine ⟨{ s with registers := s.registers.set b.index (wrap word), pc := s.pc + 10 }, ?_, ?_⟩
  · unfold step
    simp only [hcode, hbyte, hquad, hB b hb, Option.bind_eq_bind, Option.bind_some, if_pos hindex]
    rfl
  · exact
      { pc := by
          show s.pc + 10 = m.pc + op.length
          rw [h.pc, hlength]
        registers := by
          show s.registers.set b.index (wrap word) = (m.registers.set b op.valC).toList
          rw [RegisterFile.toList_set, h.registers, wrap_eq, hvalue, Word.signed_signed]
        flags := h.flags
        length := h.length
        byte := h.byte }

theorem step_compute (hkind : op.kind = .opq) (ha : op.rA = some a) (hb : op.rB = some b) {f : Arithmetic}
    (hf : Arithmetic.ofCode? op.ifun = some f) (hsub : f = .sub → m.registers.get a ≠ -9223372036854775808) :
    ∃ s', s.step opcode = some s' ∧
      s'.Mirrors
        ({ m.setRegister b (f.compute (m.registers.get a) (m.registers.get b)).1 with
            flags := .ofResult (f.compute (m.registers.get a) (m.registers.get b)).1
              (f.compute (m.registers.get a) (m.registers.get b)).2 }.advance op) := by
  have hcode : (opcode / 16).toNat = 6 := by rw [hd.code, hkind]; rfl
  obtain ⟨fields, hfields, hA, hB⟩ := hd.exists_fields (by rw [hkind]; rfl)
  have hbyte : s.byte? (s.pc + 1) = some fields := by rw [h.pc, h.byte?_eq hfields]
  have hfunction : (opcode % 16).toNat = f.code := by
    rw [hd.ifun] at hf
    exact Operation.code_of_function hf
  have hlength : op.length = 2 := by rw [hd.length, hkind]; rfl
  -- the rest speaks of the two operands only
  generalize hx : m.registers.get a = x at hsub ⊢
  generalize hy : m.registers.get b = y
  have hxrange : Word.InRange x := hx ▸ m.registers.get_inRange a
  have hyrange : Word.InRange y := hy ▸ m.registers.get_inRange b
  have hfirst : s.registers[(a.index : Nat)]? = some x := by rw [h.getElem?_registers, hx]
  have hsecond : s.registers[(b.index : Nat)]? = some y := by rw [h.getElem?_registers, hy]
  have hresult : wrap (f.onIntegers x y) = (f.compute x y).1 := by rw [wrap_eq, Arithmetic.compute_fst]
  -- this is where the least word is set aside: its negation is wrapped before the sum is taken
  have hoverflow := Arithmetic.compute_snd hxrange hyrange hsub
  refine ⟨{ s with
    registers := s.registers.set b.index (f.compute x y).1
    flags := .ofResult (f.compute x y).1 (f.compute x y).2
    pc := s.pc + 2 }, ?_, ?_⟩
  · unfold step
    simp only [hcode, hbyte, hA a ha, hB b hb, hfirst, hsecond, hfunction, getElem?_results, hresult, ← hoverflow,
      Option.bind_eq_bind, Option.bind_some]
    rfl
  · exact
      { pc := by
          show s.pc + 2 = m.pc + op.length
          rw [h.pc, hlength]
        registers := by
          show s.registers.set b.index (f.compute x y).1 = (m.registers.set b (f.compute x y).1).toList
          rw [RegisterFile.toList_set, h.registers, Arithmetic.compute_fst, Word.signed_signed]
        flags := rfl
        length := h.length
        byte := h.byte }

/-- A jump goes to its destination or on to the instruction behind it. -/
theorem step_jump (hkind : op.kind = .jxx) {target : Int}
    (htarget : target = if Condition.codeHolds op.ifun m.flags then op.valC else m.pc + op.length) :
    ∃ s', s.step opcode = some s' ∧ s'.Mirrors { m with pc := target } := by
  have hcode : (opcode / 16).toNat = 7 := by rw [hd.code, hkind]; rfl
  obtain ⟨word, hword, hvalue⟩ := hd.exists_unsigned (by rw [hkind]; rfl)
  have hquad : s.quad (s.pc + 1) = word := by
    rw [hkind] at hword
    rw [h.pc]
    exact h.quad_eq hword
  obtain ⟨c, hc⟩ := hd.exists_condition (by rw [hkind]; rfl)
  -- the function code names the condition on both sides
  have hcondition : (opcode % 16).toNat = c.code := by
    rw [hd.ifun] at hc
    exact Operation.code_of_condition hc
  have hholds : Condition.codeHolds op.ifun m.flags = c.holds m.flags := by
    rw [hd.ifun, hcondition, Condition.codeHolds_code]
  have hlength : op.length = 9 := by rw [hd.length, hkind]; rfl
  refine ⟨{ s with pc := target }, ?_, ?_⟩
  · unfold step
    simp only [hcode, hcondition, getElem?_conditions, hquad, Option.bind_eq_bind, Option.bind_some]
    rw [htarget, hholds, hvalue, hlength, h.flags, h.pc]
    rfl
  · exact { h with pc := rfl }

/-- A call reads its destination behind its store, which does not matter if the store leaves its bytes alone. -/
theorem step_call (hkind : op.kind = .call) (hsize : m.memory.size < 2 ^ 62)
    (hapart : ¬(m.rsp - 8 < m.pc + 9 ∧ m.pc < m.rsp)) {memory : Memory}
    (hstored : m.memory.writeQuad (m.moveStack (-8)).rsp (m.pc + op.length) = .ok memory) :
    ∃ s', s.step opcode = some s' ∧ s'.Mirrors { m.moveStack (-8) with memory, pc := op.valC } := by
  have hcode : (opcode / 16).toNat = 8 := by rw [hd.code, hkind]; rfl
  have hlength : op.length = 9 := by rw [hd.length, hkind]; rfl
  obtain ⟨word, hword, hvalue⟩ := hd.exists_unsigned (by rw [hkind]; rfl)
  rw [hkind] at hword
  change m.memory.readQuad (m.pc + 1) = .ok word at hword
  have hpos : 0 ≤ m.pc := (Memory.read_eq_ok_iff.1 hd.read).1.1
  have hend : m.pc + 9 ≤ m.memory.size := by
    have hroom := (Memory.readQuad_eq_ok_iff.1 hword).1.2
    unfold Memory.wordSize at hroom
    omega
  have hstored := Memory.stored_of_writeQuad hstored
  have hlowered := rsp_lowered_of_room hstored.room hsize
  rw [hlowered, hlength] at hstored
  have hrsp : s.registers[stackPointer]? = some m.rsp := h.getElem?_registers .rsp
  have hlink : toBytes? (s.pc + 9) = some (Word.toBytes (m.pc + 9)) := by
    unfold toBytes? Word.modulus
    rw [h.pc, if_pos (by omega)]
  -- the interpreter behind the store
  obtain ⟨hbytes, hbyte⟩ := h.stored hstored
  let stored : Interpreter := { s with
    registers := s.registers.set stackPointer (m.rsp - 8)
    bytes := replaceSlice s.bytes (m.rsp - 8) (m.rsp - 8 + 8) (Word.toBytes (m.pc + 9)) }
  have hmirrors : stored.Mirrors { m.moveStack (-8) with memory } :=
    { pc := h.pc
      registers := h.registers_moveStack hlowered
      flags := h.flags
      length := hbytes
      byte := hbyte }
  have hquad : stored.quad (stored.pc + 1) = op.valC := by
    -- the bytes of the call are the same behind the store
    have hkept : memory.readQuad (m.pc + 1) = m.memory.readQuad (m.pc + 1) := by
      refine Memory.readQuad_eq_of_bytes hstored.size_eq fun j hlo hhi => hstored.outside j ?_
      unfold Memory.wordSize at hhi ⊢
      omega
    rw [hvalue]
    show stored.quad (s.pc + 1) = word
    rw [h.pc]
    exact hmirrors.quad_eq (hkept.trans hword)
  refine ⟨{ stored with pc := op.valC }, ?_, ?_⟩
  · unfold step
    simp only [hcode, hrsp, hlink, Option.bind_eq_bind, Option.bind_some]
    rw [← hquad]
    rfl
  · exact { hmirrors with pc := rfl }

theorem step_ret (hkind : op.kind = .ret) (hsize : m.memory.size < 2 ^ 62) {target : Nat}
    (hpopped : m.memory.readQuad m.rsp = .ok target) :
    ∃ s', s.step opcode = some s' ∧ s'.Mirrors { m.moveStack 8 with pc := target } := by
  have hcode : (opcode / 16).toNat = 9 := by rw [hd.code, hkind]; rfl
  have hrsp : s.registers[stackPointer]? = some m.rsp := h.getElem?_registers .rsp
  have hquad : s.quad m.rsp = target := h.quad_eq hpopped
  -- a stack pointer from which a word can be read does not wrap when it is raised
  have hraised := rsp_raised_of_room (Memory.readQuad_eq_ok_iff.1 hpopped).1 hsize
  refine ⟨{ s with registers := s.registers.set stackPointer (m.rsp + 8), pc := target }, ?_, ?_⟩
  · unfold step
    simp only [hcode, hrsp, hquad, Option.bind_eq_bind, Option.bind_some]
    rfl
  · exact
      { pc := rfl
        registers := h.registers_moveStack hraised
        flags := h.flags
        length := h.length
        byte := h.byte }

end Instructions

/-! ### Any instruction -/

/-- The instructions that the interpreter knows, and where it does the same as the machine. -/
structure Covers (m : Machine) (op : Operation) : Prop where
  kind : op.kind ∈ [.irmovq, .opq, .jxx, .call, .ret, .halt]
  /-- A subtraction negates its first operand, and the least word has no negative. -/
  subtrahend : op.kind = .opq → Arithmetic.ofCode? op.ifun = some .sub → ∀ a ∈ op.rA,
    m.registers.get a ≠ -9223372036854775808
  /-- The place of the return address lies apart from the call. -/
  apart : op.kind = .call → ¬(m.rsp - 8 < m.pc + 9 ∧ m.pc < m.rsp)

instance (m : Machine) (op : Operation) : Decidable (Covers m op) :=
  decidable_of_iff (op.kind ∈ [.irmovq, .opq, .jxx, .call, .ret, .halt] ∧
    (op.kind = .opq → Arithmetic.ofCode? op.ifun = some .sub → ∀ a ∈ op.rA, m.registers.get a ≠ -9223372036854775808) ∧
    (op.kind = .call → ¬(m.rsp - 8 < m.pc + 9 ∧ m.pc < m.rsp)))
    ⟨fun h => ⟨h.1, h.2.1, h.2.2⟩, fun h => ⟨h.kind, h.subtrahend, h.apart⟩⟩

variable {s : Interpreter} {m next : Machine} {op : Operation}

/-- The interpreter follows a step of the machine. -/
theorem exists_step (h : s.Mirrors m) (hsize : m.memory.size < 2 ^ 62) (hstep : m.step = .ok (op, next))
    (hcovers : Covers m op) (hrunning : op.kind ≠ .halt) :
    ∃ opcode s', s.byte? s.pc = some opcode ∧ (opcode / 16).toNat ≠ 0 ∧ s.step opcode = some s' ∧ s'.Mirrors next := by
  obtain ⟨hdecode, heffect⟩ := Machine.effect_of_step hstep
  obtain ⟨opcode, hd⟩ := Operation.exists_of_decode hdecode
  have hbyte : s.byte? s.pc = some opcode := by rw [h.pc, h.byte?_eq hd.read]
  have hcode : (opcode / 16).toNat ≠ 0 := by
    rw [hd.code]
    cases hkind : op.kind <;> simp_all [InstructionClass.code]
  have hkind := hcovers.kind
  suffices hfollows : ∃ s', s.step opcode = some s' ∧ s'.Mirrors next by
    obtain ⟨s', hs', hmirrors⟩ := hfollows
    exact ⟨opcode, s', hbyte, hcode, hs', hmirrors⟩
  cases heffect with
  | constant kind rB => exact step_constant h hd kind rB
  | compute kind rA rB function =>
    refine step_compute h hd kind rA rB function fun hf => ?_
    subst hf
    exact hcovers.subtrahend kind function _ rA
  | jump kind holds target => exact step_jump h hd kind (by rw [if_pos holds])
  | noJump kind fails target => exact step_jump h hd kind (by rw [fails]; rfl)
  | call kind target stored => exact step_call h hd kind hsize (hcovers.apart kind) stored
  | ret kind popped inside => exact step_ret h hd kind hsize popped
  -- the interpreter does not know the others
  | _ => simp_all

/-- The interpreter sees a halt, and where it is. -/
theorem exists_halt (h : s.Mirrors m) (hstep : m.step = .ok (op, next)) (hkind : op.kind = .halt) :
    ∃ opcode, s.byte? s.pc = some opcode ∧ (opcode / 16).toNat = 0 ∧ next.pc = s.pc + 1 ∧
      next.registers.toList = s.registers := by
  obtain ⟨hdecode, heffect⟩ := Machine.effect_of_step hstep
  obtain ⟨opcode, hd⟩ := Operation.exists_of_decode hdecode
  refine ⟨opcode, by rw [h.pc, h.byte?_eq hd.read], by rw [hd.code, hkind]; rfl, ?_⟩
  cases heffect with
  | halt kind =>
    have hlength : op.length = 1 := by rw [hd.length, hkind]; rfl
    rw [h.pc, h.registers, ← hlength]
    exact ⟨rfl, rfl⟩
  | _ => simp_all

end Interpreter

end Y86
