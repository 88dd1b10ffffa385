import Mathlib.Data.Int.ModEq
import Y86.Proofs.Arithmetic
import Y86.Proofs.Machine.Effect

/-!
# What arithmetic yields

All four functions of the arithmetic unit are exact on words, each in its own sense (`Arithmetic.Exact`). The result of an
addition or a subtraction is the one word that is congruent to the sum or the difference, and a sum overflows if it is no
word itself. The result of a bitwise function is the one word whose bits are those of the operands combined, and there is
no overflow. The flags show the result: whether it is zero, and its highest bit.

An arithmetic instruction looks at both operands before it stores the result in place of the second
(`Machine.Computed`). So it does not matter if both are one register; a register that is taken off itself, or combined
with itself by `xor`, is cleared. The flags in front of the instruction play no part.

Two lemmas carry this. A word is known from its residue (`Word.signed_eq_iff`), and it is known from its sixty-four bits
(`Word.eq_of_testBit`).
-/

namespace Y86

namespace Word

variable {x y : Int} {i : Nat}

/-- `x` is a word, and congruent to the integer `y`. -/
structure Represents (x y : Int) : Prop where
  inRange : InRange x
  congruent : x ≡ y [ZMOD modulus]

/-- One word is congruent to an integer, and no other. -/
theorem signed_eq_iff : signed y = x ↔ Represents x y := by
  constructor
  · rintro rfl
    exact ⟨signed_inRange y, Int.bmod_emod⟩
  · intro h
    calc signed y
      _ = signed (y % modulus) := (Int.emod_bmod y modulus).symm
      _ = signed (x % modulus) := congrArg signed h.congruent.symm
      _ = signed x := Int.emod_bmod x modulus
      _ = x := signed_of_inRange h.inRange

/-! ### The bits of a word -/

/-- The signed reading keeps the bits of a word. -/
theorem testBit_signed (hi : i < 64) (x : Int) : (signed x).testBit i = x.testBit i := by
  rw [← getLsbD_ofInt hi, ← getLsbD_ofInt hi, ← toInt_ofInt, BitVec.ofInt_toInt]

/-- **Bits.** Signed words are told apart by them. -/
theorem eq_of_testBit (hx : InRange x) (hy : InRange y) (h : ∀ i < 64, x.testBit i = y.testBit i) : x = y := by
  have hbits : BitVec.ofInt 64 x = BitVec.ofInt 64 y := by
    refine BitVec.eq_of_getLsbD_eq fun i hi => ?_
    rw [getLsbD_ofInt hi, getLsbD_ofInt hi, h i hi]
  rw [← signed_of_inRange hx, ← signed_of_inRange hy, ← toInt_ofInt, ← toInt_ofInt, hbits]

/-- The highest bit is the sign. -/
theorem neg_iff_testBit (hx : InRange x) : x < 0 ↔ x.testBit 63 = true := by
  have hmsb : (BitVec.ofInt 64 x).msb = x.testBit 63 := by
    rw [BitVec.msb_eq_getLsbD_last, getLsbD_ofInt (by decide)]
  rw [← hmsb, BitVec.msb_eq_toInt, toInt_ofInt, signed_of_inRange hx, decide_eq_true_iff]

/-- A word has given bits exactly if it is the word of an integer that has them. -/
theorem signed_eq_iff_testBit {bit : Nat → Bool} (h : ∀ i < 64, y.testBit i = bit i) :
    signed y = x ↔ InRange x ∧ ∀ i < 64, x.testBit i = bit i := by
  constructor
  · rintro rfl
    refine ⟨signed_inRange y, fun i hi => ?_⟩
    rw [testBit_signed hi, h i hi]
  · rintro ⟨hx, hbits⟩
    refine eq_of_testBit (signed_inRange y) hx fun i hi => ?_
    rw [testBit_signed hi, h i hi, hbits i hi]

end Word

namespace Arithmetic

variable {a b : Int}

/-- The flags that a function leaves. -/
def flags (f : Arithmetic) (a b : Int) : Flags := .ofResult (f.compute a b).1 (f.compute a b).2

/-- What the results of the four functions on `a` and `b` are, and what the flags say of them. -/
structure Exact (a b : Int) : Prop where
  add_result : ∀ x, (add.compute a b).1 = x ↔ Word.Represents x (a + b)
  sub_result : ∀ x, (sub.compute a b).1 = x ↔ Word.Represents x (b - a)
  and_result : ∀ x, (and.compute a b).1 = x ↔
    Word.InRange x ∧ ∀ i < 64, x.testBit i = (a.testBit i && b.testBit i)
  xor_result : ∀ x, (xor.compute a b).1 = x ↔
    Word.InRange x ∧ ∀ i < 64, x.testBit i = (a.testBit i ^^ b.testBit i)
  add_overflow : (add.compute a b).2 = true ↔ ¬Word.InRange (a + b)
  and_overflow : (and.compute a b).2 = false
  xor_overflow : (xor.compute a b).2 = false
  overflow : ∀ f : Arithmetic, (f.flags a b).overflow = (f.compute a b).2
  zero_iff : ∀ f : Arithmetic, (f.flags a b).zero = true ↔ (f.compute a b).1 = 0
  /-- A difference is zero, or a combination by `xor`, exactly if the operands are equal. -/
  zero_iff_eq : ∀ f : Arithmetic, f = .sub ∨ f = .xor → ((f.flags a b).zero = true ↔ a = b)
  sign_iff : ∀ f : Arithmetic, (f.flags a b).sign = true ↔ (f.compute a b).1.testBit 63 = true

/-- Every function gives a signed word. -/
theorem compute_inRange (f : Arithmetic) (a b : Int) : Word.InRange (f.compute a b).1 := by
  rw [compute_fst]
  exact Word.signed_inRange _

/-- The result of the conjunction is told by its bits. -/
theorem compute_and_iff (a b x : Int) :
    (and.compute a b).1 = x ↔ Word.InRange x ∧ ∀ i < 64, x.testBit i = (a.testBit i && b.testBit i) := by
  rw [compute_fst]
  refine Word.signed_eq_iff_testBit fun i _ => ?_
  rw [onIntegers, Int.testBit_land, Bool.and_comm]

/-- And so is that of the exclusive disjunction. -/
theorem compute_xor_iff (a b x : Int) :
    (xor.compute a b).1 = x ↔ Word.InRange x ∧ ∀ i < 64, x.testBit i = (a.testBit i ^^ b.testBit i) := by
  rw [compute_fst]
  refine Word.signed_eq_iff_testBit fun i _ => ?_
  rw [onIntegers, Int.testBit_lxor, Bool.xor_comm]

/-- A difference is zero exactly if the operands are the same. -/
theorem compute_sub_eq_zero_iff (ha : Word.InRange a) (hb : Word.InRange b) : (sub.compute a b).1 = 0 ↔ a = b := by
  have hword := Word.signed_eq (b - a)
  rw [compute_fst, onIntegers]
  unfold Word.InRange at ha hb
  split at hword <;> omega

/-- And so is the exclusive disjunction. -/
theorem compute_xor_eq_zero_iff (ha : Word.InRange a) (hb : Word.InRange b) : (xor.compute a b).1 = 0 ↔ a = b := by
  rw [compute_xor_iff]
  constructor
  · rintro ⟨-, hbits⟩
    refine Word.eq_of_testBit ha hb fun i hi => ?_
    -- the combined bit is one of zero
    exact bne_eq_false_iff_eq.1 ((hbits i hi).symm.trans (Nat.zero_testBit i))
  · rintro rfl
    exact ⟨by decide, fun i _ => (Nat.zero_testBit i).trans (Bool.xor_self _).symm⟩

/-- **Exactness.** The functions of the arithmetic unit, on all words. -/
theorem exact_of_inRange (ha : Word.InRange a) (hb : Word.InRange b) : Exact a b where
  add_result x := by
    rw [compute_fst, onIntegers, Int.add_comm]
    exact Word.signed_eq_iff
  sub_result x := by
    rw [compute_fst]
    exact Word.signed_eq_iff
  and_result := compute_and_iff a b
  xor_result := compute_xor_iff a b
  add_overflow := by
    rw [compute_add_snd ha hb, decide_eq_true_iff, Int.add_comm]
    -- an integer is a word if it is its own reading
    exact not_congr ⟨fun h => h ▸ Word.signed_inRange _, fun h => (Word.signed_of_inRange h).symm⟩
  and_overflow := rfl
  xor_overflow := rfl
  overflow _ := rfl
  zero_iff _ := decide_eq_true_iff
  zero_iff_eq f hf := by
    refine decide_eq_true_iff.trans ?_
    rcases hf with rfl | rfl
    · exact compute_sub_eq_zero_iff ha hb
    · exact compute_xor_eq_zero_iff ha hb
  sign_iff f := decide_eq_true_iff.trans (Word.neg_iff_testBit (f.compute_inRange a b))

end Arithmetic

namespace Machine

variable {m next : Machine} {op : Operation} {f : Arithmetic} {ra rb : Register}

/-- The machine `next` has the result of `f` on two registers of `m` in the second of them. -/
structure Computed (m next : Machine) (f : Arithmetic) (ra rb : Register) : Prop where
  /-- Both operands are what the registers hold in front of the instruction. -/
  result : next.registers.get rb = (f.compute (m.registers.get ra) (m.registers.get rb)).1
  others : ∀ r, r ≠ rb → next.registers.get r = m.registers.get r
  flags : next.flags = f.flags (m.registers.get ra) (m.registers.get rb)
  cleared : ra = rb → f = .sub ∨ f = .xor → next.registers.get rb = 0 ∧ next.flags.zero = true

/-- An arithmetic instruction computes from its registers, writes the second one, and sets the flags. -/
theorem execute_opq (hkind : op.kind = .opq) (hfunction : op.ifun = f.code) (hA : op.rA = some ra)
    (hB : op.rB = some rb) (m : Machine) :
    execute op m = .ok
      ({ m.setRegister rb (f.compute (m.registers.get ra) (m.registers.get rb)).1 with
          flags := f.flags (m.registers.get ra) (m.registers.get rb) }.advance op) := by
  unfold execute
  rw [hkind, hA, hB, hfunction, Arithmetic.ofCode?_code]
  rfl

/-- So the machine has computed what the function says. -/
theorem computed_of_execute (hflags : next.flags = f.flags (m.registers.get ra) (m.registers.get rb))
    (hregisters : next.registers
      = m.registers.set rb (f.compute (m.registers.get ra) (m.registers.get rb)).1) : m.Computed next f ra rb := by
  have hresult : next.registers.get rb = (f.compute (m.registers.get ra) (m.registers.get rb)).1 := by
    rw [hregisters, RegisterFile.get_set_self]
    exact Word.signed_of_inRange (f.compute_inRange _ _)
  exact
    { result := hresult
      others := by
        intro r hr
        rw [hregisters]
        exact m.registers.get_set_of_ne hr.symm _
      flags := hflags
      cleared := by
        rintro rfl hf
        have hword := m.registers.get_inRange ra
        have hexact := Arithmetic.exact_of_inRange hword hword
        have hzero := (hexact.zero_iff_eq f hf).2 rfl
        exact ⟨hresult.trans ((hexact.zero_iff f).1 hzero), hflags ▸ hzero⟩ }

/-- **Arithmetic is exact.** On words, each function has the one word as its result that it should have, and the flags
show that result. An arithmetic instruction is always carried out, whatever the flags are in front of it, and computes
from both operands as they were, also if they are one register. -/
theorem arithmetic_exact :
    (∀ a b : Int, Word.InRange a → Word.InRange b → Arithmetic.Exact a b) ∧
      ∀ (m : Machine) (op : Operation) (f : Arithmetic) (ra rb : Register),
        op.kind = .opq → op.ifun = f.code → op.rA = some ra → op.rB = some rb →
        ∃ next, execute op m = .ok next ∧ m.Computed next f ra rb := by
  refine ⟨fun a b ha hb => Arithmetic.exact_of_inRange ha hb, fun m op f ra rb hkind hfunction hA hB => ?_⟩
  exact ⟨_, execute_opq hkind hfunction hA hB m, computed_of_execute rfl rfl⟩

/-- The greatest word and one, whose sum is the least word and has overflowed, and a register that holds the least word and
is taken off itself. -/
theorem arithmetic_exact_limits :
    let m : Machine := { registers := RegisterFile.zeros.set .rax (-9223372036854775808) }
    let op : Operation := { opcode := "61", kind := .opq, ifun := 1, rA := some .rax, rB := some .rax, length := 2 }
    Arithmetic.add.compute 9223372036854775807 1 = (-9223372036854775808, true) ∧
      Arithmetic.Exact 9223372036854775807 1 ∧ m.registers.get .rax = -9223372036854775808 ∧
      ∃ next, execute op m = .ok next ∧ m.Computed next .sub .rax .rax :=
  ⟨by decide, arithmetic_exact.1 _ _ (by decide) (by decide), by decide,
    arithmetic_exact.2 _ _ .sub .rax .rax rfl rfl rfl rfl⟩

end Machine

end Y86
