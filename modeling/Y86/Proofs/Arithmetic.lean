import Mathlib.Data.Int.Bitwise
import Y86.Arithmetic

/-!
# Arithmetic on words and on integers

Each function of the arithmetic unit is a function on integers (`Arithmetic.onIntegers`) whose result is then read as a
signed word (`Arithmetic.compute_fst`). Addition reports an overflow exactly if that reading changes the result
(`Arithmetic.compute_add_snd`). Subtraction negates its operand first, and so it reports the same with one exception:
the least word has no negative, and is left as it is by negation (`Arithmetic.compute_sub_snd`).

The bitwise functions on integers are those of two's complement with infinitely many bits, of which a word keeps the
lowest sixty-four (`Word.ofInt_land`, `Word.ofInt_xor`).
-/

namespace Y86

namespace Word

/-! ### The readings of sums -/

/-- A sum may be wrapped once at its end. -/
theorem signed_add_signed (x y : Int) : signed (x + signed y) = signed (x + y) := Int.add_bmod_bmod

theorem signed_signed_add (x y : Int) : signed (signed x + y) = signed (x + y) := Int.bmod_add_bmod

/-- The negative of a word is a word, but for the least one. -/
theorem signed_neg_of_ne {x : Int} (hx : InRange x) (hne : x ≠ -9223372036854775808) : signed (-x) = -x := by
  refine signed_of_inRange ?_
  unfold InRange at *
  omega

/-! ### Bits -/

/-- As a bit vector an integer has the value of its signed reading. -/
theorem toInt_ofInt (x : Int) : (BitVec.ofInt 64 x).toInt = signed x := BitVec.toInt_ofInt x

/-- And it has the bits of the integer. -/
theorem getLsbD_ofInt {i : Nat} (hi : i < 64) (x : Int) : (BitVec.ofInt 64 x).getLsbD i = x.testBit i := by
  cases x with
  | ofNat n =>
    change (BitVec.ofNat 64 n).getLsbD i = n.testBit i
    rw [BitVec.getLsbD_ofNat, decide_eq_true hi, Bool.true_and]
  | negSucc n =>
    -- the bits of a negative number are those of the number below its absolute value, inverted
    rw [BitVec.ofInt_negSucc_eq_not_ofNat, BitVec.getLsbD_not, BitVec.getLsbD_ofNat, decide_eq_true hi, Bool.true_and,
      Bool.true_and]
    rfl

/-- Conjunctions of integers are conjunctions of bit vectors. -/
theorem ofInt_land (x y : Int) : BitVec.ofInt 64 (Int.land x y) = BitVec.ofInt 64 x &&& BitVec.ofInt 64 y := by
  refine BitVec.eq_of_getLsbD_eq fun i hi => ?_
  rw [BitVec.getLsbD_and, getLsbD_ofInt hi, getLsbD_ofInt hi, getLsbD_ofInt hi, Int.testBit_land]

/-- And so are exclusive disjunctions. -/
theorem ofInt_xor (x y : Int) : BitVec.ofInt 64 (Int.xor x y) = BitVec.ofInt 64 x ^^^ BitVec.ofInt 64 y := by
  refine BitVec.eq_of_getLsbD_eq fun i hi => ?_
  rw [BitVec.getLsbD_xor, getLsbD_ofInt hi, getLsbD_ofInt hi, getLsbD_ofInt hi, Int.testBit_lxor]

end Word

namespace Arithmetic

variable {a b : Int}

/-- The function on integers: the result of `b f a` before it is cut down to a word. -/
def onIntegers (f : Arithmetic) (a b : Int) : Int :=
  match f with
  | add => b + a
  | sub => b - a
  | and => Int.land b a
  | xor => Int.xor b a

/-- The result is the word of the result on integers, whatever the operands are. -/
theorem compute_fst (f : Arithmetic) (a b : Int) : (f.compute a b).1 = Word.signed (f.onIntegers a b) := by
  cases f with
  | add =>
    change Word.signed (a + b) = Word.signed (b + a)
    rw [Int.add_comm]
  | sub => exact Word.signed_add_signed b (-a)
  | and =>
    change (BitVec.ofInt 64 b &&& BitVec.ofInt 64 a).toInt = Word.signed (Int.land b a)
    rw [← Word.ofInt_land, Word.toInt_ofInt]
  | xor =>
    change (BitVec.ofInt 64 b ^^^ BitVec.ofInt 64 a).toInt = Word.signed (Int.xor b a)
    rw [← Word.ofInt_xor, Word.toInt_ofInt]

/-- The rule of signs finds out whether a sum of words is one. -/
theorem sumOverflows_eq (ha : Word.InRange a) (hb : Word.InRange b) :
    sumOverflows a b (Word.signed (a + b)) = decide (a + b ≠ Word.signed (a + b)) := by
  have hsum := Word.signed_eq (a + b)
  unfold Word.InRange at ha hb
  unfold sumOverflows
  generalize Word.signed (a + b) = sum at hsum ⊢
  -- the exact sum is the word, or off by the modulus on either side
  have hoff : sum = a + b ∨ sum = a + b - 18446744073709551616 ∨ sum = a + b + 18446744073709551616 := by
    split at hsum <;> omega
  have hrange : -9223372036854775808 ≤ sum ∧ sum < 9223372036854775808 := by
    split at hsum <;> omega
  by_cases hna : a < 0 <;> by_cases hnb : b < 0 <;> by_cases hns : sum < 0 <;> simp [hna, hnb, hns] <;> omega

/-- **Addition.** It overflows exactly if the sum is no signed word. -/
theorem compute_add_snd (ha : Word.InRange a) (hb : Word.InRange b) :
    (add.compute a b).2 = decide (b + a ≠ Word.signed (b + a)) := by
  rw [Int.add_comm b a]
  exact sumOverflows_eq ha hb

/-- **Subtraction.** So does the difference, unless the subtrahend is the least word. -/
theorem compute_sub_snd (ha : Word.InRange a) (hb : Word.InRange b) (hne : a ≠ -9223372036854775808) :
    (sub.compute a b).2 = decide (b - a ≠ Word.signed (b - a)) := by
  have hneg := Word.signed_neg_of_ne ha hne
  have hrange : Word.InRange (-a) := hneg ▸ Word.signed_inRange (-a)
  change sumOverflows b (Word.signed (-a)) (Word.signed (b + Word.signed (-a))) = _
  rw [hneg]
  exact sumOverflows_eq hb hrange

/-- Sums and differences overflow exactly if the result on integers is changed by being made a word. -/
theorem compute_snd {f : Arithmetic} (ha : Word.InRange a) (hb : Word.InRange b)
    (hne : f = sub → a ≠ -9223372036854775808) :
    (f.compute a b).2 = decide (f.code ≤ 1 ∧ f.onIntegers a b ≠ (f.compute a b).1) := by
  rw [compute_fst]
  cases f with
  | add => simp only [compute_add_snd ha hb, onIntegers, code, Nat.zero_le, true_and]
  | sub => simp only [compute_sub_snd ha hb (hne rfl), onIntegers, code, Nat.le_refl, true_and]
  | and => simp [compute, code]
  | xor => simp [compute, code]

end Arithmetic

end Y86
