/-!
# Sixty-four-bit readings of integers

Every quantity of the machine is an integer, and a word is what is left of it modulo `2 ^ 64`. A word has
two readings, and eight bytes:

* `Word.signed` is the representative in `[-2 ^ 63, 2 ^ 63)`, the reading of registers;
* `Word.unsigned` is the representative in `[0, 2 ^ 64)`, the reading of memory words and addresses in code;
* `Word.toBytes` is the little-endian byte string, `Word.ofBytes` the number that a byte string denotes.

The lemmas say that the readings only depend on the residue, and that bytes and numbers undo each other.
-/

namespace Y86.Word

/-- The number of different words, `2 ^ 64`. -/
abbrev modulus : Nat := 18446744073709551616

/-- The signed reading: the representative of `x` modulo `2 ^ 64` in `[-2 ^ 63, 2 ^ 63)`. -/
def signed (x : Int) : Int := x.bmod modulus

/-- The unsigned reading: the representative of `x` modulo `2 ^ 64` in `[0, 2 ^ 64)`. -/
def unsigned (x : Int) : Nat := (x % (modulus : Int)).toNat

/-- Being the signed reading of some word. -/
def InRange (x : Int) : Prop := -9223372036854775808 ≤ x ∧ x < 9223372036854775808

instance (x : Int) : Decidable (InRange x) := inferInstanceAs (Decidable (_ ∧ _))

/-- The residue itself if it is below `2 ^ 63`, and otherwise `2 ^ 64` less. -/
theorem signed_eq (x : Int) :
    signed x = if x % 18446744073709551616 < 9223372036854775808
      then x % 18446744073709551616 else x % 18446744073709551616 - 18446744073709551616 :=
  Int.bmod_def x modulus

/-- The unsigned reading is the remainder by the number of words. -/
theorem unsigned_eq (x : Int) : (unsigned x : Int) = x % 18446744073709551616 :=
  Int.toNat_of_nonneg (Int.emod_nonneg x (by decide))

/-- The signed reading of an integer is a signed word. -/
theorem signed_inRange (x : Int) : InRange (signed x) := by
  rw [InRange, signed_eq]
  split <;> omega

/-- A signed word is its own signed reading. -/
theorem signed_of_inRange {x : Int} (h : InRange x) : signed x = x := by
  unfold InRange at h
  rw [signed_eq]
  split <;> omega

@[simp] theorem signed_signed (x : Int) : signed (signed x) = signed x :=
  signed_of_inRange (signed_inRange x)

theorem unsigned_lt (x : Int) : unsigned x < modulus := by
  have h := unsigned_eq x
  unfold modulus
  omega

/-- The two readings of an integer are readings of each other. -/
@[simp] theorem signed_unsigned (x : Int) : signed (unsigned x : Int) = signed x := by
  rw [signed_eq, signed_eq, unsigned_eq, Int.emod_emod_of_dvd _ (Int.dvd_refl _)]

@[simp] theorem unsigned_signed (x : Int) : unsigned (signed x) = unsigned x := by
  have h := signed_eq x
  have hu := unsigned_eq x
  have hs := unsigned_eq (signed x)
  split at h <;> omega

/-! ### Bytes -/

/-- The `count` least significant bytes of `n`, the least significant first. -/
def lowBytes : Nat → Nat → List UInt8
  | 0, _ => []
  | count + 1, n => UInt8.ofNat n :: lowBytes count (n / 256)

/-- The eight little-endian bytes of the word `x`. -/
def toBytes (x : Int) : List UInt8 := lowBytes 8 (unsigned x)

/-- The number denoted by a little-endian byte string. -/
def ofBytes : List UInt8 → Nat
  | [] => 0
  | b :: bs => b.toNat + 256 * ofBytes bs

@[simp] theorem length_lowBytes (count n : Nat) : (lowBytes count n).length = count := by
  induction count generalizing n with
  | zero => rfl
  | succ count ih => simp [lowBytes, ih]

@[simp] theorem length_toBytes (x : Int) : (toBytes x).length = 8 :=
  length_lowBytes 8 _

/-- Bytes and numbers undo each other, up to the bytes that were dropped. -/
theorem ofBytes_lowBytes (count n : Nat) : ofBytes (lowBytes count n) = n % Nat.pow 256 count := by
  induction count generalizing n with
  | zero => simp [lowBytes, ofBytes, Nat.mod_one]
  | succ count ih =>
    have low : (UInt8.ofNat n).toNat = n % 256 := by simp
    change _ = n % (Nat.pow 256 count * 256)
    rw [lowBytes, ofBytes, ih, low, Nat.mul_comm (Nat.pow 256 count) 256, Nat.mod_mul]

/-- A word is put together again from its bytes. -/
@[simp] theorem ofBytes_toBytes (x : Int) : ofBytes (toBytes x) = unsigned x := by
  rw [toBytes, ofBytes_lowBytes]
  exact Nat.mod_eq_of_lt (unsigned_lt x)

end Y86.Word
