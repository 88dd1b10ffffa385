import Y86.Proofs.Machine.Arithmetic
import Y86.Proofs.Machine.Registers

/-!
# Integers and their words

The word of an integer is cut out by bits: the unsigned reading consists of the sixty-four lowest bits
(`Word.land_mask`), and the signed reading is `2 ^ 64` less if the highest of these is set (`Word.signed_eq_masked`).
A negative integer has infinitely many bits that are set, and still what is cut out of it is a natural number with the
same low bits (`Word.exists_land_eq`), so that both readings are the representatives of the residue that they should be
(`Word.Readings`).

Sums, differences and bitwise combinations of integers may be formed with operands that were made words before
(`Word.homomorphic`). For sums this holds of residues in any modulus. For the bitwise functions it holds because the
operation can be carried out on words of sixty-four bits (`Word.respects_of_ofInt`).

A register file keeps words. What it shows behind any sequence of assignments is the word of the last value that each
register was assigned, whatever the others were assigned and whatever was refused (`RegisterFile.Remembers`).
-/

namespace Y86

namespace Word

variable {x y : Int}

/-! ### Cutting out bits -/

/-- The sixty-four lowest bits. -/
def mask : Int := 18446744073709551615

/-- The highest of the sixty-four bits. -/
def signBit : Int := 9223372036854775808

/-- The bits that an integer has in common with a natural number are those of a natural number. -/
theorem exists_land_eq (x : Int) (m : Nat) :
    ∃ n : Nat, Int.land x m = n ∧ ∀ i, n.testBit i = (x.testBit i && m.testBit i) := by
  obtain ⟨n, hn⟩ : ∃ n : Nat, Int.land x m = n := by
    cases x with
    | ofNat k => exact ⟨_, rfl⟩
    | negSucc k => exact ⟨_, rfl⟩
  refine ⟨n, hn, fun i => ?_⟩
  have hbit := Int.testBit_land x m i
  rwa [hn] at hbit

theorem testBit_unsigned (x : Int) (i : Nat) : (unsigned x).testBit i = (x.testBit i && decide (i < 64)) := by
  have hword : (unsigned x).testBit i = (BitVec.ofInt 64 x).getLsbD i := by
    rw [BitVec.getLsbD, BitVec.toNat_ofInt]
    rfl
  rw [hword]
  by_cases hi : i < 64
  · rw [getLsbD_ofInt hi, decide_eq_true hi, Bool.and_true]
  · rw [BitVec.getLsbD_of_ge _ _ (Nat.le_of_not_lt hi), decide_eq_false hi, Bool.and_false]

/-- The unsigned reading consists of the lowest bits. -/
theorem land_mask (x : Int) : Int.land x mask = unsigned x := by
  obtain ⟨n, hn, hbits⟩ := exists_land_eq x (2 ^ 64 - 1)
  refine hn.trans (congrArg Int.ofNat (Nat.eq_of_testBit_eq fun i => ?_))
  rw [hbits, Nat.testBit_two_pow_sub_one, testBit_unsigned]

/-- The highest bit is set or nothing is left. -/
theorem land_signBit_ne_zero_iff (x : Int) : Int.land x signBit ≠ 0 ↔ x.testBit 63 = true := by
  obtain ⟨n, hn, hbits⟩ := exists_land_eq x (2 ^ 63)
  -- the only bit that the conjunction can have is the highest
  have hzero : Int.land x signBit = 0 ↔ x.testBit 63 = false := by
    rw [show Int.land x signBit = n from hn, Int.natCast_eq_zero]
    constructor
    · rintro rfl
      have hhighest := hbits 63
      rw [Nat.zero_testBit, Nat.testBit_two_pow_self, Bool.and_true] at hhighest
      exact hhighest.symm
    · intro hclear
      refine Nat.zero_of_testBit_eq_false fun i => ?_
      rw [hbits, Nat.testBit_two_pow]
      by_cases hi : 63 = i
      · rw [← hi, hclear, Bool.false_and]
      · rw [decide_eq_false hi, Bool.and_false]
  rw [ne_eq, hzero, Bool.not_eq_false]

/-- The signed reading is found by a test of the highest bit of the unsigned one. -/
theorem signed_eq_masked (x : Int) :
    signed x = if Int.land (Int.land x mask) signBit ≠ 0 then Int.land x mask - modulus else Int.land x mask := by
  have hsign : Int.land (unsigned x) signBit ≠ 0 ↔ signed x < 0 := by
    rw [land_signBit_ne_zero_iff, neg_iff_testBit (signed_inRange x), testBit_signed (by decide)]
    change (unsigned x).testBit 63 = true ↔ _
    rw [testBit_unsigned, decide_eq_true (by decide), Bool.and_true]
  have hs := signed_eq x
  have hu := unsigned_eq x
  simp only [land_mask, hsign]
  unfold modulus
  split at hs <;> split <;> omega

/-! ### The readings as residues -/

/-- The unsigned reading is the one number below `2 ^ 64` that is congruent to the integer. -/
theorem unsigned_eq_iff : (unsigned y : Int) = x ↔ (0 ≤ x ∧ x < modulus) ∧ x ≡ y [ZMOD modulus] := by
  rw [unsigned_eq]
  unfold Int.ModEq modulus
  constructor
  · rintro rfl
    exact ⟨by omega, Int.emod_emod_of_dvd _ (Int.dvd_refl _)⟩
  · rintro ⟨hx, h⟩
    rw [← Int.emod_eq_of_lt hx.1 hx.2]
    exact h.symm

/-- What the two readings of an integer are. -/
structure Readings (x : Int) : Prop where
  /-- The signed reading is the one word that is congruent to the integer. -/
  signed_iff : ∀ w, signed x = w ↔ Represents w x
  unsigned_iff : ∀ w : Int, (unsigned x : Int) = w ↔ (0 ≤ w ∧ w < modulus) ∧ w ≡ x [ZMOD modulus]
  /-- The readings undo each other, each on the integers that the other one leaves as they are. -/
  signed_unsigned : InRange x → signed (unsigned x) = x
  unsigned_signed : 0 ≤ x ∧ x < modulus → (unsigned (signed x) : Int) = x
  /-- Both are cut out of the integer by masks. -/
  unsigned_masked : (unsigned x : Int) = Int.land x mask
  signed_masked :
    signed x = if Int.land (Int.land x mask) signBit ≠ 0 then Int.land x mask - modulus else Int.land x mask

/-- The signed and the unsigned reading of an integer each stand for its class, and determine one another. -/
theorem readings (x : Int) : Readings x where
  signed_iff _ := signed_eq_iff
  unsigned_iff _ := unsigned_eq_iff
  signed_unsigned hx := (Word.signed_unsigned x).trans (signed_of_inRange hx)
  unsigned_signed hx := by
    rw [Word.unsigned_signed]
    exact unsigned_eq_iff.2 ⟨hx, rfl⟩
  unsigned_masked := (land_mask x).symm
  signed_masked := signed_eq_masked x

/-! ### Operations -/

theorem ofInt_signed (x : Int) : BitVec.ofInt 64 (signed x) = BitVec.ofInt 64 x := by
  rw [← toInt_ofInt, BitVec.ofInt_toInt]

/-- The word of the result is not changed if an operand is made a word before. -/
structure Respects (f : Int → Int → Int) : Prop where
  left : ∀ x y, signed (f (signed x) y) = signed (f x y)
  right : ∀ x y, signed (f x (signed y)) = signed (f x y)

/-- An operation that can be carried out on words only looks at the words of its operands. -/
theorem respects_of_ofInt {f : Int → Int → Int} {g : BitVec 64 → BitVec 64 → BitVec 64}
    (h : ∀ x y, BitVec.ofInt 64 (f x y) = g (BitVec.ofInt 64 x) (BitVec.ofInt 64 y)) : Respects f where
  left x y := by
    calc signed (f (signed x) y)
      _ = (g (BitVec.ofInt 64 (signed x)) (BitVec.ofInt 64 y)).toInt := by rw [← h, toInt_ofInt]
      _ = (g (BitVec.ofInt 64 x) (BitVec.ofInt 64 y)).toInt := by rw [ofInt_signed]
      _ = signed (f x y) := by rw [← h, toInt_ofInt]
  right x y := by
    calc signed (f x (signed y))
      _ = (g (BitVec.ofInt 64 x) (BitVec.ofInt 64 (signed y))).toInt := by rw [← h, toInt_ofInt]
      _ = (g (BitVec.ofInt 64 x) (BitVec.ofInt 64 y)).toInt := by rw [ofInt_signed]
      _ = signed (f x y) := by rw [← h, toInt_ofInt]

/-- The operations that may be carried out on operands that were made words before. -/
structure Homomorphic : Prop where
  add : Respects (· + ·)
  sub : Respects (· - ·)
  and : Respects Int.land
  xor : Respects Int.xor
  neg : ∀ x, signed (-signed x) = signed (-x)

/-- Arithmetic on integers can be wrapped at every step or once at the end. -/
theorem homomorphic : Homomorphic where
  add := ⟨signed_signed_add, signed_add_signed⟩
  sub := ⟨fun _ _ => Int.bmod_sub_bmod, fun _ _ => Int.sub_bmod_bmod⟩
  and := respects_of_ofInt ofInt_land
  xor := respects_of_ofInt ofInt_xor
  neg _ := Int.bmod_neg_bmod

end Word

/-! ### Register files -/

namespace RegisterFile

/-- What is known of a file that was made from `values` and then took the assignments `cs`. -/
structure Remembers (f : RegisterFile) (values : List Int) (cs : List Assignment) : Prop where
  inRange : ∀ r, Word.InRange (f.get r)
  /-- The listed values make the same file again. -/
  ofList_toList : ofList f.toList = f
  /-- A register holds the word of the last value that was assigned to it. -/
  last : ∀ (earlier later : List Assignment) (r : Register) (value : Int),
    cs = earlier ++ ⟨some r, value⟩ :: later → (∀ c ∈ later, c.field ≠ some r) →
      f.read (some r) = .ok (Word.signed value)
  /-- A register that no value was assigned to holds the word of its value in the list. -/
  unassigned : ∀ r, (∀ c ∈ cs, c.field ≠ some r) → f.read (some r) = .ok (Word.signed (values.getD r.index 0))

/-- After any assignments a register holds the last word that it was assigned, or the one it began with. -/
theorem remembers_afterAll (values : List Int) (cs : List Assignment) :
    ((ofList values).afterAll cs).Remembers values cs where
  inRange := get_inRange _
  ofList_toList := RegisterFile.ofList_toList _
  last := by
    rintro earlier later r value rfl hlater
    exact congrArg Except.ok (get_afterAll_last hlater _ earlier value)
  unassigned := by
    intro r hcs
    exact congrArg Except.ok ((get_afterAll_of_forall_ne hcs _).trans (get_ofList values r))

/-- **Integers are known by their words.** The two readings of an integer are the representatives of its residue that
they should be, and it makes no difference to the word of a result whether its operands were made words before. So a
register file, which keeps words, shows of each register the last value that it was given, as a word, and nothing else. -/
theorem keeps_words :
    (∀ x, Word.Readings x) ∧ Word.Homomorphic ∧
      ∀ (values : List Int) (cs : List Assignment), ((ofList values).afterAll cs).Remembers values cs :=
  ⟨Word.readings, Word.homomorphic, remembers_afterAll⟩

/-- More values than registers, an assignment that is refused, and a register that is assigned twice. -/
example :
    let values := [18446744073709551615, -9223372036854775809, 7, 0, 0, 0, 0, 0, 0, 0, 0, 0, 0, 0, 9223372036854775808, 5]
    ((ofList values).afterAll
        [⟨some .rcx, 3⟩, ⟨none, 1⟩, ⟨some .rcx, -18446744073709551614⟩, ⟨some .rbx, 4⟩]).toList
      = [-1, 2, 7, 4, 0, 0, 0, 0, 0, 0, 0, 0, 0, 0, -9223372036854775808] := by
  decide +kernel

end RegisterFile

end Y86
