import Mathlib.Data.List.TakeWhile
import Y86.Text.Blank
import Y86.Text.Hex

/-!
# Hexadecimal numerals read back

A number is read back from its numeral, also if that is filled up with zeros (`Hex.value_zeroFill_digits`), and a byte
from its two digits of either case (`Hex.byteUpper_spec`). Numerals are made of digits, with a sign in front of those of
negative numbers, and no digit is a blank (`Hex.isBlank_of_isDigit`).
-/

namespace Y86.Text.Hex

variable {c : Char} {cs ds : List Char} {n : Nat}

/-! ### Digits -/

theorem isBlank_of_isDigit (h : isDigit c = true) : isBlank c = false := by
  obtain ⟨d, hd⟩ := Option.isSome_iff_exists.1 h
  have hrange := range_of_digit? hd
  -- no blank lies in one of the ranges of digits
  unfold isBlank isSpace singleSpaces
  simp only [Bool.or_eq_false_iff, Bool.and_eq_false_iff, decide_eq_false_iff_not, List.contains_eq_mem,
    List.mem_cons, List.not_mem_nil, or_false]
  omega

/-- The digit character of a value has that value. -/
theorem digit?_digitChar (h : n < 16) : digit? n.digitChar = some n := by
  have hall : ∀ n : Fin 16, digit? n.val.digitChar = some n.val := by decide
  exact hall ⟨n, h⟩

theorem isDigit_digitChar (h : n < 16) : isDigit n.digitChar = true := by
  rw [isDigit, digit?_digitChar h]
  rfl

/-- A decimal digit of ASCII is a hexadecimal digit. -/
theorem isDigit_of_decimal (h : c.isDigit = true) : isDigit c = true := by
  simp only [Char.isDigit, Bool.and_eq_true, decide_eq_true_eq] at h
  have hrange : '0' ≤ c ∧ c ≤ '9' := h
  unfold isDigit digit?
  rw [if_pos hrange]
  rfl

/-! ### Numerals -/

theorem value_append_singleton (cs : List Char) (c : Char) :
    value (cs ++ [c]) = 16 * value cs + (digit? c).getD 0 := by
  unfold value
  rw [List.foldl_append]
  rfl

/-- The numeral of a number is made of digits and denotes the number. -/
theorem digits_spec (n : Nat) : (∀ c ∈ digits n, isDigit c = true) ∧ value (digits n) = n := by
  unfold digits
  induction n using Nat.strongRecOn with
  | ind n ih =>
    rw [Nat.toDigits_eq_if (by decide)]
    split
    case isTrue hlt =>
      refine ⟨fun c hc => ?_, ?_⟩
      · rw [List.mem_singleton.1 hc]
        exact isDigit_digitChar hlt
      · change 16 * 0 + (digit? n.digitChar).getD 0 = n
        rw [digit?_digitChar hlt, Option.getD_some, Nat.mul_zero, Nat.zero_add]
    case isFalse hge =>
      -- the last digit is the remainder, and the others are the numeral of the quotient
      have hmod : n % 16 < 16 := Nat.mod_lt n (by decide)
      obtain ⟨hdigits, hvalue⟩ := ih (n / 16) (by omega)
      refine ⟨fun c hc => ?_, ?_⟩
      · rcases List.mem_append.1 hc with hc | hc
        · exact hdigits c hc
        · rw [List.mem_singleton.1 hc]
          exact isDigit_digitChar hmod
      · rw [value_append_singleton, hvalue, digit?_digitChar hmod, Option.getD_some]
        exact Nat.div_add_mod n 16

theorem value_replicate_zero_append (k : Nat) (cs : List Char) : value (List.replicate k '0' ++ cs) = value cs := by
  induction k with
  | zero => rfl
  | succ k ih =>
    rw [List.replicate_succ, List.cons_append]
    exact ih

/-- Zeros in front of a numeral do not matter. -/
theorem value_zeroFill_digits (width n : Nat) : value (zeroFill width (digits n)) = n :=
  (value_replicate_zero_append _ _).trans (digits_spec n).2

theorem isDigit_of_mem_zeroFill {width : Nat} (h : c ∈ zeroFill width (digits n)) : isDigit c = true := by
  rcases List.mem_append.1 h with hzero | hdigit
  · rw [List.eq_of_mem_replicate hzero]
    rfl
  · exact (digits_spec n).1 c hdigit

/-! ### Signed numerals -/

theorem isDigit_of_mem_repr (h : c ∈ n.repr.toList) : isDigit c = true := by
  rw [Nat.repr_eq_ofList_toDigits, String.toList_ofList] at h
  exact isDigit_of_decimal (Nat.isDigit_of_mem_toDigits (by decide) (by decide) h)

theorem sign_or_digit_of_mem_toString {x : Int} (h : c ∈ (toString x).toList) : c = '-' ∨ isDigit c = true := by
  change c ∈ x.repr.toList at h
  rw [Int.repr_eq_if] at h
  split at h
  · exact Or.inr (isDigit_of_mem_repr h)
  · rw [String.toList_append] at h
    rcases List.mem_append.1 h with hsign | hdigit
    · exact Or.inl (List.mem_singleton.1 hsign)
    · exact Or.inr (isDigit_of_mem_repr hdigit)

theorem sign_or_digit_of_mem_field {width : Nat} {x : Int} (h : c ∈ (field width x).toList) :
    c = '-' ∨ isDigit c = true := by
  unfold field at h
  split at h
  · rw [String.toList_ofList] at h
    exact (List.mem_cons.1 h).imp_right isDigit_of_mem_zeroFill
  · rw [String.toList_ofList] at h
    exact Or.inr (isDigit_of_mem_zeroFill h)

/-! ### Bytes -/

/-- A byte is written in two digits, which denote it. -/
theorem byteUpper_spec (b : UInt8) :
    ∃ high low, (byteUpper b).toList = [high, low] ∧ isDigit high = true ∧ isDigit low = true ∧
      value [high, low] = b.toNat := by
  have hall : ∀ n : Fin 256,
      ((byteUpper (UInt8.ofNat n.val)).toList.length = 2 ∧ (byteUpper (UInt8.ofNat n.val)).toList.all isDigit) ∧
        value (byteUpper (UInt8.ofNat n.val)).toList = n.val := by
    decide +kernel
  obtain ⟨⟨hlength, hdigits⟩, hvalue⟩ := hall ⟨b.toNat, b.toNat_lt⟩
  rw [UInt8.ofNat_toNat] at hlength hdigits hvalue
  match hpair : (byteUpper b).toList, hlength with
  | [high, low], _ =>
    rw [hpair] at hdigits hvalue
    rw [List.all_cons, List.all_cons, Bool.and_eq_true, Bool.and_eq_true] at hdigits
    exact ⟨high, low, rfl, hdigits.1, hdigits.2.1, hvalue⟩

end Y86.Text.Hex
