import Mathlib
import Y86.Text.Integer

/-!
# Decimal numerals

Decimal digits of any script denote a number, the first of them counting most (`Text.denoted`), and reading adds them up
from the front (`Integer.value_eq_denoted`). A number is read back from the digits that it is written with
(`denoted_toDigits`), and no more digits are written than were read (`length_toDigits_denoted_le`).

A run of characters of a class ends where what stands behind it does not begin with another of them
(`takeWhile_run`, `dropWhile_run`). No blank is a digit of any script, nor a letter or a digit of ASCII, so that digits
and names end where a blank stands.
-/

namespace Y86.Text

variable {c : Char} {ds : List Char} {n : Nat}

/-! ### Runs -/

section Run

variable {p : Char → Bool} {cs rest : List Char}

/-- A run of characters is taken up to the first one that does not belong to it. -/
theorem takeWhile_run (hcs : ∀ c ∈ cs, p c = true) (hrest : ∀ c ∈ rest.head?, p c = false) :
    (cs ++ rest).takeWhile p = cs := by
  rw [List.takeWhile_append_of_pos hcs]
  cases rest with
  | nil => exact List.append_nil cs
  | cons c rest => rw [List.takeWhile_cons_of_neg (ne_true_of_eq_false (hrest c rfl)), List.append_nil]

/-- And what follows it is left. -/
theorem dropWhile_run (hcs : ∀ c ∈ cs, p c = true) (hrest : ∀ c ∈ rest.head?, p c = false) :
    (cs ++ rest).dropWhile p = rest := by
  rw [List.dropWhile_append_of_pos hcs]
  cases rest with
  | nil => rfl
  | cons c rest => exact List.dropWhile_cons_of_neg (ne_true_of_eq_false (hrest c rfl))

/-- What is true of the first characters of both parts is true of the first of the whole. -/
theorem head?_append_of_forall {q : Char → Prop} (hcs : ∀ c ∈ cs, q c) (hrest : ∀ c ∈ rest.head?, q c) :
    ∀ c ∈ (cs ++ rest).head?, q c := by
  cases cs with
  | nil => exact hrest
  | cons d cs =>
    intro c hc
    cases Option.mem_some.1 hc
    exact hcs d List.mem_cons_self

end Run

/-! ### Blanks -/

/-- The code points of blanks lie in few ranges. -/
theorem range_of_isBlank (h : isBlank c = true) :
    9 ≤ c.toNat ∧ c.toNat ≤ 13 ∨ 28 ≤ c.toNat ∧ c.toNat ≤ 32 ∨ 133 ≤ c.toNat ∧ c.toNat ≤ 160 ∨
      5760 ≤ c.toNat ∧ c.toNat ≤ 5760 ∨ 8192 ≤ c.toNat ∧ c.toNat ≤ 8287 ∨ 12288 ≤ c.toNat ∧ c.toNat ≤ 12288 := by
  unfold isBlank isSpace singleSpaces at h
  simp only [Bool.or_eq_true, Bool.and_eq_true, decide_eq_true_eq, List.contains_eq_mem, List.mem_cons,
    List.not_mem_nil, or_false] at h
  omega

/-- No run of ten digits meets one of these ranges. -/
theorem isDigit_of_isBlank (h : isBlank c = true) : isDigit c = false := by
  have hrange := range_of_isBlank h
  -- the blanks lie in five ranges, and no run of digits meets any of them
  have hruns : ∀ first ∈ digitZeros, 32 < first ∧ (first + 10 ≤ 133 ∨ 160 < first) ∧ (first + 10 ≤ 5760 ∨ 5760 < first) ∧
      (first + 10 ≤ 8192 ∨ 8287 < first) ∧ (first + 10 ≤ 12288 ∨ 12288 < first) := by
    decide
  have hnone : (digitZeros.find? fun first => first ≤ c.toNat && c.toNat < first + 10) = none := by
    refine List.find?_eq_none.2 fun first hfirst => ?_
    have hrun := hruns first hfirst
    simp only [Bool.and_eq_true, decide_eq_true_eq]
    omega
  unfold isDigit digit?
  dsimp only
  rw [hnone]
  rfl

/-- Letters and digits of ASCII lie in three ranges. -/
theorem range_of_isAlphanum (h : c.isAlphanum = true) :
    ((65 ≤ c.toNat ∧ c.toNat ≤ 90) ∨ 97 ≤ c.toNat ∧ c.toNat ≤ 122) ∨ 48 ≤ c.toNat ∧ c.toNat ≤ 57 := by
  simp only [Char.isAlphanum, Char.isAlpha, Char.isUpper, Char.isLower, Char.isDigit, Bool.or_eq_true,
    Bool.and_eq_true, decide_eq_true_eq, UInt32.le_iff_toNat_le, ge_iff_le] at h
  exact h

/-- No blank is one of them. -/
theorem isAlphanum_of_isBlank (h : isBlank c = true) : c.isAlphanum = false := by
  have hblank := range_of_isBlank h
  rw [Bool.eq_false_iff]
  intro halnum
  have hrange := range_of_isAlphanum halnum
  omega

/-! ### What digits denote -/

/-- The number that decimal digits denote, the first one counting most. -/
def denoted (ds : List Char) : Nat := Nat.ofDigits 10 (ds.map fun c => (digit? c).getD 0).reverse

/-- The value of a decimal digit is less than ten. -/
theorem digit?_lt (h : digit? c = some n) : n < 10 := by
  obtain ⟨first, hfirst, rfl⟩ := Option.map_eq_some_iff.1 h
  have hrun := List.find?_some hfirst
  simp only [Bool.and_eq_true, decide_eq_true_eq] at hrun
  omega

theorem getD_digit?_lt (c : Char) : (digit? c).getD 0 < 10 := by
  cases h : digit? c with
  | none => exact Nat.zero_lt_succ 9
  | some d => exact digit?_lt h

/-- A numeral is bounded by the number of its digits. -/
theorem denoted_lt (ds : List Char) : denoted ds < 10 ^ ds.length := by
  have hall : ∀ d ∈ (ds.map fun c => (digit? c).getD 0).reverse, d < 10 := by
    intro d hd
    obtain ⟨c, -, rfl⟩ := List.mem_map.1 (List.mem_reverse.1 hd)
    exact getD_digit?_lt c
  have hlt := Nat.ofDigits_lt_base_pow_length (by decide) hall
  rwa [List.length_reverse, List.length_map] at hlt

/-- One digit more counts for ones, and all others for ten times as much. -/
theorem denoted_concat (ds : List Char) (c : Char) : denoted (ds ++ [c]) = 10 * denoted ds + (digit? c).getD 0 := by
  unfold denoted
  rw [List.map_append, List.reverse_append, List.map_singleton, List.reverse_singleton, List.singleton_append,
    Nat.ofDigits_cons, Nat.add_comm]

/-- Reading passes over no digit, and adds up what is denoted. -/
theorem Integer.value_eq_denoted (h : ∀ c ∈ ds, isDigit c = true) : value 10 ds = denoted ds := by
  have hdigit : ∀ c ∈ ds, digit? 10 c = some ((Text.digit? c).getD 0) := by
    intro c hc
    obtain ⟨d, hd⟩ := Option.isSome_iff_exists.1 (h c hc)
    unfold digit?
    rw [hd]
    exact Option.filter_some_pos (decide_eq_true (digit?_lt hd))
  -- no character is left out, so the numeral has a value for each
  have hmap : ds.filterMap (digit? 10) = ds.map fun c => (Text.digit? c).getD 0 := by
    rw [List.filterMap_congr hdigit]
    exact congrFun List.filterMap_eq_map ds
  unfold value denoted
  rw [hmap, Nat.ofDigits_eq_foldr, List.foldr_reverse]
  congr 1
  funext n d
  exact Nat.add_comm _ _

/-! ### Writing and reading back -/

/-- The digits of ASCII are digits, among others. -/
theorem isDigit_of_ascii (h : c.isDigit = true) : isDigit c = true := by
  rw [isDigit, digit?_of_isDigit h]
  rfl

theorem isDigit_of_mem_toDigits (h : c ∈ Nat.toDigits 10 n) : isDigit c = true :=
  isDigit_of_ascii (Nat.isDigit_of_mem_toDigits (by decide) (by decide) h)

/-- A digit that is written is read again. -/
theorem digit?_digitChar (h : n < 10) : digit? n.digitChar = some n := by
  have hall : ∀ n : Fin 10, digit? n.val.digitChar = some n.val := by decide
  exact hall ⟨n, h⟩

/-- **Decimals.** A number is read again from its digits. -/
theorem denoted_toDigits (n : Nat) : denoted (Nat.toDigits 10 n) = n := by
  induction n using Nat.strongRecOn with
  | ind n ih =>
    rw [Nat.toDigits_eq_if (by decide)]
    split
    case isTrue hlt =>
      change Nat.ofDigits 10 [(digit? n.digitChar).getD 0] = n
      rw [digit?_digitChar hlt, Nat.ofDigits_singleton]
      rfl
    case isFalse hge =>
      -- the last digit is the remainder, and the others are those of the quotient
      rw [denoted_concat, ih (n / 10) (by omega), digit?_digitChar (Nat.mod_lt n (by decide))]
      exact Nat.div_add_mod n 10

/-- Zeros in front make a numeral longer than the number needs. -/
theorem length_toDigits_denoted_le (h : ds ≠ []) : (Nat.toDigits 10 (denoted ds)).length ≤ ds.length :=
  (Nat.length_toDigits_le_iff (by decide) (List.length_pos_iff.2 h)).2 (denoted_lt ds)

/-- An integer is written with a minus in front of its digits if it is negative. -/
theorem toList_toString (x : Int) :
    (toString x).toList = (if x < 0 then ['-'] else []) ++ Nat.toDigits 10 x.natAbs := by
  change x.repr.toList = _
  rw [Int.repr_eq_if]
  split
  case isTrue h =>
    have hnat : x.toNat = x.natAbs := by omega
    rw [if_neg (Int.not_lt.2 h), List.nil_append, Nat.repr_eq_ofList_toDigits, String.toList_ofList, hnat]
  case isFalse h =>
    have hnat : (-x).toNat = x.natAbs := by omega
    rw [if_pos (Int.not_le.1 h), String.toList_append, Nat.repr_eq_ofList_toDigits, String.toList_ofList,
      String.toList_ofList, hnat]

end Y86.Text
