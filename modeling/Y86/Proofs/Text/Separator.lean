import Mathlib
import Y86.Proofs.Text.Hex

/-!
# Texts told apart by a separator

Where a separator stands behind a text that does not contain it, the text can be found again: the first separator is the
one behind it (`append_separator_inj`). So texts that were joined by a separator are told apart (`intercalate_inj`).

Numerals contain no separator but the sign of a negative number (`not_mem_toString`, `not_mem_field`), and an integer is
known from its decimal numeral, as a number that is not negative is from its hexadecimal one (`Hex.field_inj`).
-/

namespace Y86.Text

section Separator

variable {α : Type} {s : α} {sep xs ys xs' ys' : List α} {ls ls' : List (List α)}

theorem append_separator_inj (hs : s ∉ xs) (hs' : s ∉ xs') (h : xs ++ s :: ys = xs' ++ s :: ys') :
    xs = xs' ∧ ys = ys' := by
  induction xs generalizing xs' with
  | nil =>
    cases xs' with
    | nil => exact ⟨rfl, List.tail_eq_of_cons_eq h⟩
    | cons x' xs' =>
      -- the separator would be the first element of `xs'`
      rw [List.nil_append, List.cons_append] at h
      exact absurd (List.head_eq_of_cons_eq h ▸ List.mem_cons_self) hs'
  | cons x xs ih =>
    cases xs' with
    | nil =>
      rw [List.nil_append, List.cons_append] at h
      exact absurd (List.head_eq_of_cons_eq h ▸ List.mem_cons_self) hs
    | cons x' xs' =>
      rw [List.cons_append, List.cons_append] at h
      obtain ⟨rfl, rfl⟩ := ih (List.not_mem_of_not_mem_cons hs) (List.not_mem_of_not_mem_cons hs')
        (List.tail_eq_of_cons_eq h)
      exact ⟨congrArg (· :: xs) (List.head_eq_of_cons_eq h), rfl⟩

/-- As many texts on both sides, joined by a separator that begins with a letter which is in none of them. -/
theorem intercalate_inj (hlength : ls.length = ls'.length) (hs : ∀ l ∈ ls, s ∉ l) (hs' : ∀ l ∈ ls', s ∉ l)
    (h : List.intercalate (s :: sep) ls = List.intercalate (s :: sep) ls') : ls = ls' := by
  induction ls generalizing ls' with
  | nil => exact (List.length_eq_zero_iff.1 hlength.symm).symm
  | cons l ls ih =>
    obtain ⟨l', ls', rfl⟩ := List.exists_cons_of_length_eq_add_one hlength.symm
    have hshort : ls.length = ls'.length := Nat.succ.inj hlength
    obtain ⟨hl, hls⟩ := List.forall_mem_cons.1 hs
    obtain ⟨hl', hls'⟩ := List.forall_mem_cons.1 hs'
    cases ls with
    | nil =>
      obtain rfl := List.length_eq_zero_iff.1 hshort.symm
      rw [List.intercalate_singleton, List.intercalate_singleton] at h
      rw [h]
    | cons m ls =>
      obtain ⟨m', ls', rfl⟩ := List.exists_cons_of_length_eq_add_one hshort.symm
      -- the first separator stands behind the first text on both sides
      rw [List.intercalate_cons_cons, List.intercalate_cons_cons, List.append_assoc, List.append_assoc,
        List.cons_append, List.cons_append] at h
      obtain ⟨rfl, hrest⟩ := append_separator_inj hl hl' h
      rw [ih hshort hls hls' (List.append_cancel_left hrest)]

end Separator

/-! ### Numerals -/

section Sign

variable {s : Char} (hsign : s ≠ '-') (hdigit : Hex.isDigit s = false)

include hsign hdigit

/-- A character that is neither a sign nor a digit is in no numeral. -/
theorem not_mem_of_sign_or_digit {cs : List Char} (h : ∀ c ∈ cs, c = '-' ∨ Hex.isDigit c = true) : s ∉ cs := by
  intro hs
  rcases h s hs with hs | hs
  · exact hsign hs
  · rw [hdigit] at hs
    cases hs

theorem not_mem_toString (x : Int) : s ∉ (toString x).toList :=
  not_mem_of_sign_or_digit hsign hdigit fun _ => Hex.sign_or_digit_of_mem_toString

theorem not_mem_field (width : Nat) (x : Int) : s ∉ (Hex.field width x).toList :=
  not_mem_of_sign_or_digit hsign hdigit fun _ => Hex.sign_or_digit_of_mem_field

end Sign

theorem toString_inj {x y : Int} (h : (toString x).toList = (toString y).toList) : x = y :=
  Int.repr_inj.1 (String.toList_inj.1 h)

theorem Hex.field_inj {width : Nat} {x y : Int} (hx : 0 ≤ x) (hy : 0 ≤ y)
    (h : (field width x).toList = (field width y).toList) : x = y := by
  unfold field at h
  rw [if_neg (Int.not_lt.2 hx), if_neg (Int.not_lt.2 hy), String.toList_ofList, String.toList_ofList] at h
  have hvalue := congrArg value h
  rw [value_zeroFill_digits, value_zeroFill_digits] at hvalue
  omega

end Y86.Text
