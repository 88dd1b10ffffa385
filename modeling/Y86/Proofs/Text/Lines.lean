import Y86.Proofs.Text.Words
import Y86.Text.Lines

/-!
# Texts on one line

A text without line ends is on one line (`OneLine`), and so are texts that are made of such. If texts that are on one
line each, and none of them empty, are joined by line feeds, they are the lines of what results
(`lines_intercalate`).
-/

namespace Y86.Text

/-- No character of a text ends a line. -/
def OneLine (cs : List Char) : Prop := ∀ c ∈ cs, isLineEnd c = false

instance (cs : List Char) : Decidable (OneLine cs) := List.decidableBAll _ cs

variable {c : Char} {cs ds : List Char}

/-! ### Lines -/

theorem lines_cons_of_not_isLineEnd (h : isLineEnd c = false) (cs : List Char) :
    lines (c :: cs) = consFirst c (lines cs) := by
  have hreturn : c ≠ '\r' := by
    rintro rfl
    cases h
  -- only a carriage return looks at the character behind it
  rw [lines, if_neg (by rw [h]; exact Bool.false_ne_true)]
  exact fun _ hc _ => hreturn hc

/-- A line feed ends the line in front of it. -/
theorem lines_append_lineFeed (h : OneLine cs) (ds : List Char) : lines (cs ++ '\n' :: ds) = cs :: lines ds := by
  induction cs with
  | nil => rfl
  | cons c cs ih =>
    obtain ⟨hc, hcs⟩ := List.forall_mem_cons.1 h
    rw [List.cons_append, lines_cons_of_not_isLineEnd hc, ih hcs]
    rfl

theorem lines_eq_singleton (h : OneLine cs) (hne : cs ≠ []) : lines cs = [cs] := by
  induction cs with
  | nil => exact absurd rfl hne
  | cons c cs ih =>
    obtain ⟨hc, hcs⟩ := List.forall_mem_cons.1 h
    rw [lines_cons_of_not_isLineEnd hc]
    cases cs with
    | nil => rfl
    | cons d ds =>
      rw [ih hcs (List.cons_ne_nil d ds)]
      rfl

/-- Lines that are joined by line feeds are told apart again. -/
theorem lines_intercalate {ls : List (List Char)} (h : ∀ l ∈ ls, OneLine l ∧ l ≠ []) :
    lines (List.intercalate ['\n'] ls) = ls := by
  induction ls with
  | nil => rfl
  | cons l ls ih =>
    obtain ⟨⟨hl, hne⟩, hls⟩ := List.forall_mem_cons.1 h
    cases ls with
    | nil =>
      rw [List.intercalate_singleton]
      exact lines_eq_singleton hl hne
    | cons l' ls =>
      rw [List.intercalate_cons_cons, List.append_assoc, List.singleton_append, lines_append_lineFeed hl, ih hls]

/-! ### What is on one line -/

theorem OneLine.append (hcs : OneLine cs) (hds : OneLine ds) : OneLine (cs ++ ds) :=
  fun _ h => (List.mem_append.1 h).elim (hcs _) (hds _)

theorem OneLine.intercalate {ls : List (List Char)} (hcs : OneLine cs) (h : ∀ l ∈ ls, OneLine l) :
    OneLine (List.intercalate cs ls) := by
  intro c hc
  rcases mem_intercalate hc with hsep | ⟨l, hl, hcl⟩
  · exact hcs c hsep
  · exact h l hl c hcl

/-- A digit ends no line, since no digit is a blank and every line end is one. -/
theorem isLineEnd_of_isDigit (h : Hex.isDigit c = true) : isLineEnd c = false := by
  obtain ⟨n, hn⟩ := Option.isSome_iff_exists.1 h
  have hrange := Hex.range_of_digit? hn
  unfold isLineEnd
  simp only [Bool.or_eq_false_iff, Bool.and_eq_false_iff, decide_eq_false_iff_not, beq_eq_false_iff_ne]
  omega

theorem oneLine_of_isDigit (h : ∀ c ∈ cs, Hex.isDigit c = true) : OneLine cs := fun c hc =>
  isLineEnd_of_isDigit (h c hc)

theorem oneLine_of_sign_or_digit (h : ∀ c ∈ cs, c = '-' ∨ Hex.isDigit c = true) : OneLine cs := by
  intro c hc
  rcases h c hc with rfl | hdigit
  · decide
  · exact isLineEnd_of_isDigit hdigit

theorem oneLine_toString (x : Int) : OneLine (toString x).toList :=
  oneLine_of_sign_or_digit fun _ => Hex.sign_or_digit_of_mem_toString

theorem oneLine_field (width : Nat) (x : Int) : OneLine (Hex.field width x).toList :=
  oneLine_of_sign_or_digit fun _ => Hex.sign_or_digit_of_mem_field

end Y86.Text
