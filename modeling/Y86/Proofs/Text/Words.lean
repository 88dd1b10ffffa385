import Y86.Proofs.Text.Hex

/-!
# Words and digits

The words of a text are its longest stretches without blanks, so they fall apart where a blank stands
(`words_append_blank`), and a stretch without blanks is one word (`words_eq_singleton`). Words that are joined by
spaces are told apart again (`words_intercalate`).

A reader that goes on as long as it finds hexadecimal digits and blanks does not see words, and may stop inside one.
It then has the words in front, and of the word that it stopped in the digits at its beginning, if there are any
(`words_takeWhile`).
-/

namespace Y86.Text

variable {c : Char} {cs ds : List Char}

/-! ### Where words end -/

/-- A blank ends the word in front. -/
theorem wordsFrom_cons_of_isBlank (h : isBlank c = true) : wordsFrom (c :: cs) = ([], words cs) := by
  rw [wordsFrom]
  dsimp only
  rw [if_pos h]
  rfl

/-- Any other character belongs to it. -/
theorem wordsFrom_cons_of_not_isBlank (h : isBlank c = false) :
    wordsFrom (c :: cs) = (c :: (wordsFrom cs).1, (wordsFrom cs).2) := by
  rw [wordsFrom]
  dsimp only
  rw [if_neg (by rw [h]; exact Bool.false_ne_true)]

/-- Blanks in front of a text do not count. -/
theorem words_cons_of_isBlank (h : isBlank c = true) : words (c :: cs) = words cs := by
  unfold words
  rw [wordsFrom_cons_of_isBlank h]
  rfl

/-- A blank ends a word, wherever it stands. -/
theorem words_append_blank (h : isBlank c = true) (cs ds : List Char) :
    words (cs ++ c :: ds) = words cs ++ words ds := by
  have hfrom : ∀ cs, wordsFrom (cs ++ c :: ds) = ((wordsFrom cs).1, (wordsFrom cs).2 ++ words ds) := by
    intro cs
    induction cs with
    | nil => exact wordsFrom_cons_of_isBlank h
    | cons d cs ih =>
      rw [List.cons_append, wordsFrom, wordsFrom, ih]
      dsimp only
      -- the first word is put in front of the others, unless it is empty
      split
      · split <;> rfl
      · rfl
  unfold words
  rw [hfrom]
  dsimp only
  split <;> rfl

/-- A text without blanks is one word. -/
theorem wordsFrom_eq_self (h : ∀ c ∈ cs, isBlank c = false) : wordsFrom cs = (cs, []) := by
  induction cs with
  | nil => rfl
  | cons c cs ih =>
    obtain ⟨hc, hcs⟩ := List.forall_mem_cons.1 h
    rw [wordsFrom_cons_of_not_isBlank hc, ih hcs]

theorem words_eq_singleton (h : ∀ c ∈ cs, isBlank c = false) (hne : cs ≠ []) : words cs = [cs] := by
  unfold words
  rw [wordsFrom_eq_self h]
  dsimp only
  rw [if_neg (by rwa [List.isEmpty_iff])]

/-- A blank behind a text that neither begins nor ends with one is trimmed off, and nothing else. -/
theorem trim_append_blank {d : Char} (hblank : isBlank c = true) (hfirst : isBlank d = false)
    (hlast : ∀ e ∈ (d :: cs).getLast?, isBlank e = false) : trim (d :: cs ++ [c]) = d :: cs := by
  -- the text does not end in a blank itself, so only the last character goes
  have hback : (d :: cs).reverse.dropWhile isBlank = (d :: cs).reverse := by
    rw [← List.head?_reverse] at hlast
    cases hrev : (d :: cs).reverse with
    | nil => rfl
    | cons e es =>
      rw [hrev] at hlast
      exact List.dropWhile_cons_of_neg (by rw [hlast e rfl]; exact Bool.false_ne_true)
  unfold trim trimOf
  rw [List.cons_append, List.dropWhile_cons_of_neg (by rw [hfirst]; exact Bool.false_ne_true), ← List.cons_append,
    List.reverse_append, List.reverse_singleton, List.singleton_append, List.dropWhile_cons_of_pos hblank, hback,
    List.reverse_reverse]

/-! ### Joined words -/

section Joined

variable {sep w : List Char} {ws : List (List Char)}

/-- What occurs in a joined text occurs in a separator or in a part. -/
theorem mem_intercalate (h : c ∈ List.intercalate sep ws) : c ∈ sep ∨ ∃ w ∈ ws, c ∈ w := by
  induction ws with
  | nil => cases h
  | cons w ws ih =>
    -- no separator stands behind the last part
    cases ws with
    | nil =>
      rw [List.intercalate_singleton] at h
      exact Or.inr ⟨w, List.mem_cons_self, h⟩
    | cons w' ws =>
      rw [List.intercalate_cons_cons, List.mem_append, List.mem_append] at h
      rcases h with (hw | hsep) | hrest
      · exact Or.inr ⟨w, List.mem_cons_self, hw⟩
      · exact Or.inl hsep
      · exact (ih hrest).imp id fun ⟨v, hv, hcv⟩ => ⟨v, List.mem_cons_of_mem w hv, hcv⟩

/-- A joined text is not empty if its parts are not. -/
theorem intercalate_ne_nil (hws : ws ≠ []) (hne : ∀ w ∈ ws, w ≠ []) : List.intercalate sep ws ≠ [] := by
  cases ws with
  | nil => exact absurd rfl hws
  | cons w ws =>
    obtain ⟨c, cs, rfl⟩ := List.exists_cons_of_ne_nil (hne w List.mem_cons_self)
    cases ws with
    | nil =>
      rw [List.intercalate_singleton]
      exact List.cons_ne_nil c cs
    | cons _ _ =>
      rw [List.intercalate_cons_cons]
      exact List.cons_ne_nil c _

/-- A text ends as its last part does. -/
theorem getLast?_append_right (cs : List Char) (h : ds ≠ []) : (cs ++ ds).getLast? = ds.getLast? := by
  rw [List.getLast?_append, List.getLast?_eq_some_getLast h, Option.some_or]

/-- Joined words end as the last of them does. -/
theorem mem_getLast?_intercalate (h : c ∈ (List.intercalate sep ws).getLast?) (hne : ∀ w ∈ ws, w ≠ []) :
    ∃ w ∈ ws, c ∈ w := by
  induction ws with
  | nil => cases h
  | cons w ws ih =>
    have hws := (List.forall_mem_cons.1 hne).2
    -- the last character is one of the last part, as no part is empty
    cases ws with
    | nil =>
      rw [List.intercalate_singleton] at h
      exact ⟨w, List.mem_cons_self, List.mem_of_mem_getLast? h⟩
    | cons w' ws =>
      rw [List.intercalate_cons_cons, getLast?_append_right _ (intercalate_ne_nil (List.cons_ne_nil w' ws) hws)] at h
      obtain ⟨v, hv, hcv⟩ := ih h hws
      exact ⟨v, List.mem_cons_of_mem w hv, hcv⟩

/-- **Words.** A text is taken apart into the words that it was joined from. -/
theorem words_intercalate (h : ∀ w ∈ ws, w ≠ [] ∧ ∀ c ∈ w, isBlank c = false) :
    words (List.intercalate [' '] ws) = ws := by
  induction ws with
  | nil => rfl
  | cons w ws ih =>
    obtain ⟨⟨hne, hw⟩, hws⟩ := List.forall_mem_cons.1 h
    -- every word but the last is followed by a blank
    cases ws with
    | nil =>
      rw [List.intercalate_singleton]
      exact words_eq_singleton hw hne
    | cons w' ws =>
      rw [List.intercalate_cons_cons, List.append_assoc, List.singleton_append, words_append_blank (by decide),
        words_eq_singleton hw hne, ih hws, List.singleton_append]

end Joined

/-! ### Stopping inside a word -/

/-- The words up to the first that is no numeral, and of that one the digits in front, if there are any. -/
def cutWords : List (List Char) → List (List Char)
  | [] => []
  | word :: words =>
    if word.all Hex.isDigit then word :: cutWords words
    else if (word.takeWhile Hex.isDigit).isEmpty then []
    else [word.takeWhile Hex.isDigit]

/-- A first word, which may be empty, is cut like any other. -/
theorem cutWords_first (word : List Char) (words : List (List Char)) :
    let rest := if word.all Hex.isDigit then cutWords words else []
    (if (word.takeWhile Hex.isDigit).isEmpty then rest else word.takeWhile Hex.isDigit :: rest)
      = cutWords (if word.isEmpty then words else word :: words) := by
  intro rest
  cases word with
  | nil => rfl
  | cons c cs =>
    rw [if_neg (show ¬(c :: cs).isEmpty = true from Bool.false_ne_true), cutWords]
    by_cases hall : (c :: cs).all Hex.isDigit = true
    · -- a numeral is its own beginning
      have hself : (c :: cs).takeWhile Hex.isDigit = c :: cs := List.takeWhile_eq_self_iff.2 (List.all_eq_true.1 hall)
      rw [if_pos hall, hself, show rest = cutWords words from if_pos hall]
      rfl
    · -- a word that is no numeral is the last that is read
      rw [if_neg hall, show rest = [] from if_neg hall]

/-- Up to the first character that is neither a digit nor a blank, a text has the same words, the last of them cut. -/
theorem wordsFrom_takeWhile (cs : List Char) :
    wordsFrom (cs.takeWhile fun c => Hex.isDigit c || isBlank c)
      = ((wordsFrom cs).1.takeWhile Hex.isDigit,
          if (wordsFrom cs).1.all Hex.isDigit then cutWords (wordsFrom cs).2 else []) := by
  induction cs with
  | nil => rfl
  | cons c cs ih =>
    by_cases hblank : isBlank c = true
    · -- a blank is passed, and the words behind it count
      rw [List.takeWhile_cons_of_pos (by rw [hblank, Bool.or_true]), wordsFrom_cons_of_isBlank hblank,
        wordsFrom_cons_of_isBlank hblank]
      refine Prod.ext rfl ?_
      change words (cs.takeWhile _) = cutWords (words cs)
      unfold words
      rw [ih]
      exact cutWords_first _ _
    · -- the reader goes on as long as there are digits
      rw [Bool.not_eq_true] at hblank
      by_cases hdigit : Hex.isDigit c = true
      · -- a digit belongs to the first word
        rw [List.takeWhile_cons_of_pos (by rw [hdigit, Bool.true_or]), wordsFrom_cons_of_not_isBlank hblank,
          wordsFrom_cons_of_not_isBlank hblank, ih, List.takeWhile_cons_of_pos hdigit, List.all_cons, hdigit,
          Bool.true_and]
      · -- at any other character the reader stops
        rw [Bool.not_eq_true] at hdigit
        rw [List.takeWhile_cons_of_neg (by rw [hdigit, hblank]; exact Bool.false_ne_true),
          wordsFrom_cons_of_not_isBlank hblank, List.takeWhile_cons_of_neg (by rw [hdigit]; exact Bool.false_ne_true),
          List.all_cons, hdigit]
        rfl

/-- A reader of digits and blanks has the words up to the first that is no numeral, and the beginning of that one. -/
theorem words_takeWhile (cs : List Char) :
    words (cs.takeWhile fun c => Hex.isDigit c || isBlank c) = cutWords (words cs) := by
  unfold words
  rw [wordsFrom_takeWhile]
  exact cutWords_first _ _

end Y86.Text
