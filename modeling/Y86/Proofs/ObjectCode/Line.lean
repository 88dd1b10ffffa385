import Y86.ObjectCode.Record
import Y86.Proofs.Text.Words

/-!
# The record of a line

A line holds a record exactly if, without its comment, it is a marked address, a colon and data with at least one
digit in front (`ObjectRecord.ofLine?_eq_some_iff`).

Which digits of the data are bytes is settled by its words. If only whole words counted, these would be the first word,
and all further words up to the first that is no even number of digits (`ObjectRecord.wholeDigits`). The reader stops
at the first character that is neither a digit nor a blank, and this may be inside a word. So it has the digits of the
whole words, unless the first word that is no numeral begins with digits that can pass for bytes
(`ObjectRecord.CutAt`); these then come in addition (`ObjectRecord.digits_whole_or_cut`).
-/

namespace Y86

open Text

namespace ObjectRecord

variable {line : List Char} {r : ObjectRecord}

/-- The data of a line: what is behind the first colon. -/
def dataOf (line : List Char) : List Char := ((uncomment line).dropWhile (· != ':')).tail

/-- A word that is made of digits. -/
def isNumeral (word : List Char) : Bool := word.all Hex.isDigit

/-- The digits at the beginning of a word. -/
def front (word : List Char) : List Char := word.takeWhile Hex.isDigit

/-- The digits of data in words, if only whole words are bytes. -/
def wholeDigits : List (List Char) → List Char
  | [] => []
  | word :: words =>
    if isNumeral word then word ++ (words.takeWhile fun w => isNumeral w && w.length % 2 == 0).flatten else []

/-- Behind numerals that are all bytes stands a word that is none, but begins with digits that can pass for bytes. -/
structure CutAt (before : List (List Char)) (word : List Char) : Prop where
  numerals : ∀ w ∈ before, isNumeral w = true
  even : ∀ w ∈ before.tail, w.length % 2 = 0
  not_numeral : isNumeral word = false
  front_ne_nil : front word ≠ []
  /-- The first word may have an odd number of digits. -/
  even_front : before ≠ [] → (front word).length % 2 = 0

/-! ### The parts of a line -/

/-- A line holds a record if it is written as one. -/
theorem ofLine?_eq_some_iff :
    ofLine? line = some r ↔
      ∃ address data, uncomment line = '0' :: 'x' :: (address ++ ':' :: data) ∧ address ≠ [] ∧
        (∀ c ∈ address, Hex.isDigit c = true) ∧ joinWords (digitWords data) ≠ [] ∧
        r = ⟨Hex.value address, joinWords (digitWords data)⟩ := by
  unfold ofLine?
  constructor
  · intro h
    split at h
    case h_2 => cases h
    case h_1 rest hrest =>
      dsimp only at h
      split at h
      case h_2 => cases h
      case h_1 data hdata =>
        split at h
        case h_1 => cases h
        case h_2 hdigits =>
          split at h
          case isTrue => cases h
          case isFalse haddress =>
            refine ⟨rest.takeWhile Hex.isDigit, data, ?_, ?_, ?_, hdigits, (Option.some.inj h).symm⟩
            · rw [hrest, ← hdata, List.takeWhile_append_dropWhile]
            · rwa [Bool.not_eq_true, List.isEmpty_eq_false_iff] at haddress
            · exact fun c hc => List.mem_takeWhile_imp hc
  · rintro ⟨address, data, hline, hne, haddress, hdigits, rfl⟩
    -- the address ends at the colon, which is no digit
    have htake : (address ++ ':' :: data).takeWhile Hex.isDigit = address := by
      rw [List.takeWhile_append_of_pos haddress, List.takeWhile_cons_of_neg (by decide), List.append_nil]
    have hdrop : (address ++ ':' :: data).dropWhile Hex.isDigit = ':' :: data := by
      rw [List.dropWhile_append_of_pos haddress, List.dropWhile_cons_of_neg (by decide)]
    rw [hline]
    split
    case h_2 hno => exact absurd rfl (hno _)
    case h_1 rest hrest =>
      obtain rfl : address ++ ':' :: data = rest := by
        cases hrest
        rfl
      rw [htake, hdrop]
      split
      case h_2 hno => exact absurd rfl (hno _)
      case h_1 data' hdata =>
        cases hdata
        split
        case h_1 hnil => exact absurd hnil hdigits
        case h_2 => rw [if_neg (by rwa [List.isEmpty_iff])]

theorem digits_ne_nil (h : ofLine? line = some r) : r.digits ≠ [] := by
  obtain ⟨address, data, -, -, -, hdigits, rfl⟩ := ofLine?_eq_some_iff.1 h
  exact hdigits

/-- The digits of a record are read off its data. -/
theorem digits_eq_of_ofLine? (h : ofLine? line = some r) : r.digits = joinWords (cutWords (words (dataOf line))) := by
  obtain ⟨address, data, hline, -, haddress, -, rfl⟩ := ofLine?_eq_some_iff.1 h
  have hdata : dataOf line = data := by
    -- the address has no colon in it, so the data begins behind the first one
    have hcolon : ∀ c ∈ '0' :: 'x' :: address, (c != ':') = true := by
      intro c hc
      rw [bne_iff_ne]
      rintro rfl
      rcases List.mem_cons.1 hc with hc | hc
      · cases hc
      · rcases List.mem_cons.1 hc with hc | hc
        · cases hc
        · exact absurd (haddress _ hc) (by decide)
    have hsplit : '0' :: 'x' :: (address ++ ':' :: data) = ('0' :: 'x' :: address) ++ ':' :: data := rfl
    unfold dataOf
    rw [hline, hsplit, List.dropWhile_append_of_pos hcolon, List.dropWhile_cons_of_neg (by decide), List.tail_cons]
  rw [hdata, ← words_takeWhile]
  rfl

/-! ### Words that are cut -/

section Cut

variable {before behind : List (List Char)} {word : List Char}

theorem joinWords_cons (word : List Char) (words : List (List Char)) :
    joinWords (word :: words) = word ++ (words.takeWhile (·.length % 2 == 0)).flatten := rfl

/-- The whole words are those in front of the first that is no numeral. -/
theorem wholeDigits_eq (ws : List (List Char)) : wholeDigits ws = joinWords (ws.takeWhile isNumeral) := by
  cases ws with
  | nil => rfl
  | cons word words =>
    rw [wholeDigits]
    by_cases hword : isNumeral word = true
    · rw [if_pos hword, List.takeWhile_cons_of_pos hword, joinWords_cons, List.takeWhile_takeWhile]
      congr 3
      funext w
      rw [Bool.and_comm, Bool.decide_and, Bool.decide_eq_true, Bool.decide_eq_true]
    · rw [if_neg hword, List.takeWhile_cons_of_neg hword]
      rfl

theorem cutWords_append (h : ∀ w ∈ before, isNumeral w = true) (hword : isNumeral word = false) :
    cutWords (before ++ word :: behind) = before ++ if (front word).isEmpty then [] else [front word] := by
  induction before with
  | nil =>
    rw [List.nil_append, List.nil_append, cutWords]
    exact if_neg (by rw [show word.all Hex.isDigit = false from hword]; exact Bool.false_ne_true)
  | cons w ws ih =>
    obtain ⟨hw, hws⟩ := List.forall_mem_cons.1 h
    rw [List.cons_append, cutWords, if_pos (show w.all Hex.isDigit = true from hw), ih hws, List.cons_append]

theorem cutWords_eq_self {ws : List (List Char)} (h : ∀ w ∈ ws, isNumeral w = true) : cutWords ws = ws := by
  induction ws with
  | nil => rfl
  | cons w ws ih =>
    obtain ⟨hw, hws⟩ := List.forall_mem_cons.1 h
    rw [cutWords, if_pos (show w.all Hex.isDigit = true from hw), ih hws]

/-- The first word is always there; the last one counts if it is even and all in between are. -/
theorem joinWords_append_singleton (hbefore : before ≠ []) (v : List Char) :
    joinWords (before ++ [v]) = joinWords before ++
      if (∀ w ∈ before.tail, w.length % 2 = 0) ∧ v.length % 2 = 0 then v else [] := by
  obtain ⟨w, ws, rfl⟩ := List.exists_cons_of_ne_nil hbefore
  rw [List.cons_append, joinWords_cons, joinWords_cons, List.tail_cons, List.append_assoc]
  congr 1
  -- the reader asks for a length by a test, the statement for a number
  generalize heven : (fun w : List Char => w.length % 2 == 0) = even
  have heven : ∀ w, even w = true ↔ w.length % 2 = 0 := fun w => by rw [← heven, beq_iff_eq]
  induction ws with
  | nil =>
    -- with one word in front, the new word counts if its own length is even
    by_cases hv : v.length % 2 = 0
    · rw [if_pos ⟨List.forall_mem_nil _, hv⟩, List.nil_append, List.takeWhile_cons_of_pos ((heven v).2 hv)]
      exact List.append_nil v
    · rw [if_neg fun h => hv h.2, List.nil_append, List.takeWhile_cons_of_neg (by rwa [heven])]
      rfl
  | cons u us ih =>
    by_cases hu : u.length % 2 = 0
    · -- an even word does not stop what follows
      have hiff : ((∀ w ∈ u :: us, w.length % 2 = 0) ∧ v.length % 2 = 0)
          ↔ (∀ w ∈ us, w.length % 2 = 0) ∧ v.length % 2 = 0 := by
        rw [List.forall_mem_cons, and_iff_right hu]
      rw [List.cons_append, List.takeWhile_cons_of_pos ((heven u).2 hu), List.takeWhile_cons_of_pos ((heven u).2 hu),
        List.flatten_cons, List.flatten_cons, ih (List.cons_ne_nil _ _), List.append_assoc, if_congr hiff rfl rfl]
    · -- an odd word ends the bytes, with or without something behind it
      rw [if_neg fun h => hu (h.1 u List.mem_cons_self), List.cons_append,
        List.takeWhile_cons_of_neg (by rwa [heven]), List.takeWhile_cons_of_neg (by rwa [heven])]
      rfl

/-- Words that are all bytes are joined as they are. -/
theorem joinWords_eq_flatten (h : ∀ w ∈ before.tail, w.length % 2 = 0) : joinWords before = before.flatten := by
  cases before with
  | nil => rfl
  | cons w ws =>
    have hall : ∀ v ∈ ws, (v.length % 2 == 0) = true := fun v hv => beq_iff_eq.2 (h v hv)
    rw [joinWords_cons, List.takeWhile_eq_self_iff.2 hall, List.flatten_cons]

theorem takeWhile_isNumeral (h : ∀ w ∈ before, isNumeral w = true) (hword : isNumeral word = false) :
    (before ++ word :: behind).takeWhile isNumeral = before := by
  rw [List.takeWhile_append_of_pos h, List.takeWhile_cons_of_neg (by rw [hword]; exact Bool.false_ne_true),
    List.append_nil]

/-- What is read of words with one that is no numeral. -/
theorem joinWords_cutWords (behind : List (List Char)) (h : ∀ w ∈ before, isNumeral w = true)
    (hword : isNumeral word = false) :
    (CutAt before word → joinWords (cutWords (before ++ word :: behind)) = before.flatten ++ front word) ∧
      (¬CutAt before word → joinWords (cutWords (before ++ word :: behind)) = joinWords before) := by
  rw [cutWords_append h hword]
  constructor
  · intro hcut
    -- what is cut from the word goes to the bytes in front of it
    rw [if_neg (by rw [List.isEmpty_iff]; exact hcut.front_ne_nil)]
    by_cases hbefore : before = []
    · rw [hbefore]
      exact List.append_nil _
    · rw [joinWords_append_singleton hbefore, if_pos ⟨hcut.even, hcut.even_front hbefore⟩,
        joinWords_eq_flatten hcut.even]
  · intro hnot
    by_cases hfront : front word = []
    · rw [hfront]
      exact congrArg joinWords (List.append_nil before)
    · rw [if_neg (by rwa [List.isEmpty_iff])]
      -- with nothing in front, a part that is left of the word would have been taken
      have hbefore : before ≠ [] := by
        rintro rfl
        exact hnot ⟨h, List.forall_mem_nil _, hword, hfront, fun hne => absurd rfl hne⟩
      rw [joinWords_append_singleton hbefore, if_neg fun heven =>
        hnot ⟨h, heven.1, hword, hfront, fun _ => heven.2⟩, List.append_nil]

end Cut

/-- **Which digits are bytes.** The digits of a record are those of the whole words of its data, unless a word is cut:
then the digits at the beginning of that word are bytes as well, although the word is no numeral. -/
theorem digits_whole_or_cut (h : ofLine? line = some r) :
    ((∃ before word behind, words (dataOf line) = before ++ word :: behind ∧ CutAt before word ∧
        wholeDigits (words (dataOf line)) = before.flatten ∧ r.digits = before.flatten ++ front word)) ∨
      (∀ before word behind, words (dataOf line) = before ++ word :: behind → ¬CutAt before word) ∧
        r.digits = wholeDigits (words (dataOf line)) := by
  rw [digits_eq_of_ofLine? h, wholeDigits_eq]
  generalize words (dataOf line) = ws
  have hnumerals : ∀ w ∈ ws.takeWhile isNumeral, isNumeral w = true := fun w hw => List.mem_takeWhile_imp hw
  cases hrest : ws.dropWhile isNumeral with
  | nil =>
    -- all words are numerals, so none is cut
    have hself : ws.takeWhile isNumeral = ws := by
      rw [← List.append_nil (ws.takeWhile isNumeral), ← hrest, List.takeWhile_append_dropWhile]
    rw [hself] at hnumerals ⊢
    refine Or.inr ⟨fun before word behind hsplit hcut => ?_, by rw [cutWords_eq_self hnumerals]⟩
    have hword := hnumerals word (hsplit ▸ List.mem_append_right before List.mem_cons_self)
    rw [hcut.not_numeral] at hword
    cases hword
  | cons word behind =>
    have hsplit : ws.takeWhile isNumeral ++ word :: behind = ws := by
      rw [← hrest, List.takeWhile_append_dropWhile]
    have hword : isNumeral word = false := by
      have hhead := List.head?_dropWhile_not isNumeral ws
      rw [hrest] at hhead
      exact hhead
    obtain ⟨hcuts, hwhole⟩ := joinWords_cutWords behind hnumerals hword
    rw [hsplit] at hcuts hwhole
    by_cases hcut : CutAt (ws.takeWhile isNumeral) word
    · exact Or.inl ⟨_, word, behind, hsplit.symm, hcut, joinWords_eq_flatten hcut.even, hcuts hcut⟩
    · refine Or.inr ⟨fun before word' behind' hsplit' hcut' => hcut ?_, hwhole hcut⟩
      -- the first word that is no numeral stands in one place only
      have hbefore : ws.takeWhile isNumeral = before :=
        (congrArg _ hsplit').trans (takeWhile_isNumeral hcut'.numerals hcut'.not_numeral)
      rw [hbefore] at hsplit ⊢
      obtain rfl : word = word' := (List.cons.inj (List.append_cancel_left (hsplit.trans hsplit'))).1
      exact hcut'

/-- A word of commentary that begins with an even number of digits is cut behind numerals that are all bytes. -/
theorem digits_whole_or_cut_call :
    let line := "0x000: 10 call foo".toList
    ofLine? line = some ⟨0, ['1', '0', 'c', 'a']⟩ ∧ CutAt [['1', '0']] ['c', 'a', 'l', 'l'] ∧
      ((∃ before word behind, words (dataOf line) = before ++ word :: behind ∧ CutAt before word ∧
          wholeDigits (words (dataOf line)) = before.flatten ∧
          ['1', '0', 'c', 'a'] = before.flatten ++ front word) ∨
        (∀ before word behind, words (dataOf line) = before ++ word :: behind → ¬CutAt before word) ∧
          ['1', '0', 'c', 'a'] = wholeDigits (words (dataOf line))) := by
  intro line
  have hline : ofLine? line = some ⟨0, ['1', '0', 'c', 'a']⟩ := by decide +kernel
  exact ⟨hline, ⟨by decide, by decide, by decide, by decide, fun _ => by decide⟩, digits_whole_or_cut hline⟩

/-- So whole words are not all that is loaded: behind the byte `10` this line gives the byte `ca`. -/
theorem exists_cut_word_loaded :
    let line := "0x000: 10 call foo".toList
    words (dataOf line) = [['1', '0'], ['c', 'a', 'l', 'l'], ['f', 'o', 'o']] ∧
      wholeDigits (words (dataOf line)) = ['1', '0'] ∧ (ofLine? line).map bytes = some [0x10, 0xca] := by
  decide +kernel

end ObjectRecord

end Y86
