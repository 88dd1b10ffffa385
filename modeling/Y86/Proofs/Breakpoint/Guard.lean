import Mathlib
import Y86.Breakpoint.Guard
import Y86.Proofs.Text.Decimal

/-!
# What is read as a guard

`Guard.Spelling` says how guards are spelled: a register's name, a relation and a number, with blanks in front of,
between and behind them. The reader takes off one part after the other, each as far as it goes. In a spelling no part
goes further than it should, because what stands behind it begins with a letter that cannot belong to it: so the reader
finds the parts of every spelling (`Guard.parts?_text`). Conversely what it took off, put together again, is the text
(`Guard.exists_spelling`).

With that, `Guard.parse_exact` says which guard is read from a text and why none is. A guard that was read is written
with no more digits than it was read from, so it can be read back.
-/

namespace Y86

open Text

/-! ### Relations -/

/-- What a relation says of two integers. -/
def Relation.Says : Relation → Int → Int → Prop
  | eq, a, b => a = b
  | ne, a, b => a ≠ b
  | ge, a, b => a ≥ b
  | le, a, b => a ≤ b
  | gt, a, b => a > b
  | lt, a, b => a < b

namespace Relation

variable {r r' : Relation} {cs rest : List Char}

/-- A relation is computed as it is read. -/
theorem holds_iff (r : Relation) (a b : Int) : r.holds a b = true ↔ r.Says a b := by
  cases r
  case eq => exact beq_iff_eq
  case ne => exact bne_iff_ne
  all_goals exact decide_eq_true_iff

/-- A relation is read as far as it goes: no sign of equality may follow it. -/
theorem read?_append (r : Relation) (hrest : ∀ c ∈ rest.head?, c ≠ '=') :
    read? (r.text.toList ++ rest) = some (r, rest) := by
  cases r
  case gt | lt =>
    cases rest with
    | nil => rfl
    | cons c rest =>
      have hc := hrest c rfl
      simp [text, read?, hc]
  all_goals rfl

/-- What is read as a relation stands in front of the text. -/
theorem eq_of_read? (h : read? cs = some (r, rest)) : cs = r.text.toList ++ rest := by
  unfold read? at h
  split at h <;> cases h <;> rfl

/-- No longer relation stands where one is read. -/
theorem length_le_of_prefix (hrest : ∀ c ∈ rest.head?, c ≠ '=') (h : r'.text.toList <+: r.text.toList ++ rest) :
    r'.text.length ≤ r.text.length := by
  obtain ⟨tail, htail⟩ := h
  have hread := r.read?_append hrest
  rw [← htail] at hread
  cases r'
  case gt | lt => cases r <;> decide
  all_goals
    -- a relation of two letters is read whatever is behind it, so it is the one that was read
    cases hread
    exact Nat.le_refl _

end Relation

/-! ### Spellings -/

namespace Guard

/-- A way to spell a guard. -/
structure Spelling where
  /-- The blanks in front of the name. -/
  lead : List Char
  register : Register
  /-- The blanks between the name and the relation. -/
  inner : List Char
  relation : Relation
  /-- The blanks between the relation and the number. -/
  gap : List Char
  /-- Whether there is a minus in front of the digits. -/
  negative : Bool
  digits : List Char
  /-- The blanks behind the number. -/
  trail : List Char
  isBlank : ∀ c ∈ lead ++ inner ++ gap ++ trail, Text.isBlank c = true
  isDigit : ∀ c ∈ digits, Text.isDigit c = true
  digits_ne_nil : digits ≠ []

namespace Spelling

variable (s : Spelling)

/-- The number, with its sign. -/
def number : List Char := (if s.negative then ['-'] else []) ++ s.digits

/-- What stands behind the relation. -/
def behind : List Char := s.gap ++ (s.number ++ s.trail)

/-- The whole text. -/
def text : List Char := s.lead ++ (s.register.name.toList ++ (s.inner ++ (s.relation.text.toList ++ s.behind)))

/-- The integer that is denoted; leading zeros do not count, and there is no least or greatest. -/
def value : Int := if s.negative then -(denoted s.digits : Int) else denoted s.digits

def guard : Guard where
  register := s.register
  relation := s.relation
  value := s.value

/-- All gaps of a spelling are blank. -/
theorem isBlank_parts : (∀ c ∈ s.lead, Text.isBlank c = true) ∧ (∀ c ∈ s.inner, Text.isBlank c = true) ∧
    (∀ c ∈ s.gap, Text.isBlank c = true) ∧ ∀ c ∈ s.trail, Text.isBlank c = true := by
  have h := s.isBlank
  rw [List.forall_mem_append, List.forall_mem_append, List.forall_mem_append] at h
  exact ⟨h.1.1.1, h.1.1.2, h.1.2, h.2⟩

/-! #### Where the parts end -/

theorem head?_name (r : Register) (rest : List Char) :
    ∀ c ∈ (r.name.toList ++ rest).head?, Text.isBlank c = false := by
  intro c hc
  cases r <;> cases Option.mem_some.1 hc <;> decide

/-- A relation begins with neither a blank nor a letter, so the name in front of it ends there. -/
theorem head?_relation (r : Relation) (rest : List Char) :
    ∀ c ∈ (r.text.toList ++ rest).head?, Text.isBlank c = false ∧ c.isAlphanum = false := by
  intro c hc
  cases r <;> cases Option.mem_some.1 hc <;> decide

theorem head?_digits (rest : List Char) : ∀ c ∈ (s.digits ++ rest).head?, Text.isDigit c = true := by
  obtain ⟨d, ds, hds⟩ := List.exists_cons_of_ne_nil s.digits_ne_nil
  intro c hc
  rw [hds] at hc
  cases Option.mem_some.1 hc
  exact s.isDigit d (hds ▸ List.mem_cons_self)

/-- A number begins with a minus sign or a digit. -/
theorem head?_number (rest : List Char) :
    ∀ c ∈ (s.number ++ rest).head?, c = '-' ∨ Text.isDigit c = true := by
  unfold number
  split
  case isTrue => exact fun c hc => .inl (Option.mem_some.1 hc).symm
  case isFalse => exact fun c hc => .inr (s.head?_digits rest c hc)

theorem not_isBlank_of_number {c : Char} (h : c = '-' ∨ Text.isDigit c = true) : Text.isBlank c = false ∧ c ≠ '=' := by
  rcases h with rfl | h
  · decide
  · refine ⟨?_, ?_⟩
    · rw [Bool.eq_false_iff]
      intro hblank
      rw [isDigit_of_isBlank hblank] at h
      cases h
    · rintro rfl
      revert h
      decide

/-- Behind a relation there is a gap or a number, and no sign of equality. -/
theorem head?_behind : ∀ c ∈ s.behind.head?, c ≠ '=' := by
  refine head?_append_of_forall ?_ fun c hc => (not_isBlank_of_number (s.head?_number _ c hc)).2
  rintro c hc rfl
  have hblank := s.isBlank_parts.2.2.1 '=' hc
  revert hblank
  decide

/-- Behind the name of a register no letter and no digit follows. -/
theorem head?_inner :
    ∀ c ∈ (s.inner ++ (s.relation.text.toList ++ s.behind)).head?, c.isAlphanum = false :=
  head?_append_of_forall (fun c hc => isAlphanum_of_isBlank (s.isBlank_parts.2.1 c hc))
    fun c hc => (head?_relation s.relation s.behind c hc).2

/-- Behind the digits of a spelling there are blanks or nothing. -/
theorem head?_trail : ∀ c ∈ s.trail.head?, Text.isDigit c = false :=
  fun c hc => isDigit_of_isBlank (s.isBlank_parts.2.2.2 c (List.mem_of_mem_head? hc))

end Spelling

/-! ### Reading spellings -/

variable {r : Register} {relation : Relation} {negative : Bool} {cs ds rest : List Char}

/-- A name is read up to the first character that is neither a letter nor a digit. -/
theorem register?_append (r : Register) (hrest : ∀ c ∈ rest.head?, c.isAlphanum = false) :
    register? (r.name.toList ++ rest) = some (r, rest) := by
  have hall : r.name.toList.all Char.isAlphanum = true := by
    cases r <;> decide
  have hof : Register.ofName? r.name = some r := by
    cases r <;> decide
  have hname := List.all_eq_true.1 hall
  unfold register?
  rw [takeWhile_run hname hrest, dropWhile_run hname hrest, String.ofList_toList, hof]
  rfl

/-- What is read as a name stands in front of the text. -/
theorem eq_of_register? (h : register? cs = some (r, rest)) : cs = r.name.toList ++ rest := by
  obtain ⟨r', hof, hr⟩ := Option.map_eq_some_iff.1 h
  cases hr
  unfold Register.ofName? at hof
  have hname := List.find?_some hof
  rw [eq_of_beq hname, String.toList_ofList, List.takeWhile_append_dropWhile]

/-- A minus sign is read if there is one. -/
theorem minus_append (negative : Bool) (hrest : ∀ c ∈ rest.head?, c ≠ '-') :
    minus ((if negative then ['-'] else []) ++ rest) = (negative, rest) := by
  cases negative with
  | true => rfl
  | false =>
    cases rest with
    | nil => rfl
    | cons c rest =>
      have hc := hrest c rfl
      simp [minus, hc]

theorem eq_of_minus (h : minus cs = (negative, rest)) : cs = (if negative then ['-'] else []) ++ rest := by
  unfold minus at h
  split at h <;> cases h <;> rfl

/-- The parts, one behind the other; what is left of the text gets shorter from each to the next. -/
theorem parts?_eq_some_iff : parts? cs = some (r, relation, negative, ds) ↔
    ∃ cs₁ cs₂ cs₃, register? (cs.dropWhile isBlank) = some (r, cs₁) ∧
      Relation.read? (cs₁.dropWhile isBlank) = some (relation, cs₂) ∧
      minus (cs₂.dropWhile isBlank) = (negative, cs₃) ∧ cs₃.takeWhile isDigit = ds ∧
      ds ≠ [] ∧ ∀ c ∈ cs₃.dropWhile isDigit, isBlank c = true := by
  unfold parts?
  simp only [Option.bind_eq_bind, Option.bind_eq_some_iff, Prod.exists, Bool.and_eq_true, List.all_eq_true,
    Option.guard_eq_some', Bool.not_eq_true', List.isEmpty_eq_false_iff, exists_const, Option.pure_def,
    Option.some.injEq, Prod.mk.injEq]
  constructor
  · rintro ⟨r', cs₁, hname, relation', cs₂, hrelation, ⟨hdigits, hrest⟩, rfl, rfl, rfl, rfl⟩
    exact ⟨cs₁, cs₂, (minus (cs₂.dropWhile isBlank)).2, hname, hrelation, rfl, rfl, hdigits, hrest⟩
  · rintro ⟨cs₁, cs₂, cs₃, hname, hrelation, hminus, rfl, hdigits, hrest⟩
    refine ⟨r, cs₁, hname, relation, cs₂, hrelation, ?_⟩
    rw [hminus]
    exact ⟨⟨hdigits, hrest⟩, rfl, rfl, rfl, rfl⟩

/-- **Reading.** The parts of a spelling are read from its text. -/
theorem parts?_text (s : Spelling) : parts? s.text = some (s.register, s.relation, s.negative, s.digits) := by
  obtain ⟨hlead, hinner, hgap, htrail⟩ := s.isBlank_parts
  refine parts?_eq_some_iff.2 ⟨s.inner ++ (s.relation.text.toList ++ s.behind), s.behind, s.digits ++ s.trail,
    ?_, ?_, ?_, takeWhile_run s.isDigit s.head?_trail, s.digits_ne_nil, ?_⟩
  · rw [Spelling.text, dropWhile_run hlead (Spelling.head?_name _ _)]
    exact register?_append _ s.head?_inner
  · rw [dropWhile_run hinner fun c hc => (Spelling.head?_relation _ _ c hc).1]
    exact s.relation.read?_append s.head?_behind
  · rw [Spelling.behind, dropWhile_run hgap fun c hc => (Spelling.not_isBlank_of_number (s.head?_number _ c hc)).1,
      Spelling.number, List.append_assoc]
    refine minus_append _ fun c hc => ?_
    -- a number without its sign begins with a digit
    rintro rfl
    exact Bool.false_ne_true (s.head?_digits _ '-' hc)
  · rw [dropWhile_run s.isDigit s.head?_trail]
    exact htrail

/-- What was taken off a text, put together again, is the text. -/
theorem exists_spelling (h : parts? cs = some (r, relation, negative, ds)) : ∃ s : Spelling, s.text = cs ∧
    s.register = r ∧ s.relation = relation ∧ s.negative = negative ∧ s.digits = ds := by
  obtain ⟨cs₁, cs₂, cs₃, hname, hrelation, hminus, rfl, hne, htrail⟩ := parts?_eq_some_iff.1 h
  -- the parts are what the reader has taken and skipped on its way
  let s : Spelling := {
    lead := cs.takeWhile isBlank
    register := r
    inner := cs₁.takeWhile isBlank
    relation := relation
    gap := cs₂.takeWhile isBlank
    negative := negative
    digits := cs₃.takeWhile isDigit
    trail := cs₃.dropWhile isDigit
    isBlank := by
      simp only [List.forall_mem_append]
      exact ⟨⟨⟨fun _ => List.mem_takeWhile_imp, fun _ => List.mem_takeWhile_imp⟩, fun _ => List.mem_takeWhile_imp⟩,
        htrail⟩
    isDigit := fun _ => List.mem_takeWhile_imp
    digits_ne_nil := hne }
  refine ⟨s, ?_, rfl, rfl, rfl, rfl⟩
  -- put together again in reverse order they are the text
  have hnumber : s.number ++ s.trail = cs₂.dropWhile isBlank := by
    rw [eq_of_minus hminus, Spelling.number, List.append_assoc, List.takeWhile_append_dropWhile]
  have hbehind : s.behind = cs₂ := by
    rw [Spelling.behind, hnumber, List.takeWhile_append_dropWhile]
  calc s.text
      = cs.takeWhile isBlank ++ (r.name.toList ++ (cs₁.takeWhile isBlank ++ (relation.text.toList ++ s.behind))) := rfl
    _ = cs.takeWhile isBlank ++ (r.name.toList ++ cs₁) := by
        rw [hbehind, ← Relation.eq_of_read? hrelation, List.takeWhile_append_dropWhile]
    _ = cs := by rw [← eq_of_register? hname, List.takeWhile_append_dropWhile]

variable {text : String} {g : Guard}

/-- A text with a spelling denotes its guard, unless it has too many digits. -/
theorem parse_of_spelling {s : Spelling} (h : s.text = text.toList) :
    parse text = if Integer.maxDigits < s.digits.length then .error (.tooLong s.digits.length) else .ok s.guard := by
  unfold parse
  rw [← h, parts?_text]
  dsimp only
  rw [Integer.value_eq_denoted s.isDigit]
  rfl

/-- A text without a spelling is malformed. -/
theorem parse_of_not_exists (h : ¬ ∃ s : Spelling, s.text = text.toList) : parse text = .error (.malformed text) := by
  have hparts : parts? text.toList = none := by
    rw [Option.eq_none_iff_forall_not_mem]
    rintro ⟨r, relation, negative, ds⟩ hsome
    obtain ⟨s, hs, -⟩ := exists_spelling hsome
    exact h ⟨s, hs⟩
  unfold parse
  rw [hparts]

/-! ### Writing -/

namespace Spelling

/-- The spelling without blanks and leading zeros. -/
def plain (g : Guard) : Spelling where
  lead := []
  register := g.register
  inner := []
  relation := g.relation
  gap := []
  negative := g.value < 0
  digits := Nat.toDigits 10 g.value.natAbs
  trail := []
  isBlank := List.forall_mem_nil _
  isDigit := fun _ => isDigit_of_mem_toDigits
  digits_ne_nil := Nat.toDigits_ne_nil

/-- The plain spelling of a guard denotes it. -/
theorem guard_plain (g : Guard) : (plain g).guard = g := by
  have hvalue : (plain g).value = g.value := by
    unfold value
    simp only [plain, denoted_toDigits, decide_eq_true_eq]
    split <;> omega
  unfold guard
  rw [hvalue]
  rfl

/-- And it is the text that the guard shows. -/
theorem text_plain (g : Guard) : (plain g).text = g.text.toList := by
  unfold Guard.text
  rw [String.toList_append, String.toList_append, toList_toString, List.append_assoc]
  unfold text behind number
  simp only [plain, List.nil_append, List.append_nil, decide_eq_true_eq]

/-- But for its sign the value of a spelling is the number of its digits. -/
theorem natAbs_value (s : Spelling) : s.value.natAbs = denoted s.digits := by
  unfold value
  split <;> omega

end Spelling

/-- **Printing.** A guard is read again from the text that it shows, if that has not too many digits. -/
theorem parse_text (h : (Nat.toDigits 10 g.value.natAbs).length ≤ Integer.maxDigits) : parse g.text = .ok g := by
  have hle : (Spelling.plain g).digits.length ≤ Integer.maxDigits := h
  rw [parse_of_spelling (Spelling.text_plain g), if_neg (Nat.not_lt.2 hle), Spelling.guard_plain]

/-! ### Reading exactly what is spelled -/

/-- What is read from a text, as far as the text spells a guard, and what is said if it does not. -/
structure ReadExactly (text : String) : Prop where
  /-- A guard is read where it is spelled with a number that is not too long. -/
  accepted : ∀ g, parse text = .ok g ↔
    ∃ s : Spelling, s.text = text.toList ∧ s.digits.length ≤ Integer.maxDigits ∧ s.guard = g
  /-- A number that is too long is refused for its length. -/
  tooLong : ∀ n, parse text = .error (.tooLong n) ↔
    ∃ s : Spelling, s.text = text.toList ∧ Integer.maxDigits < s.digits.length ∧ s.digits.length = n
  /-- Any other text is refused as it is. -/
  malformed : ∀ shown, parse text = .error (.malformed shown) ↔
    shown = text ∧ ¬ ∃ s : Spelling, s.text = text.toList
  /-- The relation is the longest one that stands behind the name and its blanks. -/
  longest : ∀ s : Spelling, s.text = text.toList → ∀ r : Relation,
    r.text.toList <+: s.relation.text.toList ++ s.behind → r.text.length ≤ s.relation.text.length
  /-- What was read is read again from the way it is written. -/
  reread : ∀ g, parse text = .ok g → parse g.text = .ok g
  /-- What was read compares the signed value of its register with its number. -/
  compared : ∀ g, parse text = .ok g → ∀ registers : RegisterFile,
    g.holds registers = true ↔ g.relation.Says (registers.get g.register) g.value

/-- The three ways in which reading can end. -/
theorem parse_cases (text : String) :
    (∃ s : Spelling, s.text = text.toList ∧ s.digits.length ≤ Integer.maxDigits ∧ parse text = .ok s.guard) ∨
    (∃ s : Spelling, s.text = text.toList ∧ Integer.maxDigits < s.digits.length ∧
      parse text = .error (.tooLong s.digits.length)) ∨
    (¬ ∃ s : Spelling, s.text = text.toList) ∧ parse text = .error (.malformed text) := by
  by_cases hspelled : ∃ s : Spelling, s.text = text.toList
  · obtain ⟨s, hs⟩ := hspelled
    have hparse := parse_of_spelling hs
    split at hparse
    case isTrue hlt => exact .inr (.inl ⟨s, hs, hlt, hparse⟩)
    case isFalse hle => exact .inl ⟨s, hs, Nat.not_lt.1 hle, hparse⟩
  · exact .inr (.inr ⟨hspelled, parse_of_not_exists hspelled⟩)

/-- **Acceptance.** A text denotes a guard exactly if it spells it with at most as many digits as there may be. -/
theorem parse_eq_ok_iff : parse text = .ok g ↔
    ∃ s : Spelling, s.text = text.toList ∧ s.digits.length ≤ Integer.maxDigits ∧ s.guard = g := by
  constructor
  · intro h
    obtain ⟨s, hs, hle, hparse⟩ | ⟨s, -, -, hparse⟩ | ⟨-, hparse⟩ := parse_cases text <;> rw [hparse] at h <;> cases h
    exact ⟨s, hs, hle, rfl⟩
  · rintro ⟨s, hs, hle, rfl⟩
    rw [parse_of_spelling hs, if_neg (Nat.not_lt.2 hle)]

/-- **Length.** A text is too long exactly if it spells a guard with more digits. -/
theorem parse_eq_tooLong_iff {n : Nat} : parse text = .error (.tooLong n) ↔
    ∃ s : Spelling, s.text = text.toList ∧ Integer.maxDigits < s.digits.length ∧ s.digits.length = n := by
  constructor
  · intro h
    obtain ⟨s, -, -, hparse⟩ | ⟨s, hs, hlt, hparse⟩ | ⟨-, hparse⟩ := parse_cases text <;> rw [hparse] at h <;> cases h
    exact ⟨s, hs, hlt, rfl⟩
  · rintro ⟨s, hs, hlt, rfl⟩
    rw [parse_of_spelling hs, if_pos hlt]

/-- **Rejection.** A text is malformed exactly if it has no spelling, and the error shows it. -/
theorem parse_eq_malformed_iff {shown : String} : parse text = .error (.malformed shown) ↔
    shown = text ∧ ¬ ∃ s : Spelling, s.text = text.toList := by
  constructor
  · intro h
    obtain ⟨s, -, -, hparse⟩ | ⟨s, -, -, hparse⟩ | ⟨hnone, hparse⟩ := parse_cases text <;> rw [hparse] at h <;> cases h
    exact ⟨rfl, hnone⟩
  · rintro ⟨rfl, h⟩
    exact parse_of_not_exists h

/-- **Guards are read exactly, and read back.** A text is read as a guard just where it spells one whose number has no
more digits than a numeral may have; any other text is refused, for the one or the other reason. A guard is read from
the way it is written, unless its number takes more digits than that. -/
theorem parse_exact : (∀ text, ReadExactly text) ∧
    ∀ g : Guard, (Nat.toDigits 10 g.value.natAbs).length ≤ Integer.maxDigits → parse g.text = .ok g := by
  refine ⟨fun text => ?_, fun g => parse_text⟩
  exact {
    accepted := fun _ => parse_eq_ok_iff
    tooLong := fun _ => parse_eq_tooLong_iff
    malformed := fun _ => parse_eq_malformed_iff
    longest := fun s _ _ => Relation.length_le_of_prefix s.head?_behind
    reread := by
      intro g h
      obtain ⟨s, -, hle, rfl⟩ := parse_eq_ok_iff.1 h
      refine parse_text (Nat.le_trans ?_ hle)
      -- leading zeros are lost, so that there can only be fewer digits
      change (Nat.toDigits 10 s.value.natAbs).length ≤ s.digits.length
      rw [s.natAbs_value]
      exact length_toDigits_denoted_le s.digits_ne_nil
    compared := fun g _ registers => g.relation.holds_iff (registers.get g.register) g.value }

/-- Blanks and digits from outside ASCII, a relation that begins with a shorter one, and a zero in front that is not
written again. -/
theorem parse_exact_foreign_digits :
    parse "\u3000r10 >=-\u0660\u0667 " = .ok ⟨.r10, .ge, -7⟩ ∧
    (Nat.toDigits 10 (-7 : Int).natAbs).length ≤ Integer.maxDigits ∧ parse "r10>=-7" = .ok ⟨.r10, .ge, -7⟩ := by
  have hlength : (Nat.toDigits 10 (-7 : Int).natAbs).length ≤ Integer.maxDigits := by decide
  have htext : Guard.text ⟨.r10, .ge, -7⟩ = "r10>=-7" := by decide
  refine ⟨((parse_exact.1 _).accepted _).2 ?_, hlength, htext ▸ parse_exact.2 ⟨.r10, .ge, -7⟩ hlength⟩
  -- an ideographic space in front, Arabic-Indic digits for the value
  let s : Spelling := {
    lead := ['\u3000']
    register := .r10
    inner := [' ']
    relation := .ge
    gap := []
    negative := true
    digits := ['\u0660', '\u0667']
    trail := [' ']
    isBlank := List.all_eq_true.1 (by decide)
    isDigit := List.all_eq_true.1 (by decide)
    digits_ne_nil := by decide }
  exact ⟨s, by decide, by decide, by decide⟩

end Guard

end Y86
