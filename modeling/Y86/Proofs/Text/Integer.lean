import Y86.Proofs.Text.Decimal
import Y86.Proofs.Text.Hex

/-!
# How integers are spelled

`Integer.Spelling` says how an integer is spelled in a base: blanks, a sign, the mark of the base, groups of digits with
one underscore between two of them, and blanks again. Reading takes these parts off one after the other, each as far as
it goes; in a spelling none goes too far, since no blank is a digit and no mark is either. So a text is read as an
integer exactly if it is a spelling of it (`Integer.read_eq_ok_iff`).

An integer that is written in decimal digits is read back if it has not too many of them (`Integer.read_toString`), and
one in hexadecimal digits behind their mark always is (`Integer.read_marked`).
-/

namespace Y86.Text.Integer

variable {base : Nat} {c : Char} {cs ds : List Char}

/-! ### Characters -/

/-- White space is not part of a numeral, so it ends one. -/
theorem isPart_of_isSpace (h : isSpace c = true) : isPart base c = false := by
  have hblank : isBlank c = true := by
    unfold isBlank
    rw [h, Bool.true_or]
  -- no digit is blank, and a space is
  have hdigit : Text.digit? c = none := Option.not_isSome_iff_eq_none.1 (ne_true_of_eq_false (isDigit_of_isBlank hblank))
  have hhex : Hex.digit? c = none := by
    refine Option.not_isSome_iff_eq_none.1 fun hsome => ?_
    rw [Hex.isBlank_of_isDigit hsome] at hblank
    cases hblank
  have hmark : (c == '_') = false := by
    rw [beq_eq_false_iff_ne]
    rintro rfl
    revert h
    decide
  unfold isPart digit?
  rw [hmark, hdigit, hhex]
  rfl

/-- The separator of groups is no digit. -/
theorem digit?_underscore : digit? base '_' = none := by
  unfold digit?
  rw [show (Text.digit? '_').orElse (fun _ => Hex.digit? '_') = none by decide]
  rfl

/-- A letter that is not small has a small form, thirty-two places behind it. -/
theorem toLower_cases (c : Char) : c.toLower = c ∨ c = Char.ofNat (c.toLower.toNat - 32) := by
  unfold Char.toLower
  split
  case isTrue h =>
    right
    -- an upper case letter is 32 below its lower case one, and the sum does not wrap
    have hcode : (c.val + ('a'.val - 'A'.val)).toNat = c.toNat + 32 := by
      have hlt := UInt32.le_iff_toNat_le.1 h.2
      rw [UInt32.toNat_add, show ('a'.val - 'A'.val).toNat = 32 by decide]
      refine Nat.mod_eq_of_lt (Nat.lt_of_le_of_lt (Nat.add_le_add_right hlt 32) ?_)
      decide
    show c = Char.ofNat ((c.val + ('a'.val - 'A'.val)).toNat - 32)
    rw [hcode, Nat.add_sub_cancel, Char.ofNat_toNat]
  case isFalse => exact Or.inl rfl

/-- A letter that marks a base is neither a digit in it, nor a blank. -/
theorem isPart_of_mark? (h : mark? base = some c.toLower) : isPart base c = false ∧ isSpace c = false := by
  unfold mark? at h
  split at h
  case h_4 => cases h
  all_goals
    have hlower := (Option.some.inj h).symm
    rcases toLower_cases c with hc | hc
    · rw [← hc, hlower]
      decide
    · rw [hc, hlower]
      decide

/-! ### Groups of digits -/

/-- Being a group of digits. -/
def IsGroup (base : Nat) (g : List Char) : Prop := g ≠ [] ∧ ∀ c ∈ g, (digit? base c).isSome = true

/-- Groups of digits, the first one without and all others with an underscore in front of them. -/
def joined (first : List Char) (more : List (List Char)) : List Char := first ++ more.flatMap ('_' :: ·)

theorem ne_underscore (h : (digit? base c).isSome = true) : c ≠ '_' := by
  rintro rfl
  rw [digit?_underscore] at h
  cases h

/-- Behind a group of digits a separator may follow. -/
theorem grouped_append {g : List Char} (hg : IsGroup base g) (after : Bool) (rest : List Char) :
    grouped after (g ++ rest) = grouped true rest := by
  obtain ⟨hne, hdigits⟩ := hg
  induction g generalizing after with
  | nil => exact absurd rfl hne
  | cons c g ih =>
    rw [List.cons_append, grouped, if_neg (ne_underscore (hdigits c List.mem_cons_self))]
    by_cases hempty : g = []
    · rw [hempty, List.nil_append]
    · exact ih true hempty fun d hd => hdigits d (List.mem_cons_of_mem c hd)

/-- Groups with single separators between them are grouped. -/
theorem grouped_joined {first : List Char} {more : List (List Char)} (h : ∀ g ∈ first :: more, IsGroup base g) :
    grouped false (joined first more) = true := by
  have hbehind : ∀ more : List (List Char), (∀ g ∈ more, IsGroup base g) →
      grouped true (more.flatMap ('_' :: ·)) = true := by
    intro more hmore
    induction more with
    | nil => rfl
    | cons g more ih =>
      -- the underscore stands behind a digit, and the group in front of the next one
      show (true && grouped false (g ++ more.flatMap ('_' :: ·))) = true
      rw [grouped_append (hmore g List.mem_cons_self), Bool.true_and]
      exact ih fun g' hg' => hmore g' (List.mem_cons_of_mem g hg')
  rw [joined, grouped_append (h first List.mem_cons_self)]
  exact hbehind more fun g hg => h g (List.mem_cons_of_mem first hg)

/-- Parts in which every underscore stands between two digits are groups; behind a digit the first one may be empty. -/
theorem exists_joined {after : Bool} (hparts : ∀ c ∈ cs, isPart base c = true) (h : grouped after cs = true) :
    ∃ first more, cs = joined first more ∧ (∀ c ∈ first, (digit? base c).isSome = true) ∧
      (after = false → first ≠ []) ∧ ∀ g ∈ more, IsGroup base g := by
  induction cs generalizing after with
  | nil =>
    refine ⟨[], [], rfl, fun c hc => (nomatch hc), ?_, fun g hg => (nomatch hg)⟩
    rintro rfl
    cases h
  | cons c cs ih =>
    have hrest := fun d hd => hparts d (List.mem_cons_of_mem c hd)
    rw [grouped] at h
    split at h
    case isTrue hc =>
      obtain ⟨hafter, hgrouped⟩ := Bool.and_eq_true_iff.1 h
      -- an underscore begins a group, which is not empty because a digit follows
      obtain ⟨first, more, rfl, hfirst, hne, hmore⟩ := ih hrest hgrouped
      refine ⟨[], first :: more, by rw [hc]; rfl, fun d hd => (nomatch hd), by rw [hafter]; exact nofun, ?_⟩
      intro g hg
      rcases List.mem_cons.1 hg with rfl | hg
      · exact ⟨hne rfl, hfirst⟩
      · exact hmore g hg
    case isFalse hc =>
      -- a digit goes to the group that is open
      obtain ⟨first, more, rfl, hfirst, -, hmore⟩ := ih hrest h
      have hdigit : (digit? base c).isSome = true := by
        have hpart := hparts c List.mem_cons_self
        unfold isPart at hpart
        rwa [beq_false_of_ne hc, Bool.false_or] at hpart
      refine ⟨c :: first, more, rfl, fun d hd => ?_, fun _ => List.cons_ne_nil c first, hmore⟩
      rcases List.mem_cons.1 hd with rfl | hd
      · exact hdigit
      · exact hfirst d hd

/-- Without its separators a numeral is its groups in a row. -/
theorem filter_joined {first : List Char} {more : List (List Char)} (h : ∀ g ∈ first :: more, IsGroup base g) :
    (joined first more).filter (· != '_') = first ++ more.flatten := by
  -- a group has no underscore in it, so only those between the groups go
  have hkeep : ∀ g, IsGroup base g → g.filter (· != '_') = g := fun g hg =>
    List.filter_eq_self.2 fun c hc => bne_iff_ne.2 (ne_underscore (hg.2 c hc))
  have hmore : ∀ more : List (List Char), (∀ g ∈ more, IsGroup base g) →
      (more.flatMap ('_' :: ·)).filter (· != '_') = more.flatten := by
    intro more hmore
    induction more with
    | nil => rfl
    | cons g more ih =>
      rw [List.flatMap_cons, List.filter_append, ih fun g' hg' => hmore g' (List.mem_cons_of_mem g hg'),
        List.flatten_cons]
      congr 1
      exact hkeep g (hmore g List.mem_cons_self)
  rw [joined, List.filter_append, hkeep first (h first List.mem_cons_self),
    hmore more fun g hg => h g (List.mem_cons_of_mem first hg)]

/-- Groups and separators are all parts of a numeral. -/
theorem isPart_of_mem_joined {first : List Char} {more : List (List Char)} (h : ∀ g ∈ first :: more, IsGroup base g)
    (hc : c ∈ joined first more) : isPart base c = true := by
  have hdigit : ∀ g ∈ first :: more, ∀ d ∈ g, isPart base d = true := by
    intro g hg d hd
    unfold isPart
    rw [(h g hg).2 d hd, Bool.or_true]
  rcases List.mem_append.1 hc with hc | hc
  · exact hdigit first List.mem_cons_self c hc
  · obtain ⟨g, hg, hcg⟩ := List.mem_flatMap.1 hc
    rcases List.mem_cons.1 hcg with rfl | hcg
    · rfl
    · exact hdigit g (List.mem_cons_of_mem first hg) c hcg

/-! ### Signs and marks -/

/-- The mark of a base, or nothing; an underscore may stand behind a mark. -/
def IsMark (base : Nat) (mark : List Char) : Prop :=
  mark = [] ∨ ∃ letter under, mark? base = some (Char.toLower letter) ∧ (under = [] ∨ under = ['_']) ∧
    mark = '0' :: letter :: under

/-- A numeral need not have a mark in front. -/
theorem isMark_nil (base : Nat) : IsMark base [] := Or.inl rfl

/-- A digit is neither a sign nor a blank. -/
theorem head_of_isSome (h : (digit? base c).isSome = true) : c ≠ '-' ∧ c ≠ '+' ∧ isSpace c = false := by
  have hsign : ∀ s : Char, ((Text.digit? s).orElse fun _ => Hex.digit? s) = none → c ≠ s := by
    rintro s hs rfl
    unfold digit? at h
    rw [hs] at h
    cases h
  refine ⟨hsign '-' (by decide), hsign '+' (by decide), ?_⟩
  by_contra hspace
  have hpart : isPart base c = false := isPart_of_isSpace (Bool.of_not_eq_false hspace)
  unfold isPart at hpart
  rw [h, Bool.or_true] at hpart
  cases hpart

/-- A numeral without a sign is read from its first character. -/
theorem sign_of_ne (hminus : c ≠ '-') (hplus : c ≠ '+') : sign (c :: cs) = (false, c :: cs) :=
  sign.eq_3 (c :: cs) (fun _ h => hminus (List.cons.inj h).1) (fun _ h => hplus (List.cons.inj h).1)

/-- What was in front of what is behind the sign. -/
theorem exists_sign (cs : List Char) :
    ∃ s, s ∈ [[], ['+'], ['-']] ∧ s ++ (sign cs).2 = cs ∧ (sign cs).1 = decide (s = ['-']) := by
  unfold sign
  split
  · exact ⟨['-'], by decide, rfl, rfl⟩
  · exact ⟨['+'], by decide, rfl, rfl⟩
  · exact ⟨[], by decide, rfl, rfl⟩

/-- What was in front of what is behind the mark. -/
theorem exists_mark (base : Nat) (cs : List Char) : ∃ mark, IsMark base mark ∧ mark ++ afterMark base cs = cs := by
  unfold afterMark
  split
  case h_1 letter cs =>
    split
    case isTrue hletter =>
      split
      · exact ⟨['0', letter, '_'], Or.inr ⟨letter, ['_'], hletter, Or.inr rfl, rfl⟩, rfl⟩
      · exact ⟨['0', letter], Or.inr ⟨letter, [], hletter, Or.inl rfl, rfl⟩, rfl⟩
    case isFalse => exact ⟨[], Or.inl rfl, rfl⟩
  case h_2 => exact ⟨[], Or.inl rfl, rfl⟩

/-! ### Spellings -/

/-- How an integer is spelled in a base, part by part. -/
structure Spelling (base : Nat) where
  /-- The blanks in front of the sign. -/
  lead : List Char
  sign : List Char
  mark : List Char
  /-- The first group of digits. -/
  first : List Char
  /-- The groups behind it. -/
  more : List (List Char)
  /-- The blanks behind the last digit. -/
  trail : List Char
  isSpace : ∀ c ∈ lead ++ trail, Text.isSpace c = true
  sign_mem : sign ∈ [[], ['+'], ['-']]
  isMark : IsMark base mark
  isGroup : ∀ g ∈ first :: more, IsGroup base g
  length_le : bounded base = true → (first ++ more.flatten).length ≤ maxDigits

namespace Spelling

variable (s : Spelling base)

/-- All digits, without what stands between them. -/
def digits : List Char := s.first ++ s.more.flatten

/-- What is behind the mark. -/
def numeral : List Char := joined s.first s.more ++ s.trail

/-- The whole text. -/
def text : List Char := s.lead ++ (s.sign ++ (s.mark ++ s.numeral))

/-- The integer that is denoted. -/
def value : Int := if s.sign = ['-'] then -(Integer.value base s.digits : Int) else Integer.value base s.digits

theorem isSpace_trail : ∀ c ∈ s.trail, Text.isSpace c = true :=
  fun c hc => s.isSpace c (List.mem_append_right s.lead hc)

/-- A numeral begins with a digit. -/
theorem exists_numeral : ∃ c cs, s.numeral = c :: cs ∧ (digit? base c).isSome = true := by
  obtain ⟨hne, hdigits⟩ := s.isGroup s.first List.mem_cons_self
  obtain ⟨c, cs, hfirst⟩ := List.exists_cons_of_ne_nil hne
  refine ⟨c, cs ++ s.more.flatMap ('_' :: ·) ++ s.trail, ?_, hdigits c (hfirst ▸ List.mem_cons_self)⟩
  unfold numeral joined
  rw [hfirst]
  rfl

/-- Behind the sign there is neither another one nor a blank. -/
theorem exists_unsigned :
    ∃ c cs, s.mark ++ s.numeral = c :: cs ∧ c ≠ '-' ∧ c ≠ '+' ∧ Text.isSpace c = false := by
  rcases s.isMark with hmark | ⟨letter, under, -, -, hmark⟩
  · obtain ⟨c, cs, hnumeral, hdigit⟩ := s.exists_numeral
    exact ⟨c, cs, by rw [hmark, List.nil_append, hnumeral], head_of_isSome hdigit⟩
  · exact ⟨'0', letter :: under ++ s.numeral, by rw [hmark]; rfl, by decide⟩

/-- The blanks and the sign are taken off. -/
theorem sign_dropWhile :
    Integer.sign (s.text.dropWhile Text.isSpace) = (decide (s.sign = ['-']), s.mark ++ s.numeral) := by
  obtain ⟨c, cs, hunsigned, hminus, hplus, hspace⟩ := s.exists_unsigned
  have hlead : ∀ c ∈ s.lead, Text.isSpace c = true := fun c hc => s.isSpace c (List.mem_append_left s.trail hc)
  have hmem := s.sign_mem
  simp only [List.mem_cons, List.not_mem_nil, or_false] at hmem
  -- behind the leading space stands a sign, a mark or a digit, and none of them is a space
  have hhead : ∀ d ∈ (s.sign ++ (s.mark ++ s.numeral)).head?, Text.isSpace d = false := by
    refine head?_append_of_forall (fun d hd => ?_) (by rw [hunsigned]; rintro d ⟨⟩; exact hspace)
    rcases hmem with hs | hs | hs
    · rw [hs] at hd
      cases hd
    all_goals
      rw [hs] at hd
      cases List.mem_singleton.1 hd
      rfl
  rw [text, dropWhile_run hlead hhead]
  rcases hmem with hs | hs | hs
  · rw [hs, List.nil_append, hunsigned, sign_of_ne hminus hplus]
    rfl
  all_goals
    rw [hs]
    rfl

/-- The mark is taken off, and no digit is taken for one. -/
theorem afterMark_mark : afterMark base (s.mark ++ s.numeral) = s.numeral := by
  obtain ⟨c, cs, hnumeral, hdigit⟩ := s.exists_numeral
  rcases s.isMark with hmark | ⟨letter, under, hletter, hunder, hmark⟩
  · rw [hmark, List.nil_append]
    unfold afterMark
    split
    case h_1 letter rest hrest =>
      -- behind a zero there may be a digit, an underscore or a blank, but no letter that marks the base
      rw [if_neg, hrest]
      intro hletter
      obtain ⟨hpart, hspace⟩ := isPart_of_mark? hletter
      have hmem : letter ∈ s.numeral := hrest ▸ List.mem_cons_of_mem _ List.mem_cons_self
      rcases List.mem_append.1 hmem with hmem | hmem
      · rw [isPart_of_mem_joined s.isGroup hmem] at hpart
        cases hpart
      · rw [s.isSpace_trail letter hmem] at hspace
        cases hspace
    case h_2 => rfl
  · rw [hmark]
    rcases hunder with rfl | rfl
    · change afterMark base ('0' :: letter :: s.numeral) = s.numeral
      rw [afterMark, if_pos hletter]
      intro rest hrest
      rw [hnumeral] at hrest
      exact ne_underscore hdigit (List.cons.inj hrest).1
    · change afterMark base ('0' :: letter :: '_' :: s.numeral) = s.numeral
      rw [afterMark, if_pos hletter]

end Spelling

/-! ### Reading -/

variable {t : List Point} {x : Int}

/-- A spelling is read as the integer that it denotes. -/
theorem read_of_text (s : Spelling base) (h : s.text = chars t) : read base t = .ok s.value := by
  have hrun : ∀ c ∈ joined s.first s.more, isPart base c = true := fun c => isPart_of_mem_joined s.isGroup
  have hend : ∀ c ∈ s.trail.head?, isPart base c = false := fun c hc =>
    isPart_of_isSpace (s.isSpace_trail c (List.mem_of_mem_head? hc))
  have hlength : (bounded base && decide (maxDigits < s.digits.length)) = false := by
    cases hbounded : bounded base with
    | false => rfl
    | true => exact decide_eq_false (Nat.not_lt.2 (s.length_le hbounded))
  -- each part is taken off as a whole, and nothing of the next one with it
  unfold read
  rw [← h, s.sign_dropWhile]
  dsimp only
  rw [s.afterMark_mark, Spelling.numeral, takeWhile_run hrun hend, dropWhile_run hrun hend, grouped_joined s.isGroup,
    filter_joined s.isGroup, List.all_eq_true.2 s.isSpace_trail]
  change (if (bounded base && decide (maxDigits < s.digits.length)) = true then _ else _) = _
  rw [hlength]
  exact congrArg Except.ok (if_congr decide_eq_true_iff rfl rfl)

/-- What is read is a spelling: its parts are what reading has taken off. -/
theorem exists_spelling (h : read base t = .ok x) : ∃ s : Spelling base, s.text = chars t ∧ s.value = x := by
  obtain ⟨sg, hsg, hsigned, hnegative⟩ := exists_sign ((chars t).dropWhile isSpace)
  obtain ⟨mark, hmark, hunmarked⟩ := exists_mark base (sign ((chars t).dropWhile isSpace)).2
  unfold read at h
  dsimp only at h
  rw [hnegative] at h
  generalize afterMark base (sign ((chars t).dropWhile isSpace)).2 = cs at h hunmarked
  split at h
  case isTrue => cases h
  case isFalse hgrouped =>
    rw [Bool.not_eq_true, Bool.not_eq_false'] at hgrouped
    have hparts : ∀ c ∈ cs.takeWhile (isPart base), isPart base c = true := fun c => List.mem_takeWhile_imp
    obtain ⟨first, more, hjoined, hfirst, hne, hmore⟩ := exists_joined hparts hgrouped
    have hgroups : ∀ g ∈ first :: more, IsGroup base g := by
      intro g hg
      rcases List.mem_cons.1 hg with rfl | hg
      · exact ⟨hne rfl, hfirst⟩
      · exact hmore g hg
    -- an underscore is no digit, so that the groups hold all digits
    rw [hjoined, filter_joined hgroups] at h
    split at h
    case isTrue => cases h
    case isFalse hlength =>
      split at h
      case isTrue => cases h
      case isFalse htrail =>
        rw [Bool.not_eq_true, Bool.not_eq_false', List.all_eq_true] at htrail
        -- the parts are what was taken off, and together they are the text
        refine ⟨{ lead := (chars t).takeWhile isSpace, sign := sg, mark := mark, first := first, more := more
                  trail := cs.dropWhile (isPart base)
                  isSpace := fun c hc => (List.mem_append.1 hc).elim List.mem_takeWhile_imp (htrail c)
                  sign_mem := hsg, isMark := hmark, isGroup := hgroups
                  length_le := fun hbounded => ?_ }, ?_, ?_⟩
        · rw [hbounded, Bool.true_and, decide_eq_true_eq] at hlength
          exact Nat.not_lt.1 hlength
        · unfold Spelling.text Spelling.numeral
          rw [← hjoined, List.takeWhile_append_dropWhile, hunmarked, hsigned, List.takeWhile_append_dropWhile]
        · unfold Spelling.value Spelling.digits
          rw [← Except.ok.inj h]
          exact if_congr decide_eq_true_iff.symm rfl rfl

/-- A text is read as an integer exactly if it is a spelling of it. -/
theorem read_eq_ok_iff : read base t = .ok x ↔ ∃ s : Spelling base, s.text = chars t ∧ s.value = x := by
  constructor
  · exact exists_spelling
  · rintro ⟨s, htext, rfl⟩
    exact read_of_text s htext

/-! ### Writing and reading back -/

/-- A sign, a mark, and digits without anything between them. -/
def Spelling.written (negative : Bool) {mark : List Char} (hmark : IsMark base mark) (hds : IsGroup base ds)
    (hlength : bounded base = true → ds.length ≤ maxDigits) : Spelling base where
  lead := []
  sign := if negative then ['-'] else []
  mark := mark
  first := ds
  more := []
  trail := []
  isSpace := fun c hc => nomatch hc
  sign_mem := by cases negative <;> decide
  isMark := hmark
  isGroup := fun g hg => List.mem_singleton.1 hg ▸ hds
  length_le := by rwa [List.flatten_nil, List.append_nil]

section Written

variable {negative : Bool} {mark : List Char} (hmark : IsMark base mark) (hds : IsGroup base ds)
  (hlength : bounded base = true → ds.length ≤ maxDigits)

/-- What is written is a sign, a mark and digits. -/
theorem Spelling.text_written :
    (written negative hmark hds hlength).text = (if negative then ['-'] else []) ++ (mark ++ ds) := by
  unfold text numeral joined written
  simp only [List.flatMap_nil, List.append_nil, List.nil_append]

/-- And it has the value of its digits, with its sign. -/
theorem Spelling.value_written : (written negative hmark hds hlength).value =
    if negative then -(Integer.value base ds : Int) else Integer.value base ds := by
  unfold value digits written
  rw [List.flatten_nil, List.append_nil]
  cases negative <;> rfl

end Written

/-- An integer is read back if it has not too many digits. -/
theorem read_toString (h : x.natAbs < 10 ^ maxDigits) : read 10 (points (toString x)) = .ok x := by
  have hdigits : ∀ c ∈ Nat.toDigits 10 x.natAbs, isDigit c = true := fun c => isDigit_of_mem_toDigits
  -- the digits of a number are one group without a mark
  have hgroup : IsGroup 10 (Nat.toDigits 10 x.natAbs) := by
    refine ⟨Nat.toDigits_ne_nil, fun c hc => ?_⟩
    obtain ⟨d, hd⟩ := Option.isSome_iff_exists.1 (hdigits c hc)
    unfold digit?
    rw [hd]
    exact Option.isSome_iff_exists.2 ⟨d, Option.filter_some_pos (decide_eq_true (digit?_lt hd))⟩
  -- below the limit the number has no more digits than may be read
  have hlength : (Nat.toDigits 10 x.natAbs).length ≤ maxDigits :=
    (Nat.length_toDigits_le_iff (by decide) (by decide)).2 h
  have htext : (Spelling.written (decide (x < 0)) (isMark_nil 10) hgroup fun _ => hlength).text =
      chars (points (toString x)) := by
    rw [Spelling.text_written, chars_points, toList_toString, List.nil_append]
    simp only [decide_eq_true_eq]
  rw [read_of_text _ htext, Spelling.value_written, value_eq_denoted hdigits, denoted_toDigits]
  simp only [decide_eq_true_eq]
  congr 1
  split <;> omega

/-- A hexadecimal digit is a digit in base sixteen, with the same value. -/
theorem digit?_hex (h : Hex.isDigit c = true) : digit? 16 c = Hex.digit? c := by
  have hascii : ∀ n : Fin 128, Hex.isDigit (Char.ofNat n.val) = true →
      digit? 16 (Char.ofNat n.val) = Hex.digit? (Char.ofNat n.val) := by
    decide
  obtain ⟨d, hd⟩ := Option.isSome_iff_exists.1 h
  have hrange := Hex.range_of_digit? hd
  have hc := hascii ⟨c.toNat, by omega⟩
  rw [Char.ofNat_toNat] at hc
  exact hc h

/-- The digits behind the mark of base sixteen are read as what they denote, however many they are. -/
theorem read_marked {letter : Char} (hletter : letter = 'x' ∨ letter = 'X') (hne : ds ≠ [])
    (hds : ∀ c ∈ ds, Hex.isDigit c = true) (h : chars t = '0' :: letter :: ds) :
    read 16 t = .ok (Hex.value ds : Int) := by
  have hdigit : ∀ c ∈ ds, digit? 16 c = some ((Hex.digit? c).getD 0) := by
    intro c hc
    obtain ⟨d, hd⟩ := Option.isSome_iff_exists.1 (hds c hc)
    rw [digit?_hex (hds c hc), hd]
    rfl
  -- the mark of a hexadecimal number may be of either case
  have hmark : IsMark 16 ['0', letter] := by
    refine Or.inr ⟨letter, [], ?_, Or.inl rfl, rfl⟩
    rcases hletter with rfl | rfl <;> decide
  have hgroup : IsGroup 16 ds := ⟨hne, fun c hc => by rw [hdigit c hc]; rfl⟩
  have hvalue : value 16 ds = Hex.value ds := by
    unfold value Hex.value
    rw [List.filterMap_congr hdigit, List.filterMap_eq_map', List.foldl_map]
  have htext : (Spelling.written false hmark hgroup nofun).text = chars t := by
    rw [Spelling.text_written, h]
    rfl
  rw [read_of_text _ htext, Spelling.value_written, hvalue]
  rfl

end Y86.Text.Integer
