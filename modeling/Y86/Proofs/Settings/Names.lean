import Y86.Proofs.Sequence
import Y86.Proofs.Text.Integer
import Y86.Settings

/-!
# Settings under their names

`Denotes` says which integer a value stands for. Settings under their names are read in two passes over `Setting.all`: all
values are looked up, and then all integers are checked for being positive (`Settings.ofNames_eq`). Each pass ends at its
first error (`Setting.FirstError`). So it is known which settings are read (`Settings.ofNames_eq_ok_iff`), and which error
there is otherwise (`Settings.ofNames_eq_error_iff`).

`Spells` are the usual ways to give a number, and each of them gives this number, up to the number of digits that a decimal
numeral may have (`Settings.integerOf_of_spells`).
-/

namespace Y86

open Document Text

/-! ### The order of settings -/

namespace Setting

/-- Being looked at earlier. -/
def Before (j k : Setting) : Prop := all.idxOf j < all.idxOf k

instance (j k : Setting) : Decidable (Before j k) := inferInstanceAs (Decidable (_ < _))

variable {ε α : Type} {f : Setting → Except ε α}

/-- What is found for each setting, one after the other. -/
def each (f : Setting → Except ε α) : Except ε (Setting → α) := do
  let m ← f .memorySize
  let s ← f .maxSteps
  let t ← f .tickInterval
  return fun
    | .memorySize => m
    | .maxSteps => s
    | .tickInterval => t

/-- The error of the first setting that has one. -/
def FirstError (f : Setting → Except ε α) (e : ε) : Prop :=
  ∃ k, f k = .error e ∧ ∀ j, Before j k → ∃ a, f j = .ok a

/-- All settings are found if each of them is. -/
theorem each_eq_ok_iff {v : Setting → α} : each f = .ok v ↔ ∀ k, f k = .ok (v k) := by
  constructor
  · intro h k
    obtain ⟨m, hm, h⟩ := exists_of_bind_eq_ok h
    obtain ⟨s, hs, h⟩ := exists_of_bind_eq_ok h
    obtain ⟨t, ht, h⟩ := exists_of_bind_eq_ok h
    cases h
    -- the three results are those of the three settings
    cases k with
    | memorySize => exact hm
    | maxSteps => exact hs
    | tickInterval => exact ht
  · intro h
    unfold each
    rw [h .memorySize, h .maxSteps, h .tickInterval]
    refine congrArg Except.ok (funext fun k => ?_)
    cases k <;> rfl

/-- The first one that is not found is the error. -/
theorem each_eq_error_iff {e : ε} : each f = .error e ↔ FirstError f e := by
  constructor
  · intro h
    rcases exists_of_bind_eq_error h with hm | ⟨m, hm, h⟩
    · -- the first setting to fail gives the error, and those in front of it have been read
      refine ⟨.memorySize, hm, fun j hj => ?_⟩
      cases j <;> exact absurd hj (by decide)
    · rcases exists_of_bind_eq_error h with hs | ⟨s, hs, h⟩
      · refine ⟨.maxSteps, hs, fun j hj => ?_⟩
        cases j with
        | memorySize => exact ⟨m, hm⟩
        | _ => exact absurd hj (by decide)
      · rcases exists_of_bind_eq_error h with ht | ⟨t, -, h⟩
        · refine ⟨.tickInterval, ht, fun j hj => ?_⟩
          cases j with
          | memorySize => exact ⟨m, hm⟩
          | maxSteps => exact ⟨s, hs⟩
          | tickInterval => exact absurd hj (by decide)
        · cases h
  · rintro ⟨k, hk, hbefore⟩
    unfold each
    -- the settings in front of the one that fails are passed
    cases k with
    | memorySize =>
      rw [hk]
      rfl
    | maxSteps =>
      obtain ⟨m, hm⟩ := hbefore .memorySize (by decide)
      rw [hm, hk]
      rfl
    | tickInterval =>
      obtain ⟨m, hm⟩ := hbefore .memorySize (by decide)
      obtain ⟨s, hs⟩ := hbefore .maxSteps (by decide)
      rw [hm, hs, hk]
      rfl

end Setting

namespace Settings

def get (s : Settings) : Setting → Nat
  | .memorySize => s.memorySize
  | .maxSteps => s.maxSteps
  | .tickInterval => s.tickInterval

/-! ### What values denote -/

/-- The integer that a value stands for: itself, or what a text spells, in base sixteen if that begins with the mark
of this base and in base ten otherwise. A truth value stands for none. -/
inductive Denotes : Value → Int → Prop
  | int (n : Int) : Denotes (.int n) n
  | text {ps : List Point} (s : Integer.Spelling (if isMarked (chars ps) then 16 else 10)) : s.text = chars ps →
      Denotes (.text ps) s.value

/-- A value is read as the integer that it denotes, and otherwise not at all. -/
theorem integerOf_eq_ok_iff {x : Value} {n : Int} : integerOf x = .ok n ↔ Denotes x n := by
  constructor
  · intro h
    cases x with
    | int m =>
      cases h
      exact .int n
    | text ps =>
      unfold integerOf at h
      dsimp only at h
      split at h
      case h_1 m hread =>
        cases h
        -- a text is read if it spells an integer
        obtain ⟨s, htext, rfl⟩ := Integer.read_eq_ok_iff.1 hread
        exact .text s htext
      case h_2 => cases h
    | _ => cases h
  · intro h
    cases h with
    | int => rfl
    | text s htext =>
      unfold integerOf
      dsimp only
      rw [Integer.read_of_text s htext]

/-- What is set by what is given. -/
def Chosen (k : Setting) : Option Value → Int → Prop
  | none, n => n = k.default
  | some x, n => Denotes x n

/-- A setting that is not given has its default. -/
theorem lookUp_eq_ok_iff {given : String → Option Value} {k : Setting} {n : Int} :
    lookUp given k = .ok n ↔ Chosen k (given k.name) n := by
  unfold lookUp
  cases given k.name with
  | none => exact ⟨fun h => (Except.ok.inj h).symm, fun h => congrArg Except.ok h.symm⟩
  | some x => exact integerOf_eq_ok_iff

/-! ### Two passes -/

variable {given given' : String → Option Value}

/-- A setting has to be positive. -/
theorem positive_eq_ok_iff {k : Setting} {x : Int} {n : Nat} : positive k x = .ok n ↔ 0 < n ∧ (n : Int) = x := by
  unfold positive
  split
  case isTrue hpos =>
    constructor
    · intro h
      -- a positive integer is its own natural number
      have hn := Except.ok.inj h
      omega
    · rintro ⟨-, rfl⟩
      rfl
  case isFalse hneg =>
    constructor
    · intro h
      cases h
    · rintro ⟨hpos, rfl⟩
      exact absurd (Int.natCast_pos.2 hpos) hneg

/-- And one that is not is named in the error. -/
theorem positive_eq_error_iff {k : Setting} {x : Int} {e : SettingsError} :
    positive k x = .error e ↔ x ≤ 0 ∧ e = .notPositive k x := by
  unfold positive
  split
  case isTrue hpos => exact ⟨nofun, fun h => absurd hpos (Int.not_lt.2 h.1)⟩
  case isFalse hneg =>
    constructor
    · intro h
      exact ⟨Int.not_lt.1 hneg, (Except.error.inj h).symm⟩
    · rintro ⟨-, rfl⟩
      rfl

/-- Integers that have to be positive. -/
def positives (x : Setting → Int) : Except SettingsError (Setting → Nat) := Setting.each fun k => positive k (x k)

/-- All values are looked up before any of them is checked. -/
theorem ofNames_eq (given : String → Option Value) :
    ofNames given = do
      let x ← Setting.each (lookUp given)
      let n ← positives x
      return ⟨n .memorySize, n .maxSteps, n .tickInterval⟩ := by
  unfold ofNames positives Setting.each
  simp only [bind_assoc, pure_bind]

/-- **Acceptance.** Settings are read exactly if every one of them is chosen and positive. -/
theorem ofNames_eq_ok_iff {s : Settings} :
    ofNames given = .ok s ↔ ∀ k : Setting, 0 < s.get k ∧ Chosen k (given k.name) (s.get k) := by
  rw [ofNames_eq]
  constructor
  · intro h k
    obtain ⟨x, hx, h⟩ := exists_of_bind_eq_ok h
    obtain ⟨n, hn, h⟩ := exists_of_bind_eq_ok h
    cases h
    -- what was checked is what was looked up
    obtain ⟨hpos, heq⟩ := positive_eq_ok_iff.1 (Setting.each_eq_ok_iff.1 hn k)
    have hchosen := lookUp_eq_ok_iff.1 (Setting.each_eq_ok_iff.1 hx k)
    rw [← heq] at hchosen
    cases k <;> exact ⟨hpos, hchosen⟩
  · intro h
    have hx := Setting.each_eq_ok_iff.2 fun k => lookUp_eq_ok_iff.2 (h k).2
    have hn : positives (fun k => s.get k) = .ok s.get :=
      Setting.each_eq_ok_iff.2 fun k => positive_eq_ok_iff.2 ⟨(h k).1, rfl⟩
    rw [hx]
    change (positives (fun k => s.get k) >>= _) = _
    rw [hn]
    rfl

/-- **Order.** What a value denotes is found out for all settings before any of them is asked whether it is positive. -/
theorem ofNames_eq_error_iff {e : SettingsError} :
    ofNames given = .error e ↔ Setting.FirstError (lookUp given) e ∨
      ∃ x : Setting → Int, (∀ k, Chosen k (given k.name) (x k)) ∧
        Setting.FirstError (fun k => positive k (x k)) e := by
  rw [ofNames_eq]
  constructor
  · intro h
    rcases exists_of_bind_eq_error h with hx | ⟨x, hx, h⟩
    · -- a setting cannot be read
      exact Or.inl (Setting.each_eq_error_iff.1 hx)
    · -- all settings are read before the first is found not to be positive
      refine Or.inr ⟨x, fun k => lookUp_eq_ok_iff.1 (Setting.each_eq_ok_iff.1 hx k), ?_⟩
      rcases exists_of_bind_eq_error h with hn | ⟨n, -, h⟩
      · exact Setting.each_eq_error_iff.1 hn
      · cases h
  · rintro (hfirst | ⟨x, hchosen, hfirst⟩)
    · rw [Setting.each_eq_error_iff.2 hfirst]
      rfl
    · have hx := Setting.each_eq_ok_iff.2 fun k => lookUp_eq_ok_iff.2 (hchosen k)
      have hn : positives x = .error e := Setting.each_eq_error_iff.2 hfirst
      rw [hx]
      change (positives x >>= _) = _
      rw [hn]
      rfl

/-- What is chosen for a setting is determined. -/
theorem Chosen.unique {k : Setting} {x : Option Value} {m n : Int} (hm : Chosen k x m) (hn : Chosen k x n) : m = n := by
  cases x with
  | none => exact hm.trans hn.symm
  | some x => exact Except.ok.inj ((integerOf_eq_ok_iff.2 hm).symm.trans (integerOf_eq_ok_iff.2 hn))

/-- Only the three names are looked at, and there only the integers that are denoted. -/
theorem ofNames_congr (h : ∀ k : Setting, lookUp given k = lookUp given' k) : ofNames given = ofNames given' := by
  rw [ofNames_eq, ofNames_eq, show lookUp given = lookUp given' from funext h]

/-- An error about a value is about the one that was given. -/
theorem eq_of_integerOf_eq_format {x y : Value} (h : integerOf x = .error (.format y)) : y = x := by
  cases x with
  | text ps =>
    unfold integerOf at h
    dsimp only at h
    split at h <;> cases h
  | _ => cases h <;> rfl

/-! ### Spellings of a number -/

/-- The usual ways to give a number: as an integer, by its decimal numeral, and by hexadecimal digits of either case behind
the mark of base sixteen, with zeros in front of them or without. -/
inductive Spells (v : Nat) : Value → Prop
  | int : Spells v (.int v)
  | decimal : Spells v (.text (points (toString v)))
  | marked {letter : Char} {ds : List Char} : (letter = 'x' ∨ letter = 'X') → ds ≠ [] →
      (∀ c ∈ ds, Hex.isDigit c = true) → Hex.value ds = v →
      Spells v (.text (points (String.ofList ('0' :: letter :: ds))))

/-- A text of decimal digits is not marked. -/
theorem isMarked_of_forall_isDigit {cs : List Char} (h : ∀ c ∈ cs, Text.isDigit c = true) : isMarked cs = false := by
  unfold isMarked
  split
  case h_1 => exact absurd (h 'x' (List.mem_cons_of_mem _ List.mem_cons_self)) (by decide)
  case h_2 => exact absurd (h 'X' (List.mem_cons_of_mem _ List.mem_cons_self)) (by decide)
  case h_3 => rfl

/-- All spellings of a number are read as the number. -/
theorem integerOf_of_spells {v : Nat} {x : Value} (hv : v < 10 ^ Integer.maxDigits) (h : Spells v x) :
    integerOf x = .ok v := by
  cases h with
  | int => rfl
  | decimal =>
    -- digits have no mark in front, so they are read to base ten
    have hmarked : isMarked (chars (points (toString v))) = false := by
      rw [chars_points]
      refine isMarked_of_forall_isDigit fun c hc => ?_
      change c ∈ v.repr.toList at hc
      rw [Nat.repr_eq_ofList_toDigits, String.toList_ofList] at hc
      exact isDigit_of_mem_toDigits hc
    unfold integerOf
    dsimp only
    rw [hmarked, if_neg Bool.false_ne_true]
    have hread := Integer.read_toString (x := v) hv
    change Integer.read 10 (points (toString v)) = _ at hread
    rw [hread]
  | @marked letter ds hletter hne hds hvalue =>
    have hchars : chars (points (String.ofList ('0' :: letter :: ds))) = '0' :: letter :: ds := by
      rw [chars_points, String.toList_ofList]
    -- a marked text is read to base sixteen
    have hmarked : isMarked ('0' :: letter :: ds) = true := by
      rcases hletter with rfl | rfl <;> rfl
    unfold integerOf
    dsimp only
    rw [hchars, hmarked, if_pos rfl, Integer.read_marked hletter hne hds hchars, hvalue]

end Settings

end Y86
