import Mathlib.Order.MinMax
import Y86.Document.Value
import Y86.Proofs.Sequence

/-!
# How deeply a value may be nested

The depth that it takes to show a value is its height, which counts how deeply values lie inside each other, with an empty
collection as high as a scalar. To any depth from its height on a value is shown, unless an integer in it has too many
digits; and a value that is shown at all is shown in the same way from its height on, and lies too deep below it
(`Value.shownFrom`).

Lists and mappings are shown item by item, and `ShownFrom` goes with the ways in which they are put together: two parts
are shown one after the other (`ShownFrom.both`), and a collection around its items (`ShownFrom.around`).
-/

namespace Y86.Document

variable {α β γ : Type} {f : Nat → Except ShowError α} {m n : Nat}

/-- A part of a value that takes a depth of `height` to be shown. -/
structure ShownFrom (f : Nat → Except ShowError α) (height : Nat) : Prop where
  ne_tooDeep : ∀ d, height ≤ d → f d ≠ .error .tooDeep
  eq_of_ok : ∀ {d' a}, f d' = .ok a → ∀ d, f d = if height ≤ d then .ok a else .error .tooDeep

namespace ShownFrom

/-- What does not look at the depth. -/
theorem const {r : Except ShowError α} (hr : r ≠ .error .tooDeep) : ShownFrom (fun _ => r) 0 where
  ne_tooDeep _ _ := hr
  eq_of_ok h d := by rw [if_pos (Nat.zero_le d), h]

theorem map (h : ShownFrom f n) (g : α → β) : ShownFrom (fun d => (f d).map g) n where
  ne_tooDeep d hd hmap := h.ne_tooDeep d hd (map_eq_error_iff.1 hmap)
  eq_of_ok {d' b} hmap d := by
    cases hf : f d' with
    | ok a =>
      rw [hf] at hmap
      rw [h.eq_of_ok hf d, ← Except.ok.inj hmap]
      split <;> rfl
    | error e =>
      rw [hf] at hmap
      cases hmap

/-- One part behind the other. -/
theorem both {g : Nat → Except ShowError β} (hf : ShownFrom f m) (hg : ShownFrom g n) (k : α → β → γ) :
    ShownFrom (fun d => do let a ← f d; let b ← g d; return k a b) (max m n) where
  ne_tooDeep d hd hbind := by
    rcases exists_of_bind_eq_error hbind with ha | ⟨a, -, hbind⟩
    · exact hf.ne_tooDeep d (le_trans (le_max_left m n) hd) ha
    · rcases exists_of_bind_eq_error hbind with hb | ⟨b, -, hbind⟩
      · exact hg.ne_tooDeep d (le_trans (le_max_right m n) hd) hb
      · cases hbind
  eq_of_ok {d' c} hbind d := by
    obtain ⟨a, ha, hbind⟩ := exists_of_bind_eq_ok hbind
    obtain ⟨b, hb, hbind⟩ := exists_of_bind_eq_ok hbind
    cases hbind
    rw [hf.eq_of_ok ha d, hg.eq_of_ok hb d]
    -- the first part that lies too deep is the cause
    by_cases hm : m ≤ d
    · by_cases hn : n ≤ d
      · rw [if_pos hm, if_pos hn, if_pos (max_le hm hn)]
        rfl
      · rw [if_pos hm, if_neg hn, if_neg fun h => hn (le_trans (le_max_right m n) h)]
        rfl
    · rw [if_neg hm, if_neg fun h => hm (le_trans (le_max_left m n) h)]
      rfl

/-- A collection around its items, which are shown to the depth that is left. -/
theorem around {g : Nat → Except ShowError α} {height : Nat} (hf : ShownFrom f n) (left : Nat → Nat)
    (hzero : g 0 = .error .tooDeep) (hsucc : ∀ d, g (d + 1) = f (left d)) (hpos : 0 < height)
    (hheight : ∀ d, height ≤ d + 1 ↔ n ≤ left d) : ShownFrom g height where
  ne_tooDeep d hd := by
    -- the brackets take a level, so without any nothing is shown
    cases d with
    | zero => exact absurd hd (Nat.not_le.2 hpos)
    | succ d =>
      rw [hsucc]
      exact hf.ne_tooDeep _ ((hheight d).1 hd)
  eq_of_ok {d' a} h d := by
    -- no room has shown anything, so there is a level to go down to
    cases d' with
    | zero =>
      rw [hzero] at h
      cases h
    | succ d' =>
      rw [hsucc] at h
      cases d with
      | zero => rw [hzero, if_neg (Nat.not_le.2 hpos)]
      | succ d =>
        rw [hsucc, hf.eq_of_ok h]
        exact if_congr (hheight d).symm rfl rfl

end ShownFrom

namespace Value

/-- The height of a collection whose items lie in a list of their own, if there are any. -/
def heightAround (items : Nat) : Nat := if items = 0 then 1 else items + 2

mutual

/-- How deeply values lie inside each other, in the way in which they are shown. -/
def height : Value → Nat
  | list items => heightItems items + 1
  | pairs fields => heightAround (heightFields fields)
  | set items => heightAround (heightItems items)
  | mapping fields => heightFields fields + 1
  | _ => 1

def heightItems : List Value → Nat
  | [] => 0
  | item :: items => max (height item) (heightItems items)

def heightFields : List (Value × Value) → Nat
  | [] => 0
  | (key, value) :: fields => max (height key) (max (height value) (heightFields fields))

end

theorem heightAround_le_succ (items d : Nat) : heightAround items ≤ d + 1 ↔ items ≤ d - 1 := by
  unfold heightAround
  split <;> omega

theorem heightAround_pos (items : Nat) : 0 < heightAround items := by
  unfold heightAround
  split <;> omega

theorem shownInteger_ne_tooDeep (x : Int) : shownInteger x ≠ .error .tooDeep := by
  unfold shownInteger
  split <;> exact nofun

/-- A value with nothing in it, which is shown to any depth but none. -/
theorem shownFrom_scalar {v : Value} {r : Except ShowError String} (hr : r ≠ .error .tooDeep)
    (hzero : shown 0 v = .error .tooDeep) (hsucc : ∀ d, shown (d + 1) v = r) : ShownFrom (fun d => shown d v) 1 :=
  (ShownFrom.const hr).around id hzero hsucc Nat.one_pos fun d =>
    ⟨fun _ => Nat.zero_le d, fun _ => Nat.le_add_left 1 d⟩

mutual

/-- A value is shown from its height on. -/
theorem shownFrom (v : Value) : ShownFrom (fun d => shown d v) v.height := by
  -- the items of a set, and of a list of pairs, lie in a list of their own
  cases v with
  | int x => exact shownFrom_scalar (shownInteger_ne_tooDeep x) (by rw [shown]) fun d => by rw [shown]
  | list items =>
    exact ((shownFrom_items items).map _).around id (by rw [shown]) (fun d => by rw [shown]; rfl)
      (Nat.succ_pos _) fun d => Nat.succ_le_succ_iff
  | pairs fields =>
    exact ((shownFrom_fields fields _ _ _).map _).around (· - 1) (by rw [shown]) (fun d => by rw [shown])
      (heightAround_pos _) (heightAround_le_succ _)
  | set items =>
    exact ((shownFrom_items items).map _).around (· - 1) (by rw [shown]) (fun d => by rw [shown])
      (heightAround_pos _) (heightAround_le_succ _)
  | mapping fields =>
    exact ((shownFrom_fields fields _ _ _).map _).around id (by rw [shown]) (fun d => by rw [shown]; rfl)
      (Nat.succ_pos _) fun d => Nat.succ_le_succ_iff
  | _ => exact shownFrom_scalar (r := .ok _) nofun (by rw [shown]) fun d => by rw [shown]

theorem shownFrom_items (items : List Value) : ShownFrom (fun d => shownItems d items) (heightItems items) := by
  cases items with
  | nil => exact .const nofun
  | cons item items => exact (shownFrom item).both (shownFrom_items items) _

theorem shownFrom_fields (fields : List (Value × Value)) (before between behind : String) :
    ShownFrom (fun d => shownFields d before between behind fields) (heightFields fields) := by
  cases fields with
  | nil => exact .const nofun
  | cons field fields =>
    obtain ⟨key, value⟩ := field
    have hboth := (shownFrom key).both ((shownFrom value).both (shownFrom_fields fields before between behind) Prod.mk)
      fun k texts => (before ++ k ++ between ++ texts.1 ++ behind) :: texts.2
    simp only [bind_assoc, pure_bind] at hboth
    exact hboth

end

/-! ### Values by themselves -/

/-- All values inside a value lie in the room there is. -/
def FitsIn (v : Value) (room : Nat) : Prop := v.height ≤ room

instance (v : Value) (room : Nat) : Decidable (v.FitsIn room) := inferInstanceAs (Decidable (_ ≤ _))

variable {v : Value} {room : Nat}

/-- A value by itself is one inside another one, unless it is shown anyway. -/
theorem display_cases (v : Value) (room : Nat) :
    v.display room = shown room v ∨ v.height = 1 ∧ ∃ text, v.display room = .ok text := by
  cases v with
  | text ps => exact Or.inr ⟨rfl, _, rfl⟩
  | date d => exact Or.inr ⟨rfl, _, rfl⟩
  | moment m => exact Or.inr ⟨rfl, _, rfl⟩
  | _ => exact Or.inl rfl

/-- A value for which there is room does not lie too deep. -/
theorem FitsIn.display_ne_tooDeep (h : v.FitsIn room) : v.display room ≠ .error .tooDeep := by
  rcases v.display_cases room with hv | ⟨-, text, hv⟩
  · rw [hv]
    exact v.shownFrom.ne_tooDeep room h
  · rw [hv]
    exact nofun

/-- A value for which there is no room lies too deep, if it could be shown in more room. -/
theorem display_tooDeep {d : Nat} {text : String} (hpos : 0 < room) (hshown : shown d v = .ok text)
    (hroom : ¬v.FitsIn room) : v.display room = .error .tooDeep := by
  rcases v.display_cases room with hv | ⟨hone, -⟩
  · rw [hv, v.shownFrom.eq_of_ok hshown room]
    exact if_neg hroom
  · -- what is shown anyway fits into any room at all
    unfold FitsIn at hroom
    rw [hone] at hroom
    exact absurd hpos hroom

end Value

end Y86.Document
