import Y86.Proofs.Memory.View

/-!
# What a memory records of its changes

Between two points at which the record of touched words is taken and cleared, memory only changes through stores.
`Memory.Tracks` is the invariant of such a segment: every byte that differs from the start lies in a recorded word,
and the recorded words are aligned and begin inside memory. A store keeps it whatever its alignment, since it records
each word that it meets (`Tracks.layTouch`), and a failing store changes nothing.

From the invariant it follows that the recorded words, read at the end of the segment and laid over the start in any
order, give the end (`Tracks.rebuild`). The words may be cut by the end of memory: where they are read they are filled
up with zeros, and where they are laid these are dropped again (`byteAt_applyWords`).
-/

namespace Y86

namespace Memory

/-! ### The words that a transfer meets -/

theorem mem_insertWord {b base : Nat} {ts : List Nat} : b ∈ insertWord base ts ↔ b = base ∨ b ∈ ts := by
  induction ts with
  | nil => exact List.mem_singleton.trans (by simp)
  | cons t ts ih =>
    unfold insertWord
    split
    · exact List.mem_cons
    · split
      case isTrue h => rw [h, List.mem_cons, or_self_left]
      case isFalse => rw [List.mem_cons, ih, List.mem_cons, or_left_comm]

theorem mem_sortWords {b : Nat} {ts : List Nat} : b ∈ sortWords ts ↔ b ∈ ts := by
  unfold sortWords
  induction ts with
  | nil => exact Iff.rfl
  | cons t ts ih => rw [List.foldr_cons, mem_insertWord, ih, List.mem_cons]

theorem mem_foldl_insertWord {b : Nat} (bases ts : List Nat) :
    b ∈ bases.foldl (fun ts base => insertWord base ts) ts ↔ b ∈ bases ∨ b ∈ ts := by
  induction bases generalizing ts with
  | nil => simp
  | cons base bases ih => rw [List.foldl_cons, ih, mem_insertWord, List.mem_cons, or_left_comm, or_assoc]

theorem mem_touched_touch {m : Memory} {address length b : Nat} :
    b ∈ (m.touch address length).touched ↔ b ∈ wordsMet address length ∨ b ∈ m.touched :=
  mem_foldl_insertWord _ _

theorem mem_wordsMet {address length b : Nat} :
    b ∈ wordsMet address length ↔
      ∃ k, b = k * wordSize ∧ address / wordSize ≤ k ∧ k ≤ (address + length - 1) / wordSize := by
  unfold wordsMet
  rw [List.mem_map]
  constructor
  · rintro ⟨k, hk, rfl⟩
    rw [List.mem_range] at hk
    exact ⟨_, rfl, by omega, by omega⟩
  · rintro ⟨k, rfl, hlo, hhi⟩
    exact ⟨k - address / wordSize, List.mem_range.2 (by omega), by rw [Nat.add_sub_cancel' hlo]⟩

/-- The word of every byte of a transfer is met. -/
theorem word_mem_wordsMet {address length j : Nat} (hlo : address ≤ j) (hhi : j < address + length) :
    j / wordSize * wordSize ∈ wordsMet address length :=
  mem_wordsMet.2 ⟨_, rfl, Nat.div_le_div_right hlo, Nat.div_le_div_right (by omega)⟩

/-- A word that is met holds a byte of the transfer. -/
theorem exists_byte_of_mem_wordsMet {address length b : Nat} (hpos : 0 < length) (h : b ∈ wordsMet address length) :
    ∃ i < length, b ≤ address + i ∧ address + i < b + wordSize := by
  obtain ⟨k, rfl, hlo, hhi⟩ := mem_wordsMet.1 h
  unfold wordSize at *
  by_cases hk : k * 8 ≤ address
  · -- the word begins in front of the transfer and holds its first byte
    exact ⟨0, hpos, by omega, by omega⟩
  · -- the word begins inside the transfer
    exact ⟨k * 8 - address, by omega, by omega, by omega⟩

theorem mod_of_mem_wordsMet {address length b : Nat} (h : b ∈ wordsMet address length) : b % wordSize = 0 := by
  obtain ⟨k, rfl, -, -⟩ := mem_wordsMet.1 h
  exact Nat.mul_mod_left k wordSize

/-- The words that are met begin in front of the end of the transfer, or with its first byte. -/
theorem lt_of_mem_wordsMet {address length b size : Nat} (h : b ∈ wordsMet address length) (hin : address < size)
    (hend : address + length ≤ size) : b < size := by
  obtain ⟨k, rfl, -, hhi⟩ := mem_wordsMet.1 h
  unfold wordSize at *
  omega

/-! ### The invariant of a segment -/

/-- `now` records what changed since `start`. -/
structure Tracks (now start : Memory) : Prop where
  size_eq : now.size = start.size
  /-- A byte that has changed lies in a recorded word. -/
  covered : ∀ j, now.byteAt j ≠ start.byteAt j → j / wordSize * wordSize ∈ now.touched
  /-- The recorded words are aligned and begin inside memory. -/
  aligned : ∀ b ∈ now.touched, b % wordSize = 0 ∧ b < now.size

namespace Tracks

variable {start now : Memory}

theorem refl {m : Memory} (h : m.touched = []) : m.Tracks m where
  size_eq := rfl
  covered := fun j hj => absurd rfl hj
  aligned := fun b hb => by rw [h] at hb; cases hb

/-- Bytes that are laid inside memory and recorded keep the record complete. -/
theorem layTouch (h : now.Tracks start) (i : Nat) (values : List UInt8) (hin : i < now.size)
    (hend : i + values.length ≤ now.size) : ((now.lay i values).touch i values.length).Tracks start where
  size_eq := by rw [size_touch, size_lay, h.size_eq]
  covered := by
    intro j hj
    rw [byteAt_touch, byteAt_lay] at hj
    rw [mem_touched_touch]
    by_cases hij : i ≤ j ∧ j < i + values.length ∧ j < now.size
    · -- a byte that was laid lies in a word that was met
      exact Or.inl (word_mem_wordsMet hij.1 hij.2.1)
    · -- a byte that was not laid has changed before
      rw [if_neg hij] at hj
      exact Or.inr (h.covered j hj)
  aligned := by
    intro b hb
    rw [size_touch, size_lay]
    rcases mem_touched_touch.1 hb with hmet | hold
    · exact ⟨mod_of_mem_wordsMet hmet, lt_of_mem_wordsMet hmet hin hend⟩
    · exact h.aligned b hold

theorem write (h : now.Tracks start) {address value : Int} {next : Memory} (hw : now.write address value = .ok next) :
    next.Tracks start := by
  obtain ⟨hrange, -, rfl⟩ := write_eq_ok_iff.1 hw
  exact h.layTouch _ [_] (by omega) (by rw [List.length_singleton]; omega)

theorem writeQuad (h : now.Tracks start) {address value : Int} {next : Memory}
    (hw : now.writeQuad address value = .ok next) : next.Tracks start := by
  obtain ⟨hrange, rfl⟩ := writeQuad_eq_ok_iff.1 hw
  have hlen : (Word.toBytes value).length = wordSize := Word.length_toBytes value
  have h8 : wordSize = 8 := rfl
  have hlaid := h.layTouch address.toNat (Word.toBytes value) (by omega) (by rw [hlen]; omega)
  rwa [hlen] at hlaid

/-- Outside the recorded words nothing has changed. -/
theorem unchanged (h : now.Tracks start) {j : Nat} (hj : ∀ b ∈ now.touched, ¬(b ≤ j ∧ j < b + wordSize)) :
    now.byteAt j = start.byteAt j := by
  refine Decidable.byContradiction fun hne => hj _ (h.covered j hne) ?_
  unfold wordSize
  omega

/-- The recorded words, laid over the start, give the end; any list of them will do. -/
theorem rebuild (h : now.Tracks start) {bases : List Nat} (hbases : ∀ b, b ∈ bases ↔ b ∈ now.touched) :
    (start.applyWords (bases.map fun b : Nat => ((b : Int), (now.wordAt b : Int)))).bytes = now.bytes := by
  refine bytes_ext (by rw [size_applyWords, h.size_eq]) fun j _ => ?_
  rw [byteAt_applyWords h.size_eq.symm]
  by_cases hj : ∃ b ∈ bases, b ≤ j ∧ j < b + wordSize
  · rw [if_pos hj]
  · -- where no word is laid nothing had changed
    rw [if_neg hj]
    refine (h.unchanged fun b hb hin => ?_).symm
    exact hj ⟨b, (hbases b).2 hb, hin⟩

end Tracks

end Memory

end Y86
