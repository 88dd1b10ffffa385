import Y86.Proofs.Memory.Delta
import Y86.Proofs.Sequence

/-!
# Quad transfers

A quad transfer succeeds exactly if memory holds all its eight bytes (`Memory.HasQuad`), and a transfer that fails is an
address fault. What a store does is said once, by `Memory.Stored`: the eight bytes are those of the word, all other bytes
are as before, and the record of touched words gains the aligned words that the eight bytes meet and no others
(`Memory.stored_of_writeQuad`).

The record is kept in ascending order (`Memory.Ascending`), and one quad store adds at most two words to an empty one
(`Memory.length_touched_writeQuad`).
-/

namespace Y86

namespace Memory

variable {m n : Memory} {address value : Int}

/-! ### Which transfers succeed -/

/-- All eight bytes from an address on lie inside memory. -/
def HasQuad (m : Memory) (address : Int) : Prop := 0 ≤ address ∧ address + wordSize ≤ m.size

instance (m : Memory) (address : Int) : Decidable (m.HasQuad address) := inferInstanceAs (Decidable (_ ∧ _))

/-- Where there is room for eight bytes there is room for the first. -/
theorem HasQuad.bounds (h : m.HasQuad address) : 0 ≤ address ∧ address < m.size := by
  unfold HasQuad wordSize at h
  omega

/-- A byte is read exactly at the positions of memory. -/
theorem read_eq_ok_iff {byte : UInt8} :
    m.read address = .ok byte ↔ (0 ≤ address ∧ address < m.size) ∧ byte = m.byteAt address.toNat := by
  have hbound : address < m.size ↔ address + (1 : Nat) ≤ m.size := by omega
  rw [hbound]
  exact transfer_eq_ok_iff

/-- A word is read exactly where memory holds all its bytes. -/
theorem readQuad_eq_ok_iff {word : Nat} :
    m.readQuad address = .ok word ↔ m.HasQuad address ∧ word = Word.ofBytes (m.window address.toNat wordSize) :=
  transfer_eq_ok_iff

/-- Reading a signed word is reading a word. -/
theorem readSigned_eq_ok_iff :
    m.readSigned address = .ok value ↔ ∃ word : Nat, m.readQuad address = .ok word ∧ value = Word.signed word := by
  unfold readSigned
  constructor
  · intro h
    obtain ⟨word, hword, hsigned⟩ := exists_of_map_eq_ok h
    exact ⟨word, hword, hsigned.symm⟩
  · rintro ⟨word, hword, hsigned⟩
    rw [hword, hsigned]
    rfl

/-- Bytes that all lie inside memory are read. -/
theorem readBytes_of_room {length : Nat} (hnonneg : 0 ≤ address) (hroom : address + length ≤ m.size) :
    m.readBytes address length = .ok (m.window address.toNat length) := by
  induction length generalizing address with
  | zero => rfl
  | succ length ih =>
    have hread : m.read address = .ok (m.byteAt address.toNat) := read_eq_ok_iff.2 ⟨⟨hnonneg, by omega⟩, rfl⟩
    have hnext : (address + 1).toNat = address.toNat + 1 := Int.toNat_add_nat hnonneg 1
    unfold readBytes
    rw [hread, ih (by omega) (by omega), hnext, window_succ]
    rfl

/-! A transfer that is not made ends with an address fault. -/

section Faults

variable {fault : Fault}

theorem read_eq_error (h : m.read address = .error fault) : fault.status? = some .adr := by
  rw [(transfer_eq_error h).2]
  rfl

/-- A word is refused only because memory does not hold it. -/
theorem readQuad_eq_error (h : m.readQuad address = .error fault) :
    ¬m.HasQuad address ∧ fault.status? = some .adr := by
  obtain ⟨hout, rfl⟩ := transfer_eq_error h
  exact ⟨hout, rfl⟩

theorem readSigned_eq_error (h : m.readSigned address = .error fault) :
    ¬m.HasQuad address ∧ fault.status? = some .adr := by
  unfold readSigned at h
  exact readQuad_eq_error (eq_error_of_map h)

/-- A store is refused only because memory does not hold the word. -/
theorem writeQuad_eq_error (h : m.writeQuad address value = .error fault) :
    ¬m.HasQuad address ∧ fault.status? = some .adr := by
  obtain ⟨hout, rfl⟩ := transfer_eq_error h
  exact ⟨hout, rfl⟩

end Faults

/-! ### What a store does -/

/-- The eight bytes from an address on and the aligned word from `base` on have a byte in common. -/
def Meets (address : Int) (base : Nat) : Prop := (base : Int) < address + wordSize ∧ address < base + wordSize

/-- `after` is `before` with the word of a value stored at an address. -/
structure Stored (before : Memory) (address value : Int) (after : Memory) : Prop where
  /-- There is room for the word. -/
  room : before.HasQuad address
  /-- The size has not changed. -/
  size_eq : after.size = before.size
  /-- The word is there, its least significant byte first. -/
  window_eq : after.window address.toNat wordSize = Word.toBytes value
  /-- Outside of it nothing has changed. -/
  outside : ∀ j : Nat, ¬(address ≤ j ∧ (j : Int) < address + wordSize) → after.byteAt j = before.byteAt j
  /-- The record gains the aligned words that the eight bytes meet. -/
  mem_touched : ∀ base, base ∈ after.touched ↔ base ∈ before.touched ∨ base % wordSize = 0 ∧ Meets address base

/-- The words that eight bytes meet are those with a byte in common. -/
theorem mem_wordsMet_quad {a base : Nat} : base ∈ wordsMet a wordSize ↔ base % wordSize = 0 ∧ Meets a base := by
  rw [mem_wordsMet]
  unfold Meets wordSize
  constructor
  · rintro ⟨k, rfl, hlo, hhi⟩
    exact ⟨Nat.mul_mod_left k 8, by omega, by omega⟩
  · rintro ⟨haligned, hlo, hhi⟩
    exact ⟨base / 8, by omega, by omega, by omega⟩

/-- **Stores.** A store that succeeds does what `Memory.Stored` says. -/
theorem stored_of_writeQuad (h : m.writeQuad address value = .ok n) : m.Stored address value n := by
  obtain ⟨hroom, rfl⟩ := writeQuad_eq_ok_iff.1 h
  have hlen : (Word.toBytes value).length = wordSize := Word.length_toBytes value
  obtain ⟨a, rfl⟩ := Int.eq_ofNat_of_zero_le hroom.1
  have hend : a + wordSize ≤ m.size := by omega
  exact
    { room := hroom
      size_eq := m.size_lay _ _
      window_eq := by
        -- both are eight bytes, and they agree one by one
        refine List.ext_getElem? fun k => ?_
        by_cases hk : k < wordSize
        · have hin : a ≤ a + k ∧ a + k < a + wordSize ∧ a + k < m.size := by omega
          have hbyte : (Word.toBytes value)[k]? = some (Word.toBytes value)[k] := List.getElem?_eq_getElem _
          rw [getElem?_window _ hk, byteAt_touch, byteAt_lay, hlen, Int.toNat_natCast, if_pos hin,
            Nat.add_sub_cancel_left, hbyte]
          rfl
        · rw [List.getElem?_eq_none (by rw [length_window]; omega), List.getElem?_eq_none (by omega)]
      outside := by
        intro j hj
        rw [byteAt_touch, byteAt_lay, hlen, Int.toNat_natCast, if_neg (by omega)]
      mem_touched := by
        intro base
        rw [mem_touched_touch, Int.toNat_natCast, mem_wordsMet_quad, or_comm]
        rfl }

/-! ### Reading a word back -/

/-- What was stored is read again. -/
theorem Stored.readQuad_eq (h : m.Stored address value n) : n.readQuad address = .ok (Word.unsigned value) := by
  have hroom : n.HasQuad address := by
    unfold HasQuad
    rw [h.size_eq]
    exact h.room
  refine readQuad_eq_ok_iff.2 ⟨hroom, ?_⟩
  rw [h.window_eq, Word.ofBytes_toBytes]

/-- And it is read with its sign. -/
theorem Stored.readSigned_eq (h : m.Stored address value n) : n.readSigned address = .ok (Word.signed value) :=
  readSigned_eq_ok_iff.2 ⟨_, h.readQuad_eq, (Word.signed_unsigned value).symm⟩

/-- A word is read from its eight bytes and the size of memory. -/
theorem readQuad_eq_of_bytes (hsize : n.size = m.size)
    (h : ∀ j : Nat, address ≤ j → (j : Int) < address + wordSize → n.byteAt j = m.byteAt j) :
    n.readQuad address = m.readQuad address := by
  -- the range check reads the size only
  have hrequire : n.require .read address wordSize = m.require .read address wordSize := by
    unfold require
    rw [hsize]
  unfold readQuad
  rw [hrequire]
  cases hroom : m.require .read address wordSize with
  | error fault => simp only [bind, Except.bind]
  | ok u =>
    obtain ⟨hpos, -⟩ := require_eq_ok_iff.1 hroom
    -- the bytes of the window agree one by one
    have hwindow : n.window address.toNat wordSize = m.window address.toNat wordSize := by
      refine List.map_congr_left fun k hk => ?_
      rw [List.mem_range] at hk
      apply h <;> omega
    rw [hwindow]

/-- A word is read alike where its bytes are the same. -/
theorem readSigned_eq_of_bytes (hsize : n.size = m.size)
    (h : ∀ j : Nat, address ≤ j → (j : Int) < address + wordSize → n.byteAt j = m.byteAt j) :
    n.readSigned address = m.readSigned address := by
  unfold readSigned
  rw [readQuad_eq_of_bytes hsize h]

/-! ### The order of the record -/

/-- The record of touched words is in ascending order, each word once. -/
def Ascending (m : Memory) : Prop := m.touched.Pairwise (· < ·)

/-- A word is inserted at its place. -/
theorem pairwise_insertWord {ts : List Nat} (h : ts.Pairwise (· < ·)) (base : Nat) :
    (insertWord base ts).Pairwise (· < ·) := by
  induction ts with
  | nil => exact List.pairwise_singleton _ _
  | cons t ts ih =>
    obtain ⟨hfirst, hrest⟩ := List.pairwise_cons.1 h
    unfold insertWord
    split
    case isTrue hlt =>
      -- the new word comes in front of all
      refine List.pairwise_cons.2 ⟨fun b hb => ?_, h⟩
      rcases List.mem_cons.1 hb with rfl | hb
      · exact hlt
      · exact Nat.lt_trans hlt (hfirst b hb)
    case isFalse hle =>
      split
      case isTrue => exact h
      case isFalse hne =>
        -- it comes behind the first one, and before or behind the others
        refine List.pairwise_cons.2 ⟨fun b hb => ?_, ih hrest⟩
        rcases mem_insertWord.1 hb with rfl | hb
        · omega
        · exact hfirst b hb

/-- Sorted words are in ascending order, each of them once. -/
theorem pairwise_sortWords (ts : List Nat) : (sortWords ts).Pairwise (· < ·) := by
  unfold sortWords
  induction ts with
  | nil => exact List.Pairwise.nil
  | cons t ts ih => exact pairwise_insertWord ih t

/-- The record stays in ascending order, whatever is touched. -/
theorem Ascending.touch (h : m.Ascending) (a length : Nat) : (m.touch a length).Ascending := by
  have hfold : ∀ (bases ts : List Nat), ts.Pairwise (· < ·) →
      (bases.foldl (fun ts base => insertWord base ts) ts).Pairwise (· < ·) := by
    intro bases
    induction bases with
    | nil => exact fun ts hts => hts
    | cons base bases ih => exact fun ts hts => ih _ (pairwise_insertWord hts base)
  exact hfold _ _ h

/-- An empty record is in order. -/
theorem ascending_of_touched (h : m.touched = []) : m.Ascending := by
  unfold Ascending
  rw [h]
  exact List.Pairwise.nil

/-- One word more makes a record longer by one at most. -/
theorem length_insertWord_le (base : Nat) (ts : List Nat) : (insertWord base ts).length ≤ ts.length + 1 := by
  induction ts with
  | nil => exact Nat.le_refl 1
  | cons t ts ih =>
    unfold insertWord
    split
    · exact Nat.le_refl _
    · split
      · exact Nat.le_succ _
      · exact Nat.succ_le_succ ih

/-- Sorting drops words that are there twice, and adds none. -/
theorem length_sortWords_le (ts : List Nat) : (sortWords ts).length ≤ ts.length := by
  unfold sortWords
  induction ts with
  | nil => exact Nat.le_refl 0
  | cons t ts ih => exact Nat.le_trans (length_insertWord_le t _) (Nat.succ_le_succ ih)

theorem length_foldl_insertWord_le (bases ts : List Nat) :
    (bases.foldl (fun ts base => insertWord base ts) ts).length ≤ ts.length + bases.length := by
  induction bases generalizing ts with
  | nil => exact Nat.le_refl _
  | cons base bases ih =>
    calc ((base :: bases).foldl (fun ts base => insertWord base ts) ts).length
      _ ≤ (insertWord base ts).length + bases.length := ih _
      _ ≤ ts.length + 1 + bases.length := Nat.add_le_add_right (length_insertWord_le base ts) _
      _ = ts.length + (base :: bases).length := by rw [List.length_cons]; omega

/-- Eight bytes meet two aligned words at most. -/
theorem length_touched_writeQuad (hm : m.touched = []) (h : m.writeQuad address value = .ok n) :
    n.touched.length ≤ 2 := by
  obtain ⟨-, rfl⟩ := writeQuad_eq_ok_iff.1 h
  have hmet : (wordsMet address.toNat wordSize).length ≤ 2 := by
    unfold wordsMet
    rw [List.length_map, List.length_range]
    unfold wordSize
    omega
  calc ((m.lay address.toNat (Word.toBytes value)).touch address.toNat wordSize).touched.length
    _ ≤ m.touched.length + (wordsMet address.toNat wordSize).length := length_foldl_insertWord_le _ _
    _ ≤ 2 := by rw [hm, List.length_nil, Nat.zero_add]; exact hmet

end Memory

end Y86
