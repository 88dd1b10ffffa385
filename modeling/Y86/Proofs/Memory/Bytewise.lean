import Mathlib.Algebra.BigOperators.Ring.Finset
import Y86.Proofs.Memory.Quad
import Y86.Proofs.Memory.Segment

/-!
# A word is eight bytes, stored at once

A quad store does what eight stores of one byte do in a row (`Memory.writeBytes`): the same bytes are in memory
afterwards, and the same aligned words are in the record, wherever the eight bytes lie. It differs where there is no room
for all of them, as it then stores none.

The reason is that both ways lay bytes over memory and record the words that these meet, and that the end of such a
stretch can be moved on by one byte (`Memory.lay_concat`, `Memory.touch_succ`); recording a word a second time changes
nothing. A load adds up eight bytes (`Memory.ofBytes_window`), and after a store each of these is one of the word or an
old one (`Memory.byteAfter`). `Memory.transfers_words` puts this together.
-/

namespace Y86

namespace Word

/-- The byte of a word that counts `256 ^ i`. -/
def byte (x : Int) (i : Nat) : Int := x % modulus / 256 ^ i % 256

variable {x : Int} {i : Nat}

/-- A byte of a word is a number from zero on. -/
theorem byte_nonneg (x : Int) (i : Nat) : 0 ≤ byte x i := Int.emod_nonneg _ (by decide)

/-- And it is less than 256. -/
theorem byte_lt (x : Int) (i : Nat) : byte x i < 256 := Int.emod_lt_of_pos _ (by decide)

/-- The bytes of a number stand in the order of their powers. -/
theorem getElem?_lowBytes {count : Nat} (n : Nat) (h : i < count) :
    (lowBytes count n)[i]? = some (UInt8.ofNat (n / 256 ^ i)) := by
  induction count generalizing n i with
  | zero => exact absurd h (Nat.not_lt_zero i)
  | succ count ih =>
    cases i with
    | zero =>
      rw [Nat.pow_zero, Nat.div_one]
      rfl
    | succ i =>
      rw [lowBytes, List.getElem?_cons_succ, ih _ (Nat.lt_of_succ_lt_succ h), Nat.div_div_eq_div_mul, Nat.pow_succ']

/-- The bytes of a word are those that are stored. -/
theorem getElem?_toBytes (x : Int) (h : i < 8) : (toBytes x)[i]? = some (UInt8.ofNat (byte x i).toNat) := by
  have hbyte : byte x i = ((unsigned x / 256 ^ i % 256 : Nat) : Int) := by
    unfold byte
    rw [Int.natCast_emod, Int.natCast_ediv, Int.natCast_pow, unsigned_eq]
    rfl
  rw [toBytes, getElem?_lowBytes _ h, hbyte, Int.toNat_natCast]
  congr 1
  apply UInt8.toNat.inj
  rw [UInt8.toNat_ofNat', UInt8.toNat_ofNat']
  exact (Nat.mod_mod _ _).symm

end Word

namespace Memory

open Finset (range)

variable {m n : Memory} {address value : Int}

/-! ### Stretches of bytes -/

/-- Laying bytes over others in two parts is laying them at once. -/
theorem overlay_append (bytes : ByteArray) (i : Nat) (vs ws : List UInt8) :
    overlay bytes i (vs ++ ws) = overlay (overlay bytes i vs) (i + vs.length) ws := by
  induction vs generalizing bytes i with
  | nil => rfl
  | cons v vs ih =>
    rw [List.cons_append, overlay, overlay, List.length_cons]
    split
    case isTrue h => rw [ih, Nat.add_right_comm, Nat.add_assoc]
    case isFalse h =>
      -- what lies behind the end of memory is dropped in either order
      cases ws with
      | nil => rfl
      | cons w ws => rw [overlay, dif_neg (by omega)]

/-- One byte more is laid behind the others. -/
theorem lay_concat (m : Memory) (i : Nat) (vs : List UInt8) (v : UInt8) :
    (m.lay i vs).lay (i + vs.length) [v] = m.lay i (vs ++ [v]) := by
  unfold lay
  simp only [overlay_append]

/-- The first byte of a stretch can be laid by itself. -/
theorem lay_cons (m : Memory) (i : Nat) (v : UInt8) (vs : List UInt8) :
    (m.lay i [v]).lay (i + 1) vs = m.lay i (v :: vs) := by
  have happend : overlay m.bytes i (v :: vs) = overlay (overlay m.bytes i [v]) (i + 1) vs :=
    overlay_append m.bytes i [v] vs
  unfold lay
  simp only [happend]

/-- A word is recorded once, however often it is touched. -/
theorem insertWord_insertWord (base : Nat) (ts : List Nat) :
    insertWord base (insertWord base ts) = insertWord base ts := by
  induction ts with
  | nil => simp [insertWord]
  | cons t ts ih =>
    by_cases hlt : base < t
    · simp [insertWord, hlt]
    · by_cases heq : base = t
      · simp [insertWord, heq]
      · simp [insertWord, hlt, heq, ih]

/-- The words of a stretch with one byte more: there is a new one if that byte begins a word. -/
theorem wordsMet_succ {a length : Nat} (h : 0 < length) :
    wordsMet a (length + 1) =
      if (a + length) / wordSize = (a + length - 1) / wordSize then wordsMet a length
      else wordsMet a length ++ [(a + length) / wordSize * wordSize] := by
  unfold wordsMet
  dsimp only
  rw [show a + (length + 1) - 1 = a + length by omega]
  split
  case isTrue heq => rw [heq]
  case isFalse hne =>
    unfold wordSize at *
    -- one byte more begins a word that the bytes before did not meet
    have hcount : (a + length) / 8 + 1 - a / 8 = (a + length - 1) / 8 + 1 - a / 8 + 1 := by omega
    rw [hcount, List.range_succ, List.map_append, List.map_singleton]
    congr 3
    omega

/-- The words of a stretch end with that of its last byte. -/
theorem exists_wordsMet_concat {a length : Nat} (h : 0 < length) :
    ∃ ws, wordsMet a length = ws ++ [(a + length - 1) / wordSize * wordSize] := by
  unfold wordsMet wordSize
  dsimp only
  have hcount : (a + length - 1) / 8 + 1 - a / 8 = (a + length - 1) / 8 - a / 8 + 1 := by omega
  rw [hcount, List.range_succ, List.map_append, List.map_singleton]
  exact ⟨_, congrArg _ (congrArg (fun k => [k * 8]) (by omega))⟩

/-- A single byte meets the word that it lies in. -/
theorem wordsMet_one (a : Nat) : wordsMet a 1 = [a / wordSize * wordSize] := by
  unfold wordsMet
  dsimp only
  rw [Nat.add_sub_cancel, Nat.add_sub_cancel_left]
  rfl

/-- Touching one byte more touches the words of the longer stretch. -/
theorem touch_succ (m : Memory) (a : Nat) {length : Nat} (h : 0 < length) :
    (m.touch a length).touch (a + length) 1 = m.touch a (length + 1) := by
  unfold touch
  rw [wordsMet_one, wordsMet_succ h]
  congr 1
  split
  case isTrue heq =>
    -- the word was recorded with the byte before
    obtain ⟨ws, hws⟩ := exists_wordsMet_concat (a := a) h
    rw [hws, ← heq]
    simp only [List.foldl_append, List.foldl_cons, List.foldl_nil, insertWord_insertWord]
  case isFalse => rw [List.foldl_append]

/-- The first byte of a stretch can be recorded by itself. -/
theorem touch_cons (m : Memory) (a : Nat) {length : Nat} (h : 0 < length) :
    (m.touch a 1).touch (a + 1) length = m.touch a (length + 1) := by
  induction length with
  | zero => exact absurd h (Nat.lt_irrefl 0)
  | succ k ih =>
    cases k with
    | zero => exact touch_succ m a Nat.one_pos
    | succ k =>
      -- both stretches are moved on at their end
      rw [← touch_succ _ _ (Nat.succ_pos k), ih (Nat.succ_pos k), ← touch_succ m a (Nat.succ_pos (k + 1))]
      congr 1
      omega

/-! ### Stores byte by byte -/

/-- Writes the first bytes of a word one after the other, each to an address of its own. -/
def writeBytes (m : Memory) (address value : Int) : Nat → Except Fault Memory
  | 0 => .ok m
  | k + 1 => do (← m.writeBytes address value k).write (address + k) (Word.byte value k)

/-- One byte more at the end of a stretch that was laid and recorded. -/
theorem write_concat {a k : Nat} {vs : List UInt8} (hk : vs.length = k) (hpos : 0 < k) (hroom : a + k + 1 ≤ m.size)
    (x : Int) (i : Nat) :
    ((m.lay a vs).touch a k).write (a + k : Nat) (Word.byte x i)
      = .ok ((m.lay a (vs ++ [UInt8.ofNat (Word.byte x i).toNat])).touch a (k + 1)) := by
  have hlt := Word.byte_lt x i
  refine write_eq_ok_iff.2 ⟨?_, ⟨Word.byte_nonneg x i, by omega⟩, ?_⟩
  · rw [size_touch, size_lay]
    omega
  · rw [Int.toNat_natCast, ← lay_concat, hk, ← touch_succ _ _ hpos]
    rfl

/-- Where there is room, writing the bytes one after the other lays the first of them over memory. The induction is on
their number, with the byte that comes last split off. -/
theorem writeBytes_of_room {k : Nat} (hpos : 0 ≤ address) (hroom : address + (k + 1 : Nat) ≤ m.size) (hk : k < 8) :
    m.writeBytes address value (k + 1)
      = .ok ((m.lay address.toNat ((Word.toBytes value).take (k + 1))).touch address.toNat (k + 1)) := by
  obtain ⟨a, rfl⟩ := Int.eq_ofNat_of_zero_le hpos
  rw [Int.toNat_natCast]
  induction k with
  | zero =>
    have hlt := Word.byte_lt value 0
    -- the first byte is a stretch of its own
    have htake : (Word.toBytes value).take 1 = [UInt8.ofNat (Word.byte value 0).toNat] := by
      rw [List.take_add_one, List.take_zero, Word.getElem?_toBytes value (by decide)]
      rfl
    rw [htake]
    change m.write (a + (0 : Nat)) _ = _
    rw [Int.natCast_zero, Int.add_zero]
    exact write_eq_ok_iff.2 ⟨⟨hpos, hroom⟩, ⟨Word.byte_nonneg value 0, Int.le_of_lt_add_one hlt⟩, rfl⟩
  | succ k ih =>
    have hlength : ((Word.toBytes value).take (k + 1)).length = k + 1 := by
      rw [List.length_take, Word.length_toBytes]
      omega
    have htake : (Word.toBytes value).take (k + 2)
        = (Word.toBytes value).take (k + 1) ++ [UInt8.ofNat (Word.byte value (k + 1)).toNat] := by
      rw [List.take_add_one, Word.getElem?_toBytes value hk]
      rfl
    -- the next byte goes behind those that have been written
    rw [writeBytes, ih (by omega) (by omega), htake]
    exact write_concat hlength (Nat.succ_pos k) (by omega) value (k + 1)

/-- Where bytes were written one by one there was room for them. -/
theorem room_of_writeBytes {k : Nat} (h : m.writeBytes address value k = .ok n) :
    n.size = m.size ∧ (0 < k → 0 ≤ address ∧ address + k ≤ m.size) := by
  induction k generalizing n with
  | zero => exact ⟨congrArg size (Except.ok.inj h).symm, fun hk => absurd hk (Nat.lt_irrefl 0)⟩
  | succ k ih =>
    obtain ⟨before, hbefore, hwrite⟩ := exists_of_bind_eq_ok h
    obtain ⟨hsize, hroom⟩ := ih hbefore
    obtain ⟨hrange, -, rfl⟩ := write_eq_ok_iff.1 hwrite
    refine ⟨by rw [size_touch, size_lay, hsize], fun _ => ?_⟩
    rw [hsize] at hrange
    -- the first byte bounds the address from below, the last one from above
    by_cases hk : 0 < k
    · exact ⟨(hroom hk).1, by omega⟩
    · omega

/-- A word is stored exactly if its bytes can be stored one by one, and with the same outcome. -/
theorem writeQuad_eq_ok_iff_writeBytes :
    m.writeQuad address value = .ok n ↔ m.writeBytes address value wordSize = .ok n := by
  have htake : (Word.toBytes value).take wordSize = Word.toBytes value :=
    List.take_of_length_le (Nat.le_of_eq (Word.length_toBytes value))
  constructor
  · intro h
    obtain ⟨hroom, rfl⟩ := writeQuad_eq_ok_iff.1 h
    rw [writeBytes_of_room hroom.1 hroom.2 (by decide), htake]
  · intro h
    have hroom := (room_of_writeBytes h).2 (by decide)
    rw [writeBytes_of_room hroom.1 hroom.2 (by decide), htake] at h
    exact writeQuad_eq_ok_iff.2 ⟨hroom, (Except.ok.inj h).symm⟩

/-! ### Loads byte by byte -/

/-- The number that bytes of memory denote. -/
theorem ofBytes_window (m : Memory) (i k : Nat) :
    Word.ofBytes (m.window i k) = ∑ j ∈ range k, (m.byteAt (i + j)).toNat * 256 ^ j := by
  induction k generalizing i with
  | zero => rfl
  | succ k ih =>
    rw [window_succ, Word.ofBytes, ih, Finset.sum_range_succ', Finset.mul_sum, Nat.add_comm]
    congr 1
    · refine Finset.sum_congr rfl fun j _ => ?_
      rw [Nat.add_right_comm, Nat.add_assoc, Nat.pow_succ']
      exact Nat.mul_left_comm _ _ _
    · rw [Nat.add_zero, Nat.pow_zero, Nat.mul_one]

/-- **Loads.** A word is read exactly if its bytes are, and it is their sum. -/
theorem readQuad_eq_ok_iff_read {word : Nat} :
    m.readQuad address = .ok word ↔
      ∃ bytes : Nat → UInt8, (∀ i < wordSize, m.read (address + i) = .ok (bytes i)) ∧
        word = ∑ i ∈ range wordSize, (bytes i).toNat * 256 ^ i := by
  rw [readQuad_eq_ok_iff]
  constructor
  · intro h
    obtain ⟨a, rfl⟩ := Int.eq_ofNat_of_zero_le h.1.1
    have hend := h.1.2
    refine ⟨fun i => m.byteAt (a + i), fun i hi => read_eq_ok_iff.2 ⟨by omega, ?_⟩, ?_⟩
    · rw [← Int.natCast_add, Int.toNat_natCast]
    · rw [h.2, Int.toNat_natCast, ofBytes_window]
  · rintro ⟨bytes, hread, hword⟩
    -- the first and the last byte are in memory
    have hfirst := (read_eq_ok_iff.1 (hread 0 (by decide))).1
    have hlast := (read_eq_ok_iff.1 (hread 7 (by decide))).1
    obtain ⟨a, rfl⟩ := Int.eq_ofNat_of_zero_le (show 0 ≤ address by omega)
    refine ⟨⟨by omega, by unfold wordSize; omega⟩, ?_⟩
    rw [hword, Int.toNat_natCast, ofBytes_window]
    refine Finset.sum_congr rfl fun i hi => ?_
    have hbyte := (read_eq_ok_iff.1 (hread i (Finset.mem_range.1 hi))).2
    rw [hbyte, ← Int.natCast_add, Int.toNat_natCast]

/-! ### Loads behind a store -/

/-- The byte at an address behind a store of a word: one of the word, or an old one. -/
def byteAfter (m : Memory) (address value position : Int) : Int :=
  if address ≤ position ∧ position < address + wordSize then Word.byte value (position - address).toNat
  else (m.byteAt position.toNat).toNat

/-- After a store every byte of memory is a byte of the word, or as before. -/
theorem Stored.byteAt_eq (h : m.Stored address value n) (j : Nat) :
    ((n.byteAt j).toNat : Int) = m.byteAfter address value j := by
  unfold byteAfter
  split
  case isTrue hin =>
    obtain ⟨a, rfl⟩ := Int.eq_ofNat_of_zero_le h.room.1
    obtain ⟨i, rfl⟩ := Nat.exists_eq_add_of_le (Int.ofNat_le.1 hin.1)
    have hi : i < wordSize := by omega
    -- the position is the `i`-th of the word that has been stored
    have hbyte : some (n.byteAt (a + i)) = some (UInt8.ofNat (Word.byte value i).toNat) := by
      rw [← getElem?_window n hi, ← Word.getElem?_toBytes value hi, ← h.window_eq, Int.toNat_natCast]
    have hnonneg := Word.byte_nonneg value i
    have hlt := Word.byte_lt value i
    rw [Option.some.inj hbyte, UInt8.toNat_ofNat', show ((a + i : Nat) - a : Int).toNat = i by omega]
    omega
  case isFalse hout => rw [h.outside j hout, Int.toNat_natCast]

/-- A word that is loaded behind a store is made of bytes of the stored word and of old bytes. -/
theorem Stored.readSigned_eq_sum (h : m.Stored address value n) {b : Int} (hb : m.HasQuad b) :
    n.readSigned b
      = .ok (Word.signed (∑ i ∈ range wordSize, m.byteAfter address value (b + i) * 256 ^ i)) := by
  have hroom : n.HasQuad b := by
    unfold HasQuad
    rw [h.size_eq]
    exact hb
  refine readSigned_eq_ok_iff.2 ⟨_, readQuad_eq_ok_iff.2 ⟨hroom, rfl⟩, ?_⟩
  obtain ⟨b, rfl⟩ := Int.eq_ofNat_of_zero_le hb.1
  rw [ofBytes_window, Int.toNat_natCast, Nat.cast_sum]
  congr 1
  -- byte by byte, what is read is what is there after the store
  refine Finset.sum_congr rfl fun i _ => ?_
  rw [Nat.cast_mul, h.byteAt_eq, Int.natCast_add, Nat.cast_pow]
  rfl

/-! ### Words and their bytes -/

/-- What transfers of eight bytes do in a memory, told by those of one byte. -/
structure TransfersWords (m : Memory) : Prop where
  /-- A word is stored if there is room for all its bytes. -/
  stores_iff : ∀ address value : Int, (∃ n, m.writeQuad address value = .ok n) ↔ 0 ≤ address ∧ address + 8 ≤ m.size
  /-- The memory behind the store, its record included, is the one behind eight stores of one byte. -/
  bytewise : ∀ (address value : Int) (n : Memory), m.writeQuad address value = .ok n ↔ m.writeBytes address value 8 = .ok n
  /-- A store for which there is no room is refused as a whole. -/
  atomic : ∀ address value : Int, ¬(0 ≤ address ∧ address + 8 ≤ m.size) →
    m.writeQuad address value = .error (.transfer .write address m.size) ∧ m.after (.quad address value) = m
  /-- A word is loaded if all its bytes are in memory. -/
  loads_iff : ∀ address : Int, (∃ word, m.readQuad address = .ok word) ↔ 0 ≤ address ∧ address + 8 ≤ m.size
  /-- It is the sum of its bytes. -/
  loads : ∀ (address : Int) (word : Nat), m.readQuad address = .ok word ↔
    ∃ bytes : Nat → UInt8, (∀ i : Nat, i < 8 → m.read (address + i) = .ok (bytes i)) ∧
      word = ∑ i ∈ range 8, (bytes i).toNat * 256 ^ i
  /-- The signed load is the signed reading of that sum. -/
  loads_signed : ∀ address x : Int, m.readSigned address = .ok x ↔
    ∃ word : Nat, m.readQuad address = .ok word ∧ x = Word.signed word
  size_eq : ∀ (address value : Int) (n : Memory), m.writeQuad address value = .ok n → n.size = m.size
  /-- A word is read back. -/
  load_same : ∀ (address value : Int) (n : Memory), m.writeQuad address value = .ok n →
    n.readSigned address = .ok (Word.signed value)
  /-- Eight bytes or more away nothing changes. -/
  load_apart : ∀ (address b value : Int) (n : Memory), m.writeQuad address value = .ok n → 8 ≤ (address - b).natAbs →
    n.readSigned b = m.readSigned b
  /-- In between, the bytes of the word and the old ones are put together. -/
  load_overlapping : ∀ (address b value : Int) (n : Memory), m.writeQuad address value = .ok n → (address - b).natAbs < 8 →
    0 ≤ b → b + 8 ≤ m.size →
    n.readSigned b = .ok (Word.signed (∑ i ∈ range 8, m.byteAfter address value (b + i) * 256 ^ i))

/-- **A transfer of eight bytes is eight transfers of one byte, made at once.** At every address and for every integer,
a store leaves the bytes and the record that byte stores leave, or does nothing at all; and what is loaded behind it is
put together from the bytes of the word and from the old ones. -/
theorem transfers_words (m : Memory) : m.TransfersWords where
  stores_iff := by
    intro address value
    refine ⟨fun ⟨n, h⟩ => (writeQuad_eq_ok_iff.1 h).1, fun hroom => ⟨_, writeQuad_eq_ok_iff.2 ⟨hroom, rfl⟩⟩⟩
  bytewise := fun _ _ _ => writeQuad_eq_ok_iff_writeBytes
  atomic := by
    intro address value hout
    -- a store that fails fails with the range of its own transfer
    have herror : m.writeQuad address value = .error (.transfer .write address m.size) := by
      cases hw : m.writeQuad address value with
      | ok n => exact absurd (writeQuad_eq_ok_iff.1 hw).1 hout
      | error fault => rw [(transfer_eq_error hw).2]
    refine ⟨herror, ?_⟩
    unfold after Store.run
    simp only [herror]
  loads_iff := by
    intro address
    exact ⟨fun ⟨word, h⟩ => (readQuad_eq_ok_iff.1 h).1, fun hroom => ⟨_, readQuad_eq_ok_iff.2 ⟨hroom, rfl⟩⟩⟩
  loads := fun _ _ => readQuad_eq_ok_iff_read
  loads_signed := fun _ _ => readSigned_eq_ok_iff
  size_eq := fun _ _ _ h => (stored_of_writeQuad h).size_eq
  load_same := fun _ _ _ h => (stored_of_writeQuad h).readSigned_eq
  load_apart := by
    intro address b value n h hapart
    -- none of the bytes that are read has been written
    have hstored := stored_of_writeQuad h
    refine readSigned_eq_of_bytes hstored.size_eq fun j hlo hhi => hstored.outside j ?_
    unfold wordSize at *
    omega
  load_overlapping := fun _ _ _ _ h _ hb hend => (stored_of_writeQuad h).readSigned_eq_sum ⟨hb, hend⟩

/-- Eight bytes up to the end of memory, where its last word is cut off: both words are recorded. -/
example : ((zeros 13 (by decide)).writeQuad 5 (-2)).toOption.map (fun n => (n.touched, (n.readSigned 2).toOption))
    = some ([0, 8], some (-33554432)) := by
  decide +kernel

end Memory

end Y86
