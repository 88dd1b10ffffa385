import Y86.Memory.Basic

/-!
# Memory byte by byte

Two memories of one size are the same if they agree at every position (`Memory.bytes_ext`), so each operation is
described by the byte that it leaves at a position:

* `Memory.byteAt_lay` for bytes laid over memory, and `Memory.write_eq_ok_iff`, `Memory.writeQuad_eq_ok_iff` for
  the transfers that are made of it;
* `Memory.byteAt_applyWords` for the words of one memory laid over another: where a word lies, the memory that it
  was read from shows, whatever the order of the words and wherever the end of memory cuts them.
-/

namespace Y86

namespace Word

/-- A number is bounded by the number of its bytes. -/
theorem ofBytes_lt (bs : List UInt8) : ofBytes bs < Nat.pow 256 bs.length := by
  induction bs with
  | nil => decide
  | cons b bs ih =>
    have hb : b.toNat < 256 := b.toNat_lt
    -- a byte adds less than one unit of the next power
    change b.toNat + 256 * ofBytes bs < Nat.pow 256 bs.length * 256
    omega

/-- A byte string is recovered from the number that it denotes. -/
theorem lowBytes_ofBytes (bs : List UInt8) : lowBytes bs.length (ofBytes bs) = bs := by
  induction bs with
  | nil => rfl
  | cons b bs ih =>
    have hb : b.toNat < 256 := b.toNat_lt
    have hdiv : ofBytes (b :: bs) / 256 = ofBytes bs := by rw [ofBytes]; omega
    have hmod : ofBytes (b :: bs) % 2 ^ 8 = b.toNat := by rw [ofBytes]; omega
    rw [List.length_cons, lowBytes, hdiv, ih]
    congr 1
    apply UInt8.toNat.inj
    rw [UInt8.toNat_ofNat', hmod]

theorem unsigned_of_lt {n : Nat} (h : n < modulus) : unsigned n = n := by
  have hu := unsigned_eq n
  unfold modulus at h
  omega

/-- Eight bytes are taken apart again as they were put together. -/
theorem toBytes_ofBytes {bs : List UInt8} (h : bs.length = 8) : toBytes (ofBytes bs : Nat) = bs := by
  have hlt : ofBytes bs < modulus := by
    have := ofBytes_lt bs
    rw [h] at this
    exact this
  rw [toBytes, unsigned_of_lt hlt, ← h]
  exact lowBytes_ofBytes bs

/-- Eight bytes are known from their word, however that is read. -/
theorem signed_ofBytes_inj {bs bs' : List UInt8} (h : bs.length = 8) (h' : bs'.length = 8)
    (hword : signed (ofBytes bs) = signed (ofBytes bs')) : bs = bs' := by
  have hbytes : toBytes (signed (ofBytes bs)) = toBytes (signed (ofBytes bs')) := congrArg toBytes hword
  unfold toBytes at hbytes
  rw [unsigned_signed, unsigned_signed] at hbytes
  calc bs
    _ = toBytes (ofBytes bs : Nat) := (toBytes_ofBytes h).symm
    _ = toBytes (ofBytes bs' : Nat) := hbytes
    _ = bs' := toBytes_ofBytes h'

end Word

namespace Memory

/-! ### The byte at a position -/

/-- Behind the end of memory there are zeros. -/
theorem byteAt_of_size_le {m : Memory} {j : Nat} (h : m.size ≤ j) : m.byteAt j = 0 := by
  unfold byteAt
  rw [getElem?_neg m.bytes j (by unfold size at h; omega)]
  rfl

/-- Memories of one size are told apart by a byte. -/
theorem bytes_ext {a b : Memory} (hsize : a.size = b.size) (h : ∀ j < a.size, a.byteAt j = b.byteAt j) :
    a.bytes = b.bytes := by
  refine ByteArray.ext_getElem hsize fun j ha hb => ?_
  have hj := h j ha
  unfold byteAt at hj
  rwa [getElem?_pos a.bytes j ha, getElem?_pos b.bytes j hb] at hj

/-- The size of a memory is a matter of its bytes. -/
theorem size_congr {a b : Memory} (h : a.bytes = b.bytes) : a.size = b.size := by
  unfold size
  rw [h]

/-- Bytes that are laid over memory are found where they were laid, up to the end of memory. -/
theorem byteAt_lay (m : Memory) (i : Nat) (values : List UInt8) (j : Nat) :
    (m.lay i values).byteAt j
      = if i ≤ j ∧ j < i + values.length ∧ j < m.size then values[j - i]?.getD 0 else m.byteAt j := by
  change ((overlay m.bytes i values)[j]?).getD 0
    = if i ≤ j ∧ j < i + values.length ∧ j < m.bytes.size then _ else _
  rw [getElem?_overlay]
  split <;> rfl

theorem length_window (m : Memory) (i length : Nat) : (m.window i length).length = length := by
  rw [window, List.length_map, List.length_range]

/-- A window shows the byte at each of its positions. -/
theorem getElem?_window (m : Memory) {i length k : Nat} (h : k < length) :
    (m.window i length)[k]? = some (m.byteAt (i + k)) := by
  rw [window, List.getElem?_map, List.getElem?_range h]
  rfl

/-- A window begins with its first byte. -/
theorem window_succ (m : Memory) (i length : Nat) : m.window i (length + 1) = m.byteAt i :: m.window (i + 1) length := by
  unfold window
  rw [List.range_succ_eq_map, List.map_cons, List.map_map, Nat.add_zero]
  congr 2
  funext k
  exact congrArg m.byteAt (Nat.succ_add_eq_add_succ i k).symm

/-- The rest of a window is a window. -/
theorem drop_window (m : Memory) (i length k : Nat) : (m.window i length).drop k = m.window (i + k) (length - k) := by
  induction k generalizing i length with
  | zero => rfl
  | succ k ih =>
    cases length with
    | zero => rw [Nat.zero_sub]; rfl
    | succ length => rw [window_succ, List.drop_succ_cons, ih, Nat.add_sub_add_right, Nat.add_right_comm, Nat.add_assoc]

/-! ### Reading depends on the bytes only -/

/-- Memories with the same bytes differ in their records only. -/
theorem eq_of_bytes {m n : Memory} (h : m.bytes = n.bytes) : m = { n with touched := m.touched } := by
  cases m
  cases n
  cases h
  rfl

/-- A read is a matter of the bytes, and not of the record. -/
theorem readQuad_congr {m n : Memory} (h : m.bytes = n.bytes) (address : Int) :
    m.readQuad address = n.readQuad address := by
  rw [eq_of_bytes h]
  rfl

theorem readSigned_congr {m n : Memory} (h : m.bytes = n.bytes) (address : Int) :
    m.readSigned address = n.readSigned address := by
  rw [eq_of_bytes h]
  rfl

/-! ### Transfers -/

/-- A range is admitted exactly if it lies inside memory. -/
theorem require_eq_ok_iff {m : Memory} {direction : Transfer} {address : Int} {length : Nat} :
    m.require direction address length = .ok () ↔ 0 ≤ address ∧ address + length ≤ m.size := by
  unfold require
  split
  case isTrue h => exact ⟨fun _ => h, fun _ => rfl⟩
  case isFalse h => exact ⟨fun e => (nomatch e), fun h' => absurd h' h⟩

section Transfers

variable {α : Type} {m : Memory} {direction : Transfer} {address : Int} {length : Nat} {v w : α} {fault : Fault}

/-- Otherwise the fault names the direction, the address and the size. -/
theorem require_eq_error (h : m.require direction address length = .error fault) :
    ¬(0 ≤ address ∧ address + length ≤ m.size) ∧ fault = .transfer direction address m.size := by
  unfold require at h
  split at h
  case isTrue => cases h
  case isFalse hout => exact ⟨hout, (Except.error.inj h).symm⟩

/-- A transfer that looks at its range, and at nothing else, is made if the range lies inside memory. -/
theorem transfer_eq_ok_iff :
    (m.require direction address length >>= fun _ => Except.ok v) = .ok w ↔
      (0 ≤ address ∧ address + length ≤ m.size) ∧ w = v := by
  cases hr : m.require direction address length with
  | error fault => exact ⟨fun h => (nomatch h), fun h => absurd h.1 (require_eq_error hr).1⟩
  | ok u =>
    have hrange := require_eq_ok_iff.1 hr
    exact ⟨fun h => ⟨hrange, (Except.ok.inj h).symm⟩, fun h => congrArg Except.ok h.2.symm⟩

/-- If it is not made, the fault is that of its address. -/
theorem transfer_eq_error (h : (m.require direction address length >>= fun _ => Except.ok v) = .error fault) :
    ¬(0 ≤ address ∧ address + length ≤ m.size) ∧ fault = .transfer direction address m.size := by
  cases hr : m.require direction address length with
  | ok u => rw [hr] at h; cases h
  | error fault' =>
    rw [hr] at h
    obtain rfl : fault' = fault := Except.error.inj h
    exact require_eq_error hr

end Transfers

/-- A byte is written if its address lies inside memory and the value fits. -/
theorem write_eq_ok_iff {m n : Memory} {address value : Int} :
    m.write address value = .ok n ↔
      (0 ≤ address ∧ address + 1 ≤ m.size) ∧ (0 ≤ value ∧ value ≤ 0xFF) ∧
        n = (m.lay address.toNat [UInt8.ofNat value.toNat]).touch address.toNat 1 := by
  unfold write
  cases hr : m.require .write address 1 with
  | error fault => exact ⟨fun h => (nomatch h), fun h => absurd h.1 (require_eq_error hr).1⟩
  | ok u =>
    have hrange := require_eq_ok_iff.1 hr
    change (if 0 ≤ value ∧ value ≤ 0xFF then _ else _) = _ ↔ _
    -- the address is checked before the value
    by_cases hv : 0 ≤ value ∧ value ≤ 0xFF
    · rw [if_pos hv]
      exact ⟨fun h => ⟨hrange, hv, (Except.ok.inj h).symm⟩, fun h => congrArg Except.ok h.2.2.symm⟩
    · rw [if_neg hv]
      exact ⟨fun h => (nomatch h), fun h => absurd h.2.1 hv⟩

/-- A word is written if all its eight addresses lie inside memory. -/
theorem writeQuad_eq_ok_iff {m n : Memory} {address value : Int} :
    m.writeQuad address value = .ok n ↔
      (0 ≤ address ∧ address + wordSize ≤ m.size) ∧
        n = (m.lay address.toNat (Word.toBytes value)).touch address.toNat wordSize :=
  transfer_eq_ok_iff

/-! ### Words of one memory over another -/

/-- The bytes of an aligned word are the bytes of memory there, filled up with zeros. -/
theorem toBytes_wordAt (m : Memory) (base : Nat) : Word.toBytes (m.wordAt base : Nat) = m.window base wordSize :=
  Word.toBytes_ofBytes (m.length_window base wordSize)

@[simp] theorem touched_applyWord (m : Memory) (base value : Int) : (m.applyWord base value).touched = m.touched := by
  unfold applyWord
  split <;> rfl

/-- Words are laid over memory without being recorded. -/
@[simp] theorem touched_applyWords (m : Memory) (words : List (Int × Int)) :
    (m.applyWords words).touched = m.touched := by
  unfold applyWords
  induction words generalizing m with
  | nil => rfl
  | cons w ws ih => rw [List.foldl_cons, ih, touched_applyWord]

/-- Where the word from `base` on lies, the memory that it was read from shows. -/
theorem byteAt_applyWord {m n : Memory} (hsize : m.size = n.size) (base j : Nat) :
    (m.applyWord (base : Nat) (n.wordAt base : Nat)).byteAt j
      = if base ≤ j ∧ j < base + wordSize then n.byteAt j else m.byteAt j := by
  unfold applyWord
  by_cases hb : base < m.size
  · rw [if_pos ⟨Int.natCast_nonneg base, Int.ofNat_lt.2 hb⟩, byteAt_lay, toBytes_wordAt, length_window,
      Int.toNat_natCast]
    by_cases hj : base ≤ j ∧ j < base + wordSize
    · rw [if_pos hj]
      by_cases hin : j < m.size
      · rw [if_pos ⟨hj.1, hj.2, hin⟩, getElem?_window n (by omega), Nat.add_sub_cancel' hj.1]
        rfl
      · -- the word runs over the end of memory, where both memories read zero
        rw [if_neg fun h => hin h.2.2, byteAt_of_size_le (by omega), byteAt_of_size_le (by omega)]
    · rw [if_neg hj, if_neg fun h => hj ⟨h.1, h.2.1⟩]
  · -- the word begins behind the end of memory and is left out; both memories read zero there
    rw [if_neg fun h => hb (Int.ofNat_lt.1 h.2)]
    split
    case isTrue h => rw [byteAt_of_size_le (by omega), byteAt_of_size_le (by omega)]
    case isFalse => rfl

/-- Where one of the words lies, the memory that they were read from shows; their order does not matter. -/
theorem byteAt_applyWords {m n : Memory} (hsize : m.size = n.size) (bases : List Nat) (j : Nat) :
    (m.applyWords (bases.map fun base : Nat => ((base : Int), (n.wordAt base : Int)))).byteAt j
      = if ∃ base ∈ bases, base ≤ j ∧ j < base + wordSize then n.byteAt j else m.byteAt j := by
  unfold applyWords
  -- all words are read from `n`, so a later one may lie over an earlier one
  induction bases generalizing m with
  | nil => rw [if_neg (by simp)]; rfl
  | cons base bases ih =>
    rw [List.map_cons, List.foldl_cons, ih (by rw [size_applyWord, hsize]), byteAt_applyWord hsize]
    by_cases hrest : ∃ b ∈ bases, b ≤ j ∧ j < b + wordSize
    · obtain ⟨b, hb, hj⟩ := hrest
      rw [if_pos ⟨b, hb, hj⟩, if_pos ⟨b, List.mem_cons_of_mem base hb, hj⟩]
    · rw [if_neg hrest]
      by_cases hj : base ≤ j ∧ j < base + wordSize
      · rw [if_pos hj, if_pos ⟨base, List.mem_cons_self, hj⟩]
      · rw [if_neg hj, if_neg]
        rintro ⟨b, hb, hbj⟩
        obtain rfl | hb := List.mem_cons.1 hb
        · exact hj hbj
        · exact hrest ⟨b, hb, hbj⟩

end Memory

end Y86
