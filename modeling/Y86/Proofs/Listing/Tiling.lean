import Y86.Listing
import Y86.Proofs.Memory.View
import Y86.Proofs.Operation.Decode

/-!
# The rows of a listing tile its range

A row shows the bytes of memory from its address on, at least one, and none behind the end of memory
(`ListingRow.Shows`). This holds of a row at any position inside memory, whether an instruction stands there or not
(`Memory.shows_rowAt`). In a listing each row begins where the one before it ends (`Memory.Tiled`), and the last one
reaches the end of the range or of memory (`Memory.exists_tiled`). So a position of the tiled range belongs to a row,
and all rows over it show the same byte.
-/

namespace Y86

/-- A row shows the bytes of memory from an address on. -/
structure ListingRow.Shows (row : ListingRow) (m : Memory) (address : Nat) : Prop where
  address_eq : row.address = address
  bytes_eq : row.bytes = m.window address row.bytes.length
  pos : 0 < row.bytes.length
  room : address + row.bytes.length ≤ m.size

theorem ListingRow.Shows.getElem? {row : ListingRow} {m : Memory} {address i : Nat} (h : row.Shows m address)
    (hlo : address ≤ i) (hhi : i < address + row.bytes.length) : row.bytes[i - address]? = some (m.byteAt i) := by
  rw [h.bytes_eq, m.getElem?_window (by omega), Nat.add_sub_cancel' hlo]

namespace Memory

/-- Rows without a gap between them show the bytes of memory from one position up to another. -/
inductive Tiled (m : Memory) : Nat → List ListingRow → Nat → Prop
  | nil (stop : Nat) : Tiled m stop [] stop
  | cons {start stop : Nat} {row : ListingRow} {rows : List ListingRow} (shows : row.Shows m start)
      (rest : Tiled m (start + row.bytes.length) rows stop) : Tiled m start (row :: rows) stop

variable {m : Memory} {start stop i : Nat} {row : ListingRow} {rows : List ListingRow}

/-! ### One row -/

/-- A row at any position inside memory shows the bytes there. -/
theorem shows_rowAt (h : i < m.size) : (m.rowAt i).Shows m i := by
  unfold rowAt
  dsimp only
  split
  case h_1 op hop =>
    have hroom := (Operation.room_of_decode hop).2.2
    have hbytes : m.byteAt i :: op.operandBytes = m.window i op.length.toNat := Operation.window_of_decode hop
    have hcount : (m.byteAt i :: op.operandBytes).length = op.length.toNat := by
      rw [hbytes, m.length_window]
    exact
      { address_eq := rfl
        bytes_eq := by rw [hcount]; exact hbytes
        pos := Nat.zero_lt_succ _
        room := by rw [hcount]; omega }
  case h_2 => exact ⟨rfl, rfl, Nat.one_pos, h⟩

/-! ### The rows of a range -/

theorem Tiled.le (h : m.Tiled start rows stop) : start ≤ stop := by
  induction h with
  | nil => exact Nat.le_refl _
  | cons shows _ ih => exact Nat.le_trans (Nat.le_add_right _ _) ih

/-- Every row shows memory, inside the range. -/
theorem Tiled.shows_of_mem (h : m.Tiled start rows stop) (hrow : row ∈ rows) :
    row.Shows m row.address ∧ start ≤ row.address ∧ row.address + row.bytes.length ≤ stop := by
  induction h with
  | nil => cases hrow
  | cons shows rest ih =>
    rcases List.mem_cons.1 hrow with rfl | hrow
    · rw [shows.address_eq]
      exact ⟨shows, Nat.le_refl _, rest.le⟩
    · obtain ⟨hshows, hlo, hhi⟩ := ih hrow
      exact ⟨hshows, Nat.le_trans (Nat.le_add_right _ _) hlo, hhi⟩

/-- Every position of the range belongs to a row. -/
theorem Tiled.exists_row (h : m.Tiled start rows stop) (hlo : start ≤ i) (hhi : i < stop) :
    ∃ row ∈ rows, row.address ≤ i ∧ i < row.address + row.bytes.length := by
  induction h with
  | nil => omega
  | @cons start stop row rows shows rest ih =>
    by_cases hfirst : i < start + row.bytes.length
    · exact ⟨row, List.mem_cons_self, by rwa [shows.address_eq], by rwa [shows.address_eq]⟩
    · obtain ⟨later, hlater, hrange⟩ := ih (Nat.le_of_not_lt hfirst) hhi
      exact ⟨later, List.mem_cons_of_mem row hlater, hrange⟩

/-- The range ends with the last row. -/
theorem Tiled.stop_eq (h : m.Tiled start rows stop) (hlast : rows.getLast? = some row) :
    stop = row.address + row.bytes.length := by
  induction h with
  | nil => cases hlast
  | @cons start stop first rows shows rest ih =>
    cases rest with
    | nil =>
      obtain rfl : first = row := Option.some.inj hlast
      rw [shows.address_eq]
    | cons _ _ =>
      rw [List.getLast?_cons_cons] at hlast
      exact ih hlast

/-- All rows are those of their positions. -/
theorem eq_rowAt_of_mem (h : row ∈ m.rowsUntil stop start) : row = m.rowAt row.address := by
  fun_induction rowsUntil m stop start with
  | case1 address hin row' ih =>
    rcases List.mem_cons.1 h with rfl | h
    · rw [(shows_rowAt hin.2).address_eq]
    · exact ih h
  | case2 => cases h

/-- The rows from a position on reach the end of the range or of memory, and none runs over the end of memory. -/
theorem exists_tiled (m : Memory) (stop start : Nat) :
    ∃ last, m.Tiled start (m.rowsUntil stop start) last ∧ min stop m.size ≤ max start last ∧
      (start ≤ m.size → last ≤ m.size) := by
  fun_induction rowsUntil m stop start with
  | case1 address h row ih =>
    obtain ⟨last, htiled, hreach, hroom⟩ := ih
    have hshows := shows_rowAt h.2
    have hle := htiled.le
    refine ⟨last, .cons hshows htiled, ?_, fun _ => hroom hshows.room⟩
    omega
  | case2 address h => exact ⟨address, .nil address, by omega, fun hle => hle⟩

end Memory

end Y86
