import Y86.Proofs.Listing.Tiling

/-!
# What a listing says of its range

The rows of a listing begin where the range does, each one where the row before it ends, and the last one reaches the end
of the range or of memory; and every row shows the bytes of memory and says what they are, an instruction or a byte that
is none (`Memory.Lists`). A start outside memory has no rows (`Memory.listing_covers`).

Rows depend on nothing but memory and their addresses. So a listing can be cut in front of any of its rows, and the row is
the first one of the listing from there on (`Memory.rowsUntil_append`).
-/

namespace Y86

open Text

/-- What a row says of the bytes that it shows. -/
inductive ListingRow.Explains (row : ListingRow) (m : Memory) : Prop where
  /-- They are an instruction. -/
  | instruction {op : Operation} (decoded : Operation.decode m row.address = .ok op)
      (length : row.bytes.length = op.length) (text : row.text = op.text)
  /-- Nothing can be decoded there, and the row shows one byte as data. -/
  | data {fault : Fault} (undecoded : Operation.decode m row.address = .error fault)
      (bytes : row.bytes = [m.byteAt row.address]) (text : row.text = ".byte 0x" ++ Hex.byte (m.byteAt row.address))

namespace Memory

/-- The rows are a listing of the bytes of memory from `start` on, as many as `length`. -/
structure Lists (m : Memory) (start length : Int) (rows : List ListingRow) : Prop where
  /-- Every row takes a byte of the range at least, so the listing comes to an end. -/
  count_le : rows.length ≤ length.toNat
  nil_iff : rows = [] ↔ length ≤ 0
  head : ∀ first : ListingRow, rows.head? = some first → first.address = start
  next : ∀ (i : Nat) (row following : ListingRow), rows[i]? = some row → rows[i + 1]? = some following →
    following.address = row.address + row.bytes.length
  bytes : ∀ row ∈ rows, row.bytes = m.window row.address row.bytes.length ∧
    row.hex = " ".intercalate ((m.window row.address row.bytes.length).map Hex.byteUpper)
  explains : ∀ row ∈ rows, row.Explains m
  room : ∀ row ∈ rows, row.address + row.bytes.length ≤ m.size
  /-- A row begins inside the range, though it may end behind it. -/
  begins : ∀ row ∈ rows, (row.address : Int) < start + length
  reaches : ∀ last : ListingRow, rows.getLast? = some last →
    min (start + length) m.size ≤ last.address + last.bytes.length
  /-- In front of each row, the listing falls apart into two. -/
  cut : ∀ row ∈ rows,
    rows = m.listing start (row.address - start) ++ m.listing row.address (start + length - row.address)

variable {m : Memory} {start stop i : Nat} {row : ListingRow} {rows : List ListingRow}

/-! ### Rows that tile a range -/

theorem Tiled.address_head {first : ListingRow} (h : m.Tiled start rows stop) (hfirst : rows.head? = some first) :
    first.address = start := by
  cases h with
  | nil => cases hfirst
  | cons shows _ =>
    obtain rfl := Option.some.inj hfirst
    exact shows.address_eq

theorem Tiled.address_next {following : ListingRow} (h : m.Tiled start rows stop) (hrow : rows[i]? = some row)
    (hfollowing : rows[i + 1]? = some following) : following.address = row.address + row.bytes.length := by
  induction h generalizing i with
  | nil => cases hrow
  | cons shows rest ih =>
    cases i with
    | succ i => exact ih hrow hfollowing
    | zero =>
      -- the row that follows the first one is the head of the rest
      obtain rfl := Option.some.inj hrow
      rw [shows.address_eq]
      exact rest.address_head (List.head?_eq_getElem?.trans hfollowing)

/-! ### The rows of memory -/

/-- A row shows the instruction at its address, or one byte where there is none. -/
theorem explains_rowAt (m : Memory) (i : Nat) : (m.rowAt i).Explains m := by
  cases hdecode : Operation.decode m i with
  | ok op =>
    have hrow : m.rowAt i = ⟨i, m.byteAt i :: op.operandBytes, op.text⟩ := by
      unfold rowAt
      rw [hdecode]
    -- the bytes of an operation are as many as its length says
    have hcount : (m.byteAt i :: op.operandBytes).length = op.length.toNat := by
      rw [← m.length_window i op.length.toNat]
      exact congrArg List.length (Operation.window_of_decode hdecode)
    have hnonneg : 0 ≤ op.length := by
      rw [(Operation.wellFormed_of_decode hdecode).length]
      exact Int.natCast_nonneg _
    have hdecoded : Operation.decode m (m.rowAt i).address = .ok op := by
      rw [hrow]
      exact hdecode
    refine .instruction hdecoded ?_ ?_ <;> rw [hrow]
    rw [hcount, Int.toNat_of_nonneg hnonneg]
  | error fault =>
    -- what cannot be decoded is a row of one byte
    have hrow : m.rowAt i = ⟨i, [m.byteAt i], ".byte 0x" ++ Hex.byte (m.byteAt i)⟩ := by
      unfold rowAt
      rw [hdecode]
    have hundecoded : Operation.decode m (m.rowAt i).address = .error fault := by
      rw [hrow]
      exact hdecode
    refine .data hundecoded ?_ ?_ <;> rw [hrow]

theorem address_lt_of_mem (h : row ∈ m.rowsUntil stop start) : row.address < stop := by
  fun_induction rowsUntil m stop start with
  | case1 address hin first ih =>
    rcases List.mem_cons.1 h with rfl | h
    · rw [(shows_rowAt hin.2).address_eq]
      exact hin.1
    · exact ih h
  | case2 => cases h

/-- Rows begin further and further on, so there are no more of them than positions. -/
theorem length_rowsUntil_le (m : Memory) (stop start : Nat) : (m.rowsUntil stop start).length ≤ stop - start := by
  fun_induction rowsUntil m stop start with
  | case1 address hin first ih =>
    have hpos : 0 < first.bytes.length := m.length_rowAt_pos address
    rw [List.length_cons]
    omega
  | case2 => exact Nat.zero_le _

/-- The rows from a position on are not in front of it. -/
theorem le_address_of_mem (h : row ∈ m.rowsUntil stop start) : start ≤ row.address := by
  obtain ⟨last, htiled, -⟩ := m.exists_tiled stop start
  exact (htiled.shows_of_mem h).2.1

/-- In front of a row, the rows of a range are those of two ranges. -/
theorem rowsUntil_append (h : row ∈ m.rowsUntil stop start) :
    m.rowsUntil stop start = m.rowsUntil row.address start ++ m.rowsUntil stop row.address := by
  fun_induction rowsUntil m stop start with
  | case1 address hin first ih =>
    rcases List.mem_cons.1 h with rfl | h
    · -- nothing is in front of the first row
      rw [(shows_rowAt hin.2).address_eq, rowsUntil.eq_def m address address, dif_neg (by omega), List.nil_append,
        rowsUntil.eq_def m stop address, dif_pos hin]
    · have hpos : 0 < first.bytes.length := m.length_rowAt_pos address
      have hle := le_address_of_mem h
      rw [rowsUntil.eq_def m row.address address, dif_pos ⟨by omega, hin.2⟩, List.cons_append, ← ih h]
  | case2 => cases h

/-! ### Listings -/

theorem listing_eq_rowsUntil {start : Int} (h : 0 ≤ start) (length : Int) :
    m.listing start length = m.rowsUntil (start + length).toNat start.toNat := if_pos h

/-- A listing that begins outside of memory has no rows. -/
theorem listing_of_outside {start : Int} (h : ¬(0 ≤ start ∧ start < m.size)) (length : Int) :
    m.listing start length = [] := by
  unfold listing
  split
  case isTrue hlo =>
    rw [rowsUntil.eq_def, dif_neg]
    omega
  case isFalse => rfl

/-- A listing that begins inside memory covers its range. -/
theorem lists_listing {start : Int} (hlo : 0 ≤ start) (hhi : start < m.size) (length : Int) :
    m.Lists start length (m.listing start length) := by
  rw [listing_eq_rowsUntil hlo]
  obtain ⟨a, rfl⟩ := Int.eq_ofNat_of_zero_le hlo
  rw [Int.toNat_natCast]
  have ha : a < m.size := Int.ofNat_lt.1 hhi
  -- the rows are a tiling from the start to a place behind the range, and the clauses are read off it
  obtain ⟨stop, htiled, hreach, hroom⟩ := m.exists_tiled (a + length).toNat a
  have hrow : ∀ row ∈ m.rowsUntil (a + length).toNat a, row.Shows m row.address ∧ row.Explains m := by
    intro row hrow
    refine ⟨(htiled.shows_of_mem hrow).1, ?_⟩
    rw [eq_rowAt_of_mem hrow]
    exact m.explains_rowAt row.address
  exact
    { count_le := by
        have hcount := m.length_rowsUntil_le (a + length).toNat a
        omega
      nil_iff := by
        rw [rowsUntil.eq_def]
        split
        case isTrue hin => exact iff_of_false (List.cons_ne_nil _ _) (by omega)
        case isFalse hout => exact iff_of_true rfl (by omega)
      head := fun first hfirst => congrArg _ (htiled.address_head hfirst)
      next := fun i row following => htiled.address_next
      bytes := by
        intro row hmem
        have hbytes := (hrow row hmem).1.bytes_eq
        exact ⟨hbytes, by rw [← hbytes]; rfl⟩
      explains := fun row hmem => (hrow row hmem).2
      room := fun row hmem => (hrow row hmem).1.room
      begins := by
        intro row hmem
        have hlt := address_lt_of_mem hmem
        omega
      reaches := by
        intro last hlast
        -- the tiling ends with the last row
        rw [htiled.stop_eq hlast] at hreach
        have hle := (htiled.shows_of_mem (List.mem_of_getLast? hlast)).2.1
        omega
      cut := by
        intro row hmem
        -- the range is cut at the row, so both listings end at the same place
        have hfront : (a : Int) + (row.address - a) = row.address := by omega
        have hback : (row.address : Int) + (a + length - row.address) = a + length := by omega
        rw [listing_eq_rowsUntil hlo, listing_eq_rowsUntil (Int.natCast_nonneg _), hfront, hback]
        exact rowsUntil_append hmem }

/-- **A listing covers its range.** From a start inside memory, for any length, the rows tile the range, each of them shows
memory and says what it is, and the listing can be cut in front of any row. From a start outside memory there is no
row. -/
theorem listing_covers (m : Memory) (start length : Int) :
    (0 ≤ start → start < m.size → m.Lists start length (m.listing start length)) ∧
      (¬(0 ≤ start ∧ start < m.size) → m.listing start length = []) :=
  ⟨fun hlo hhi => lists_listing hlo hhi length, fun hout => listing_of_outside hout length⟩

/-- A byte that is no instruction, an instruction that the end of the range cuts, and one that the end of memory cuts;
and two starts outside memory. -/
theorem listing_covers_cut_instructions :
    let m : Memory := ⟨⟨#[0xF0, 0x60, 0x01, 0x20]⟩, [], by decide⟩
    m.listing 0 2 = [⟨0, [0xF0], ".byte 0xf0"⟩, ⟨1, [0x60, 0x01], "addq %rax, %rcx"⟩] ∧ m.Lists 0 2 (m.listing 0 2) ∧
      m.listing 3 9 = [⟨3, [0x20], ".byte 0x20"⟩] ∧ m.Lists 3 9 (m.listing 3 9) ∧
      m.listing (-1) 9 = [] ∧ m.listing 4 9 = [] := by
  intro m
  exact ⟨by decide +kernel, (listing_covers m 0 2).1 (by decide) (by decide), by decide +kernel,
    (listing_covers m 3 9).1 (by decide) (by decide), (listing_covers m (-1) 9).2 (by decide),
    (listing_covers m 4 9).2 (by decide)⟩

end Memory

end Y86
