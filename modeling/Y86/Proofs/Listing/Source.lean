import Y86.Proofs.Listing.Tiling
import Y86.Proofs.ObjectCode.Image
import Y86.Proofs.Text.Lines

/-!
# A listing is a program text

The rows of a listing can be written down as the lines of a program text: the address, a colon, the bytes, and the
instruction behind a bar (`ListingRow.source`). Such a text is loaded, and gives back the memory that was listed, on
the listed range (`Memory.load_listing`).

The bar starts a comment, so nothing that stands behind it matters but line ends, and the text of a row has none
(`Memory.oneLine_text`). In front of the bar the loader finds the digits of just the bytes (`ListingRow.ofLine?_line`).
The rows tile the range, so no record lies over another, and the image is memory there.
-/

namespace Y86

open Text

namespace ListingRow

/-- A row as a line of a program text, with an address of at least `width` characters. -/
def line (width : Nat) (row : ListingRow) : String :=
  Hex.markedField width row.address ++ ": " ++ row.hex ++ " | " ++ row.text

/-- Rows as a program text. -/
def source (width : Nat) (rows : List ListingRow) : String := "\n".intercalate (rows.map (line width))

/-- The bytes of a row, as digits of a program text. -/
def digits (row : ListingRow) : List Char := (row.bytes.map fun b => (Hex.byteUpper b).toList).flatten

/-- The record that a row holds. -/
def record (row : ListingRow) : ObjectRecord := ⟨row.address, row.digits⟩

variable {row : ListingRow} {m : Memory} {width i : Nat}

/-! ### The record of a row -/

/-- A row is read as a record of its own bytes. -/
theorem bytes_record (row : ListingRow) : row.record.bytes = row.bytes := by
  unfold ObjectRecord.bytes record digits
  induction row.bytes with
  | nil => rfl
  | cons b bs ih =>
    obtain ⟨high, low, hpair, -, -, hvalue⟩ := Hex.byteUpper_spec b
    rw [List.map_cons, List.flatten_cons, hpair]
    change UInt8.ofNat (Hex.value [high, low]) :: ObjectRecord.bytesOf (List.flatten _) = b :: bs
    rw [hvalue, UInt8.ofNat_toNat]
    exact congrArg (b :: ·) ih

/-- It covers the positions that the row shows. -/
theorem covers_record_iff : row.record.Covers i ↔ row.address ≤ i ∧ i < row.address + row.bytes.length := by
  rw [← bytes_record row, ObjectRecord.length_bytes]
  exact Iff.rfl

/-- And it fits if the row lies inside memory. -/
theorem fits_record_iff {size : Nat} : row.record.Fits size ↔ row.address + row.bytes.length ≤ size := by
  rw [← bytes_record row, ObjectRecord.length_bytes]
  exact Iff.rfl

/-- The record gives the byte of memory that the row shows. -/
theorem pairAt_record (h : row.Shows m row.address) (hi : row.record.Covers i) :
    row.record.pairAt i = (m.byteAt i).toNat := by
  have hrange := covers_record_iff.1 hi
  rw [← ObjectRecord.toNat_byte_of_covers hi, bytes_record]
  change (row.bytes[i - row.address]?.getD 0).toNat = _
  rw [h.getElem? hrange.1 hrange.2, Option.getD_some]

/-! ### The line of a row -/

/-- The bytes of a row are words of two digits with blanks between them. -/
theorem toList_hex (row : ListingRow) :
    row.hex.toList = List.intercalate [' '] (row.bytes.map fun b => (Hex.byteUpper b).toList) := by
  unfold hex
  rw [String.toList_intercalate, List.map_map]
  rfl

/-- The bytes are words of two digits. -/
theorem pair_of_mem {w : List Char} (h : w ∈ row.bytes.map fun b => (Hex.byteUpper b).toList) :
    w.length = 2 ∧ ∀ c ∈ w, Hex.isDigit c = true := by
  obtain ⟨b, -, rfl⟩ := List.mem_map.1 h
  obtain ⟨high, low, hpair, hhigh, hlow, -⟩ := Hex.byteUpper_spec b
  rw [hpair]
  exact ⟨rfl, List.forall_mem_cons.2 ⟨hhigh, List.forall_mem_singleton.2 hlow⟩⟩

theorem ne_nil_of_mem {w : List Char} (h : w ∈ row.bytes.map fun b => (Hex.byteUpper b).toList) : w ≠ [] :=
  List.ne_nil_of_length_pos (by rw [(pair_of_mem h).1]; exact Nat.two_pos)

/-- So there are only digits and blanks in them. -/
theorem mem_hex {c : Char} (h : c ∈ row.hex.toList) : c = ' ' ∨ Hex.isDigit c = true := by
  rw [toList_hex] at h
  rcases mem_intercalate h with hspace | ⟨w, hw, hc⟩
  · exact Or.inl (List.mem_singleton.1 hspace)
  · exact Or.inr ((pair_of_mem hw).2 c hc)

/-- The loader joins the digits of all bytes. -/
theorem joinWords_hex (row : ListingRow) :
    ObjectRecord.joinWords (ObjectRecord.digitWords (' ' :: row.hex.toList)) = row.digits := by
  have hall : ∀ c ∈ ' ' :: row.hex.toList, (Hex.isDigit c || isBlank c) = true := by
    intro c hc
    rcases List.mem_cons.1 hc with rfl | hc
    · rfl
    · rcases mem_hex hc with rfl | hdigit
      · rfl
      · rw [hdigit, Bool.true_or]
  have hwords : words row.hex.toList = row.bytes.map fun b => (Hex.byteUpper b).toList := by
    rw [toList_hex]
    exact words_intercalate fun w hw =>
      ⟨ne_nil_of_mem hw, fun c hc => Hex.isBlank_of_isDigit ((pair_of_mem hw).2 c hc)⟩
  unfold ObjectRecord.digitWords
  rw [List.takeWhile_eq_self_iff.2 hall, words_cons_of_isBlank (by decide), hwords]
  -- every word has two digits, so none ends the bytes
  refine ObjectRecord.joinWords_eq_flatten fun w hw => ?_
  rw [(pair_of_mem (List.mem_of_mem_tail hw)).1]

/-- The digits of the address. -/
def addressDigits (width : Nat) (row : ListingRow) : List Char := Hex.zeroFill (width - 2) (Hex.digits row.address)

/-- What stands in front of the bar, without the space there. -/
def front (width : Nat) (row : ListingRow) : List Char :=
  '0' :: 'x' :: (row.addressDigits width ++ ':' :: ' ' :: row.hex.toList)

/-- A line is its front, a bar, and the text of the instruction. -/
theorem toList_line (width : Nat) (row : ListingRow) :
    (row.line width).toList = row.front width ++ ' ' :: '|' :: ' ' :: row.text.toList := by
  have hmark : (Hex.markedField width row.address).toList = '0' :: 'x' :: row.addressDigits width := by
    unfold Hex.markedField
    rw [if_neg (Int.not_lt.2 (Int.natCast_nonneg _)), String.toList_append, String.toList_ofList, String.toList_ofList]
    rfl
  unfold line front
  simp only [String.toList_append, hmark, List.cons_append, List.append_assoc]
  rfl

/-- The front of a line has no bar in it. -/
theorem mem_front {c : Char} (h : c ∈ row.front width) : Hex.isDigit c = true ∨ c = 'x' ∨ c = ':' ∨ c = ' ' := by
  unfold front at h
  simp only [List.mem_cons, List.mem_append] at h
  rcases h with rfl | rfl | hdigit | rfl | rfl | hhex
  · exact Or.inl rfl
  · exact Or.inr (Or.inl rfl)
  · exact Or.inl (Hex.isDigit_of_mem_zeroFill hdigit)
  · exact Or.inr (Or.inr (Or.inl rfl))
  · exact Or.inr (Or.inr (Or.inr rfl))
  · exact (mem_hex hhex).elim (fun hspace => Or.inr (Or.inr (Or.inr hspace))) Or.inl

/-- A row has bytes, so it shows some. -/
theorem hex_ne_nil (hne : row.bytes ≠ []) : row.hex.toList ≠ [] := by
  rw [toList_hex]
  exact intercalate_ne_nil (by rwa [Ne, List.map_eq_nil_iff]) fun w hw => ne_nil_of_mem hw

/-- In front of the bar, a line ends with a digit of the last byte. -/
theorem isDigit_of_mem_getLast? (hne : row.bytes ≠ []) {c : Char} (h : c ∈ (row.front width).getLast?) :
    Hex.isDigit c = true := by
  have hsplit : row.front width = ('0' :: 'x' :: (row.addressDigits width ++ [':', ' '])) ++ row.hex.toList := by
    unfold front
    simp only [List.cons_append, List.append_assoc, List.nil_append]
  rw [hsplit, getLast?_append_right _ (hex_ne_nil hne), toList_hex] at h
  obtain ⟨w, hw, hcw⟩ := mem_getLast?_intercalate h fun w hw => ne_nil_of_mem hw
  exact (pair_of_mem hw).2 c hcw

/-- The bar and all behind it are a comment. -/
theorem uncomment_line (hne : row.bytes ≠ []) : ObjectRecord.uncomment (row.line width).toList = row.front width := by
  -- no remark and no bar stands in front of the bar of the row, so the line is cut there
  have hnone : ∀ c ∈ row.front width ++ [' '], (c != '#') = true ∧ (c != '|') = true := by
    intro c hc
    rcases List.mem_append.1 hc with hc | hc
    · rcases mem_front hc with hdigit | rfl | rfl | rfl
      · simp only [bne_iff_ne]
        constructor <;> rintro rfl <;> cases hdigit
      all_goals exact ⟨rfl, rfl⟩
    · rw [List.mem_singleton.1 hc]
      exact ⟨rfl, rfl⟩
  have hline : (row.line width).toList = (row.front width ++ [' ']) ++ '|' :: ' ' :: row.text.toList := by
    rw [toList_line, List.append_assoc]
    rfl
  unfold ObjectRecord.uncomment
  rw [hline, List.takeWhile_append_of_pos fun c hc => (hnone c hc).1, List.takeWhile_cons_of_pos rfl,
    List.takeWhile_append_of_pos fun c hc => (hnone c hc).2, List.takeWhile_cons_of_neg (by decide), List.append_nil]
  exact trim_append_blank rfl rfl fun c hc => Hex.isBlank_of_isDigit (isDigit_of_mem_getLast? hne hc)

/-- The loader finds the record of a row on its line. -/
theorem ofLine?_line (width : Nat) (hne : row.bytes ≠ []) :
    ObjectRecord.ofLine? (row.line width).toList = some row.record := by
  have hdigits : row.digits ≠ [] := by
    intro hnil
    apply hne
    rw [← bytes_record row, record, hnil]
    rfl
  have haddress : row.addressDigits width ≠ [] := by
    intro hnil
    exact Nat.toDigits_ne_nil (List.append_eq_nil_iff.1 hnil).2
  -- the address, the colon and the bytes are the parts that a line is read by
  refine ObjectRecord.ofLine?_eq_some_iff.2 ⟨row.addressDigits width, ' ' :: row.hex.toList, uncomment_line hne,
    haddress, fun c hc => Hex.isDigit_of_mem_zeroFill hc, ?_, ?_⟩
  · rwa [joinWords_hex]
  · rw [joinWords_hex, addressDigits, Hex.value_zeroFill_digits]
    rfl

/-- A line is one line if the text of its row is. -/
theorem oneLine_line (width : Nat) (h : OneLine row.text.toList) : OneLine (row.line width).toList := by
  have hbar : OneLine (' ' :: '|' :: ' ' :: []) := by decide
  have hfront : OneLine (row.front width) := by
    intro c hc
    rcases mem_front hc with hdigit | rfl | rfl | rfl
    · exact oneLine_of_isDigit (List.forall_mem_singleton.2 hdigit) c List.mem_cons_self
    all_goals rfl
  rw [toList_line]
  exact hfront.append (hbar.append h)

/-- The records of a text of rows are those of the rows. -/
theorem recordsIn_source {rows : List ListingRow} (width : Nat)
    (h : ∀ row ∈ rows, row.bytes ≠ [] ∧ OneLine row.text.toList) :
    Program.recordsIn (source width rows) = rows.map record := by
  have hlines : lines (source width rows).toList = rows.map fun row => (row.line width).toList := by
    unfold source
    rw [String.toList_intercalate, List.map_map]
    refine lines_intercalate fun l hl => ?_
    obtain ⟨row, hrow, rfl⟩ := List.mem_map.1 hl
    refine ⟨oneLine_line width (h row hrow).2, ?_⟩
    dsimp only [Function.comp_apply]
    rw [toList_line]
    exact List.cons_ne_nil _ _
  unfold Program.recordsIn
  rw [hlines]
  -- row by row, each line is the record of its row
  clear hlines
  induction rows with
  | nil => rfl
  | cons row rows ih =>
    obtain ⟨hrow, hrows⟩ := List.forall_mem_cons.1 h
    rw [List.map_cons, List.filterMap_cons_some (ofLine?_line width hrow.1), ih hrows, List.map_cons]

end ListingRow

/-! ### The texts of rows -/

namespace Operation

/-- A mnemonic with or without the letters of a condition. -/
theorem oneLine_conditional (op : Operation) {plain stem : String} (hplain : OneLine plain.toList)
    (hstem : OneLine stem.toList) : OneLine (if op.ifun = 0 then plain else stem ++ op.suffix).toList := by
  have hsuffix : OneLine op.suffix.toList := by
    unfold suffix
    cases Condition.ofCode? op.ifun with
    | none => decide
    | some c => cases c <;> decide
  split
  · exact hplain
  · rw [String.toList_append]
    exact hstem.append hsuffix

theorem oneLine_mnemonic (op : Operation) : OneLine op.mnemonic.toList := by
  unfold mnemonic
  cases op.kind
  -- only these three classes choose the mnemonic by the function code
  case rrmovq => exact op.oneLine_conditional (by decide) (by decide)
  case jxx => exact op.oneLine_conditional (by decide) (by decide)
  case opq =>
    dsimp only
    cases Arithmetic.ofCode? op.ifun with
    | none => decide
    | some f => cases f <;> decide
  all_goals
    dsimp only
    decide

theorem oneLine_registerOperand (field : Option Register) : OneLine (registerOperand field).toList := by
  cases field with
  | none => decide
  | some r => cases r <;> decide

/-- No operand breaks a line. -/
theorem oneLine_memoryOperand (op : Operation) : OneLine op.memoryOperand.toList := by
  unfold memoryOperand
  rw [String.toList_append, String.toList_append, String.toList_append]
  exact (((oneLine_toString op.valC).append (by decide)).append (oneLine_registerOperand op.rB)).append (by decide)

theorem oneLine_operands (op : Operation) : ∀ operand ∈ op.operands, OneLine operand.toList := by
  have hfirst := oneLine_registerOperand op.rA
  have hsecond := oneLine_registerOperand op.rB
  have hmemory := op.oneLine_memoryOperand
  -- a constant is written in digits behind its prefix
  have himmediate : OneLine ("$" ++ toString op.valC).toList := by
    rw [String.toList_append]
    exact OneLine.append (by decide) (oneLine_toString op.valC)
  have hdestination : OneLine ("0x" ++ Hex.field 0 op.valC).toList := by
    rw [String.toList_append]
    exact OneLine.append (by decide) (oneLine_field 0 op.valC)
  unfold operands
  cases op.kind <;>
    simp only [List.forall_mem_cons, List.not_mem_nil, IsEmpty.forall_iff, implies_true, hfirst, hsecond, hmemory,
      himmediate, hdestination, and_self]

/-- Nor does any text, so each row is one line. -/
theorem oneLine_text (op : Operation) : OneLine op.text.toList := by
  unfold text
  split
  · exact op.oneLine_mnemonic
  · rw [String.toList_append, String.toList_append, String.toList_intercalate]
    refine (op.oneLine_mnemonic.append (by decide)).append (OneLine.intercalate (by decide) fun l hl => ?_)
    obtain ⟨operand, hoperand, rfl⟩ := List.mem_map.1 hl
    exact op.oneLine_operands operand hoperand

end Operation

namespace Memory

theorem oneLine_text (m : Memory) (address : Nat) : OneLine (m.rowAt address).text.toList := by
  unfold rowAt
  dsimp only
  split
  case h_1 op _ => exact op.oneLine_text
  case h_2 =>
    have hbyte : OneLine (Hex.byteDigits (m.byteAt address)) :=
      oneLine_of_isDigit fun c hc => Hex.isDigit_of_mem_zeroFill hc
    unfold Hex.byte
    rw [String.toList_append, String.toList_ofList, String.toList_ofList]
    exact OneLine.append (by decide) hbyte

/-! ### Loading a listing -/

variable {m : Memory} {start stop : Nat} {rows : List ListingRow}

/-- The image of records that tile a range is memory there, and zero elsewhere. -/
theorem Tiled.toNat_shownOver (h : m.Tiled start rows stop) (i : Nat) :
    Program.shownOver (rows.map ListingRow.record) i 0 = if start ≤ i ∧ i < stop then (m.byteAt i).toNat else 0 := by
  unfold Program.shownOver
  cases hlast : Program.lastOver (rows.map ListingRow.record) i with
  | some r =>
    -- the last record over the position is that of a row, and the row shows memory
    obtain ⟨hmem, hcovers⟩ := Program.mem_of_lastOver hlast
    obtain ⟨row, hrow, rfl⟩ := List.mem_map.1 hmem
    obtain ⟨hshows, hlo, hhi⟩ := h.shows_of_mem hrow
    have hrange := ListingRow.covers_record_iff.1 hcovers
    rw [if_pos ⟨by omega, by omega⟩]
    exact ListingRow.pairAt_record hshows hcovers
  | none =>
    -- outside the range, since inside it every position belongs to a row
    rw [if_neg]
    · rfl
    · rintro ⟨hlo, hhi⟩
      obtain ⟨row, hrow, hrange⟩ := h.exists_row hlo hhi
      exact Program.lastOver_eq_none_iff.1 hlast _ (List.mem_map_of_mem hrow) (ListingRow.covers_record_iff.2 hrange)

/-- Rows that tile a range inside memory are loaded, if their texts are on one line each. -/
theorem Tiled.exists_load (h : m.Tiled start rows stop) (hne : rows ≠ []) (hroom : stop ≤ m.size)
    (htexts : ∀ row ∈ rows, OneLine row.text.toList) (width : Nat) :
    ∃ p, Program.load (.zeros m.size m.size_pos) (ListingRow.source width rows) = .ok p ∧ p.memory.size = m.size ∧
      p.entry = start ∧ p.records = rows.length ∧
      ∀ i, p.memory.byteAt i = if start ≤ i ∧ i < stop then m.byteAt i else 0 := by
  have hrecords : Program.recordsIn (ListingRow.source width rows) = rows.map ListingRow.record :=
    ListingRow.recordsIn_source width fun row hrow =>
      ⟨List.length_pos_iff.1 (h.shows_of_mem hrow).1.pos, htexts row hrow⟩
  -- a row of a tiling lies inside the memory it is taken from
  have hfits : ∀ r ∈ Program.recordsIn (ListingRow.source width rows), r.Fits m.size := by
    intro r hr
    rw [hrecords] at hr
    obtain ⟨row, hrow, rfl⟩ := List.mem_map.1 hr
    exact ListingRow.fits_record_iff.2 (h.shows_of_mem hrow).1.room
  obtain ⟨p, hload, himage⟩ := Program.exists_load_of_fits m.size_pos hfits
  rw [hrecords] at himage
  refine ⟨p, hload, himage.size_eq, ?_, by rw [himage.records_eq, List.length_map], fun i => ?_⟩
  · -- the first row has the lowest address
    obtain ⟨r, hr, hentry⟩ := himage.entry_mem (by rwa [Ne, List.map_eq_nil_iff])
    obtain ⟨row, hrow, rfl⟩ := List.mem_map.1 hr
    have hlo := (h.shows_of_mem hrow).2.1
    have hle : p.entry ≤ start := by
      cases h with
      | nil => exact absurd rfl hne
      | @cons _ _ first rest shows _ =>
        rw [← shows.address_eq]
        exact himage.entry_le first.record (List.mem_map_of_mem List.mem_cons_self)
    rw [hentry] at hle ⊢
    exact Nat.le_antisymm hle hlo
  · -- rows of a tiling do not overlap, so what is laid over a position is the row that holds it
    apply UInt8.toNat.inj
    rw [himage.byte, h.toNat_shownOver]
    split <;> rfl

/-- **A listing reloads.** The rows of a range, written as the lines of a program text, are loaded into a memory of
the same size. The entry point is the start of the range, and there is one record for each row. The image is the memory
that was listed up to the end of the last row, and zero elsewhere; so the listing of all memory gives back all of it. -/
theorem load_listing (m : Memory) (width : Nat) {start length : Int} (hlo : 0 ≤ start) (hhi : start < m.size)
    (hlength : 0 < length) :
    ∃ p last, Program.load (.zeros m.size m.size_pos) (ListingRow.source width (m.listing start length)) = .ok p ∧
      (m.listing start length).getLast? = some last ∧
      p.memory.size = m.size ∧ (p.entry : Int) = start ∧ p.records = (m.listing start length).length ∧
      (∀ i : Nat, p.memory.byteAt i
        = if start ≤ i ∧ i < last.address + last.bytes.length then m.byteAt i else 0) ∧
      (start = 0 → length = m.size → p.memory.bytes = m.bytes) := by
  obtain ⟨a, rfl⟩ := Int.eq_ofNat_of_zero_le hlo
  have ha : a < m.size := Int.ofNat_lt.1 hhi
  have hrows : m.listing a length = m.rowsUntil (a + length).toNat a := if_pos hlo
  have htexts : ∀ row ∈ m.listing a length, OneLine row.text.toList := by
    intro row hrow
    rw [hrows] at hrow
    rw [eq_rowAt_of_mem hrow]
    exact m.oneLine_text row.address
  obtain ⟨stop, htiled, hreach, hroom⟩ := m.exists_tiled (a + length).toNat a
  rw [← hrows] at htiled
  have hne : m.listing a length ≠ [] := by
    intro hnil
    rw [hnil] at htiled
    -- without rows the range would end where it starts, and the range is not empty
    cases htiled
    omega
  obtain ⟨p, hload, hsize, hentry, hcount, hbyte⟩ := htiled.exists_load hne (hroom ha.le) htexts width
  have hlast := List.getLast?_eq_some_getLast hne
  refine ⟨p, _, hload, hlast, hsize, congrArg _ hentry, hcount, fun i => ?_, fun hstart hall => ?_⟩
  · rw [hbyte, ← htiled.stop_eq hlast]
    exact if_congr (and_congr_left' Int.ofNat_le.symm) rfl rfl
  · refine bytes_ext hsize fun j hj => ?_
    rw [hbyte, if_pos ⟨by omega, by omega⟩]

/-- A listing that begins behind a `nop`, with a byte that is no instruction and an instruction that the end of the
range cuts: the image has both in full, and not the `nop`. -/
theorem load_listing_cut_range :
    let m : Memory := ⟨⟨#[0x10, 0xF0, 0x60, 0x01, 0x00]⟩, [], by decide⟩
    m.listing 1 2 = [⟨1, [0xF0], ".byte 0xf0"⟩, ⟨2, [0x60, 0x01], "addq %rax, %rcx"⟩] ∧
    ListingRow.source 5 (m.listing 1 2) = "0x001: F0 | .byte 0xf0\n0x002: 60 01 | addq %rax, %rcx" ∧
    ∃ p, Program.load (.zeros 5 (by decide)) (ListingRow.source 5 (m.listing 1 2)) = .ok p ∧ p.entry = 1 ∧
      p.records = 2 ∧ ∀ i : Nat, p.memory.byteAt i = if 1 ≤ i ∧ i < 4 then m.byteAt i else 0 := by
  intro m
  have hrows : m.listing 1 2 = [⟨1, [0xF0], ".byte 0xf0"⟩, ⟨2, [0x60, 0x01], "addq %rax, %rcx"⟩] := by decide +kernel
  -- the row at 2 is not cut at the end of the range
  obtain ⟨p, last, hload, hlast, -, hentry, hcount, hbyte, -⟩ :=
    load_listing m 5 (show (0 : Int) ≤ 1 by decide) (by decide) (show (0 : Int) < 2 by decide)
  refine ⟨hrows, by rw [hrows]; decide +kernel, p, hload, Int.ofNat_inj.1 hentry, ?_, fun i => ?_⟩
  · rw [hcount, hrows]
    rfl
  · rw [hrows] at hlast
    cases hlast
    rw [hbyte]
    exact if_congr (and_congr_left' Int.ofNat_le) rfl rfl

end Memory

end Y86
