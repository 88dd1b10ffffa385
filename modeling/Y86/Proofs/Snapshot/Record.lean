import Mathlib.Data.List.Forall2
import Y86.Proofs.Memory.View
import Y86.Proofs.Text.Hex
import Y86.Snapshot.History

/-!
# Records read back

A record holds all that a snapshot shows (`Snapshot.Contents`), memory and identifier apart. To say so,
`SnapshotRecord.read?` reads a record by itself: an address from at least four hexadecimal digits, a word from exactly
sixteen, which stand for its unsigned reading, and names for what they are the names of. What is read from the record of
a snapshot is what the snapshot shows (`SnapshotRecord.read?_ofSnapshot`), for every word and every address that is not
negative; and since a record is made of nothing else but the moment of the snapshot, records are equal apart from that
exactly if the snapshots show the same (`SnapshotRecord.ofSnapshot_eq_iff`).

`History.exports_all` says this of the records of a whole history, which come in the order in which the snapshots were
taken.
-/

namespace Y86

open Text

/-! ### Numerals of a fixed or least width -/

namespace Text.Hex

theorem length_zeroFill (width : Nat) (cs : List Char) : (zeroFill width cs).length = max width cs.length := by
  rw [zeroFill, List.length_append, List.length_replicate]
  omega

theorem toList_field (width : Nat) (n : Nat) : (field width n).toList = zeroFill width (digits n) := by
  unfold field
  rw [if_neg (Int.not_lt.2 (Int.natCast_nonneg n)), String.toList_ofList, Int.natAbs_natCast]

end Text.Hex

namespace SnapshotRecord

/-- The number that a text denotes by hexadecimal digits behind their mark, if it has an admitted count of them. -/
def number? (admitted : Nat → Bool) (text : String) : Option Nat :=
  match text.toList with
  | '0' :: 'x' :: ds => if ds.all Hex.isDigit && admitted ds.length then some (Hex.value ds) else none
  | _ => none

/-- The address that at least four digits denote. -/
def address? (text : String) : Option Int := (number? (4 ≤ ·) text).map Int.ofNat

/-- The word that exactly sixteen digits denote, by its signed reading. -/
def word? (text : String) : Option Int := (number? (· == 16) text).map fun n : Nat => Word.signed n

theorem number?_field {admitted : Nat → Bool} (width n : Nat) (h : admitted (max width (Hex.digits n).length) = true) :
    number? admitted ("0x" ++ Hex.field width n) = some n := by
  have htext : ("0x" ++ Hex.field width n).toList = '0' :: 'x' :: Hex.zeroFill width (Hex.digits n) := by
    rw [String.toList_append, Hex.toList_field]
    rfl
  have hdigits : (Hex.zeroFill width (Hex.digits n)).all Hex.isDigit = true :=
    List.all_eq_true.2 fun c hc => Hex.isDigit_of_mem_zeroFill hc
  unfold number?
  rw [htext]
  show (if (_ && _) = true then some _ else none) = some n
  rw [hdigits, Hex.length_zeroFill, h, Hex.value_zeroFill_digits]
  rfl

theorem address?_address {x : Int} (h : 0 ≤ x) : address? (Hex.address x) = some x := by
  obtain ⟨n, rfl⟩ := Int.eq_ofNat_of_zero_le h
  unfold address? Hex.address
  rw [number?_field 4 n (decide_eq_true (Nat.le_max_left _ _))]
  rfl

theorem word?_word {x : Int} (h : Word.InRange x) : word? (word x) = some x := by
  have hlength : (Hex.digits (Word.unsigned x)).length ≤ 16 :=
    (Nat.length_toDigits_le_iff (by decide) (by decide)).2 (Word.unsigned_lt x)
  unfold word? word
  rw [number?_field 16 _ (by rw [Nat.max_eq_left hlength]; rfl), Option.map_some, Word.signed_unsigned,
    Word.signed_of_inRange h]

end SnapshotRecord

/-! ### What a snapshot shows -/

/-- What a machine shows under a label, memory apart. -/
structure Contents where
  cycle : Int
  pc : Int
  status : Status
  label : Option String
  /-- All registers with their values, in the order of the codes. -/
  registers : List (Register × Int)
  flags : Flags
  deriving DecidableEq

/-- What a snapshot that is taken of a machine under a label shows. -/
def Machine.contents (m : Machine) (label : Option String) : Contents :=
  ⟨m.cycle, m.pc, m.status, label, m.registers.pairs, m.flags⟩

def Snapshot.contents (s : Snapshot) : Contents := s.machine.contents s.label

theorem Status.ofName?_name (s : Status) : ofName? s.name = some s := by cases s <;> rfl

theorem Register.ofName?_name (r : Register) : ofName? r.name = some r := by cases r <;> rfl

namespace SnapshotRecord

/-! ### Reading a record -/

/-- The register that a field of a record names, with its value. -/
def register? (field : String × String) : Option (Register × Int) := do
  return (← Register.ofName? field.1, ← word? field.2)

/-- The flags by their names. -/
def flags? (fields : List (String × Bool)) : Option Flags := do
  return { zero := ← fields.lookup "ZF", sign := ← fields.lookup "SF", overflow := ← fields.lookup "OF" }

/-- What a record shows; the moment is left aside. -/
def read? (r : SnapshotRecord) : Option Contents := do
  return {
    cycle := r.cycle
    pc := ← address? r.pc
    status := ← Status.ofName? r.status
    label := r.instruction
    registers := ← r.registers.mapM register?
    flags := ← flags? r.conditionCodes }

theorem mapM_register?_pairs (f : RegisterFile) :
    (f.pairs.map fun rv => (rv.1.name, word rv.2)).mapM register? = some f.pairs := by
  -- the file lists all registers; the induction needs any list of them
  have hread : ∀ rs : List Register,
      ((rs.map fun r => (r, f.get r)).map fun rv => (rv.1.name, word rv.2)).mapM register?
        = some (rs.map fun r => (r, f.get r)) := by
    intro rs
    induction rs with
    | nil => rfl
    | cons r rs ih =>
      -- a name and a word are read back as they were written
      have hfirst : register? (r.name, word (f.get r)) = some (r, f.get r) := by
        unfold register?
        rw [Register.ofName?_name, word?_word (f.get_inRange r)]
        rfl
      rw [List.map_cons, List.map_cons, List.mapM_cons, hfirst, ih]
      rfl
  exact hread Register.all

/-- The record of a snapshot shows what the snapshot shows. -/
theorem read?_ofSnapshot {s : Snapshot} (h : 0 ≤ s.machine.pc) : (ofSnapshot s).read? = some s.contents := by
  have hregisters : (ofSnapshot s).registers.mapM register? = some s.machine.registers.pairs :=
    mapM_register?_pairs s.machine.registers
  have hpc : address? (ofSnapshot s).pc = some s.machine.pc := address?_address h
  have hstatus : Status.ofName? (ofSnapshot s).status = some s.machine.status := Status.ofName?_name _
  unfold read?
  rw [hpc, hstatus, hregisters]
  rfl

/-- Records are equal apart from the moment exactly if the snapshots show the same. -/
theorem ofSnapshot_eq_iff {s t : Snapshot} (hs : 0 ≤ s.machine.pc) (ht : 0 ≤ t.machine.pc) :
    { ofSnapshot s with timestamp := (ofSnapshot t).timestamp } = ofSnapshot t ↔ s.contents = t.contents := by
  constructor
  · intro h
    have hread : (ofSnapshot s).read? = (ofSnapshot t).read? := by rw [← h]; rfl
    rw [read?_ofSnapshot hs, read?_ofSnapshot ht] at hread
    exact Option.some.inj hread
  · intro h
    obtain ⟨hcycle, hpc, hstatus, hlabel, hregisters, hflags⟩ := Contents.mk.inj h
    unfold ofSnapshot
    rw [hcycle, hpc, hstatus, hlabel, hregisters, hflags]

end SnapshotRecord

namespace History

/-! ### The records of a history -/

/-- Takes snapshots of machines under labels, one after the other. -/
def captureAll (h : History) (captured : List (Machine × Option String)) : History :=
  captured.foldl (fun h c => h.capture c.1 c.2) h

/-- Capturing a machine adds the record of its snapshot at the end. -/
theorem records_capture (h : History) (m : Machine) (label : Option String) :
    (h.capture m label).records = h.records ++ [.ofSnapshot (h.snapshotOf m label)] := by
  unfold records capture
  rw [Array.toList_push, List.map_append, List.map_singleton]

/-- The record is that of a snapshot of a machine under a label, by whatever identifier. -/
def IsRecordOf (r : SnapshotRecord) (c : Machine × Option String) : Prop :=
  ∃ id, r = .ofSnapshot { id, machine := c.1.copy, label := c.2 }

/-- Each machine of which a snapshot is taken adds a record of it at the end. -/
theorem exists_records_captureAll (h : History) (captured : List (Machine × Option String)) :
    ∃ rs, (h.captureAll captured).records = h.records ++ rs ∧ List.Forall₂ (fun c r => IsRecordOf r c) captured rs := by
  unfold captureAll
  induction captured generalizing h with
  | nil => exact ⟨[], (List.append_nil _).symm, .nil⟩
  | cons c captured ih =>
    obtain ⟨rs, hrecords, hrest⟩ := ih (h.capture c.1 c.2)
    refine ⟨.ofSnapshot (h.snapshotOf c.1 c.2) :: rs, ?_, .cons ⟨⟨h.taken⟩, rfl⟩ hrest⟩
    rw [List.foldl_cons, hrecords, records_capture, List.append_assoc]
    rfl

/-- The records of a history are those of the machines of which snapshots were taken. -/
structure ExportsAll (h : History) (captured : List (Machine × Option String)) : Prop where
  /-- There is one record for each, in order, and what it shows can be read from it alone. -/
  readable : List.Forall₂ (fun c r => SnapshotRecord.read? r = some (c.1.contents c.2)) captured h.records
  /-- Two records are equal apart from the moment exactly if the same was shown. -/
  eq_iff : ∀ p ∈ captured.zip h.records, ∀ q ∈ captured.zip h.records,
    { p.2 with timestamp := q.2.timestamp } = q.2 ↔ p.1.1.contents p.1.2 = q.1.1.contents q.1.2

/-- **Records lose nothing but memory.** Of all snapshots that are taken after a history was cleared, at addresses that
are not negative, there are records in the same order. Each of them is enough to tell the cycle, the program counter, the
status, the label, all registers and all flags. -/
theorem exports_all (h : History) (captured : List (Machine × Option String)) (hpc : ∀ c ∈ captured, 0 ≤ c.1.pc) :
    (h.clear.captureAll captured).ExportsAll captured := by
  obtain ⟨rs, hrecords, hall⟩ := h.clear.exists_records_captureAll captured
  have hrs : (h.clear.captureAll captured).records = rs := hrecords
  -- each record is one of a snapshot at an address that is not negative
  have hboth := (List.forall₂_and_left captured rs).2 ⟨hpc, hall⟩
  refine ⟨?_, ?_⟩
  · rw [hrs]
    refine hboth.imp fun c r hc => ?_
    obtain ⟨hnonneg, id, rfl⟩ := hc
    exact SnapshotRecord.read?_ofSnapshot hnonneg
  · rw [hrs]
    intro p hp q hq
    obtain ⟨hnonneg, id, hrecord⟩ := (List.forall₂_iff_zip.1 hboth).2 hp
    obtain ⟨hnonneg', id', hrecord'⟩ := (List.forall₂_iff_zip.1 hboth).2 hq
    rw [hrecord, hrecord']
    exact SnapshotRecord.ofSnapshot_eq_iff hnonneg hnonneg'

/-- The first of two machines has a register at minus one and the program counter beyond four digits. -/
theorem exports_all_wide_address :
    let captured : List (Machine × Option String) :=
      [({ pc := 0x12345, registers := RegisterFile.zeros.set .rbx (-1), cycle := 7 }, some "nop"), ({ pc := 0 }, none)]
    (∀ c ∈ captured, 0 ≤ c.1.pc) ∧ (({} : History).clear.captureAll captured).ExportsAll captured ∧
      (({} : History).clear.captureAll captured).records.map (fun r => (r.pc, r.registers[3]?)) =
        [("0x12345", some ("rbx", "0xffffffffffffffff")), ("0x0000", some ("rbx", "0x0000000000000000"))] := by
  intro captured
  have hpc : ∀ c ∈ captured, 0 ≤ c.1.pc := by decide
  exact ⟨hpc, exports_all {} captured hpc, by decide +kernel⟩

end History

end Y86
