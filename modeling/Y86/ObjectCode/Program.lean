import Y86.Memory.Basic
import Y86.ObjectCode.Record
import Y86.Text.Lines

/-!
# Loading object code

A program is a memory into which the bytes of all records of a text were written, in the order of the text, together
with its entry point, which is the lowest address of a record. Loading is all or nothing: the first write that fails
ends it, and so does a record that starts outside memory.
-/

namespace Y86

open Text

/-- Why a text cannot be loaded: the first record that does not fit, by its line, counted from one. -/
inductive LoadError where
  /-- The record starts outside memory. -/
  | start (line address : Nat)
  /-- The record starts inside memory and runs over its end, first at this address. -/
  | extent (line address : Nat)
  deriving DecidableEq, Repr

namespace LoadError

/-- A failed load is an address fault. -/
def status (_ : LoadError) : Status := .adr

/-- The wording of a failed load. -/
def message : LoadError → String
  | start line address =>
    "Program address out of range on line " ++ toString line ++ ": " ++ Hex.marked address
  | extent line address =>
    "Program exceeds memory on line " ++ toString line ++ ": " ++ Hex.marked address

end LoadError

/-- A program in memory. -/
structure Program where
  /-- The image; none of its words counts as touched. -/
  memory : Memory
  /-- The address of the first instruction. -/
  entry : Nat := 0
  /-- The words that hold a byte of the program, ascending. -/
  touched : List Nat := []
  /-- The number of records. -/
  records : Nat := 0

namespace Program

/-- The records of a text, with the numbers of their lines. -/
def recordsOf (text : List Char) : List (Nat × ObjectRecord) :=
  (lines text).zipIdx.filterMap fun line => (ObjectRecord.ofLine? line.1).map fun r => (line.2 + 1, r)

/-- Writes the bytes that digits denote to the addresses from `target` on, two digits each; an odd last digit is a byte
of its own. The fault of the first write that fails comes with the address of that write. -/
def writeDigits (memory : Memory) (target : Nat) : List Char → Except (Nat × Fault) Memory
  | [] => .ok memory
  | [d] => (memory.write target (Hex.value [d])).mapError (target, ·)
  | high :: low :: rest => do
    let memory ← (memory.write target (Hex.value [high, low])).mapError (target, ·)
    writeDigits memory (target + 1) rest

/-- A write that fails does so for its address, as two digits always denote a byte. -/
theorem transfer_of_writeDigits {memory : Memory} {start target : Nat} {digits : List Char} {fault : Fault}
    (h : writeDigits memory start digits = .error (target, fault)) : fault.status? = some .adr := by
  -- the write of a pair of digits, or of a single one, at any address
  have hwrite (m : Memory) (a : Nat) (pair : List Char) (hpair : pair.length ≤ 2) :
      (m.write a (Hex.value pair)).mapError (a, ·) = .error (target, fault) → fault.status? = some .adr := by
    have hvalue := Hex.value_lt hpair
    cases hm : m.write a (Hex.value pair) with
    | ok next => exact fun h => nomatch h
    | error cause =>
      intro h
      obtain rfl : cause = fault := (Prod.ext_iff.1 (Except.error.inj h)).2
      rw [(Memory.write_eq_error ⟨by omega, by omega⟩ hm).2]
      rfl
  fun_induction writeDigits memory start digits with
  | case1 => cases h
  | case2 memory start d => exact hwrite memory start [d] (Nat.le_succ 1) h
  | case3 memory start high low rest ih =>
    cases hm : (memory.write start (Hex.value [high, low])).mapError (start, ·) with
    | ok next =>
      rw [hm] at h
      exact ih next h
    | error cause =>
      rw [hm] at h
      cases h
      exact hwrite memory start [high, low] (Nat.le_refl 2) hm

/-- Writes the bytes of one record into a memory, one after the other. -/
def place (memory : Memory) (line : Nat) (r : ObjectRecord) : Except LoadError Memory :=
  if memory.size ≤ r.address then .error (.start line r.address)
  else match h : writeDigits memory r.address r.digits with
    | .ok memory => .ok memory
    | .error (target, fault) =>
      -- just the faults of addresses are caught, and there are no others
      if hcaught : fault.status? = some .adr then .error (.extent line target)
      else absurd (transfer_of_writeDigits h) hcaught

/-- Writes records into a memory, one after the other. -/
def placeAll (memory : Memory) : List (Nat × ObjectRecord) → Except LoadError Memory
  | [] => .ok memory
  | r :: rs => do
    let memory ← place memory r.1 r.2
    placeAll memory rs

/-- The lowest address of the records, zero if there are none. -/
def entryOf (records : List ObjectRecord) : Nat :=
  match records with
  | [] => 0
  | r :: rs => rs.foldl (fun lowest r => min lowest r.address) r.address

/-- Loads a text into a memory. -/
def load (memory : Memory) (text : String) : Except LoadError Program := do
  let records := recordsOf text.toList
  let memory ← placeAll memory records
  -- what loading has touched is kept apart, and the image starts without a record
  return {
    memory := memory.clearTouched
    entry := entryOf (records.map (·.2))
    touched := memory.touched
    records := records.length
  }

end Program

end Y86
