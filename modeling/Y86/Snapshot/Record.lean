import Y86.Snapshot.Basic

/-!
# Records of snapshots

A record is a snapshot in the form in which it leaves the program: everything but memory. Addresses and words are
hexadecimal texts, the program counter with at least four digits and a register with all sixteen.
-/

namespace Y86

open Text

/-- A snapshot without its memory, as texts and numbers. -/
structure SnapshotRecord where
  cycle : Int
  pc : String
  instruction : Option String
  status : String
  /-- The moment of the snapshot. -/
  timestamp : String
  /-- The names of the registers with their words. -/
  registers : List (String × String)
  /-- The names of the flags with their values. -/
  conditionCodes : List (String × Bool)
  deriving DecidableEq, Repr

namespace SnapshotRecord

/-- What stands for the moment of a snapshot: it is not kept. -/
def timeMark : String := "T"

/-- A word as sixteen hexadecimal digits. -/
def word (x : Int) : String := "0x" ++ Hex.field 16 (Word.unsigned x)

/-- The record of a snapshot. -/
def ofSnapshot (s : Snapshot) : SnapshotRecord where
  cycle := s.machine.cycle
  pc := Hex.address s.machine.pc
  instruction := s.label
  status := s.machine.status.name
  timestamp := timeMark
  registers := s.machine.registers.pairs.map fun rv => (rv.1.name, word rv.2)
  conditionCodes := s.machine.flags.named

end SnapshotRecord

end Y86
