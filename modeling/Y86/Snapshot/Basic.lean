import Y86.Machine.Basic
import Y86.Reference

/-!
# Snapshots

A snapshot keeps the whole machine as it was at one moment, with a label and an identifier. Two snapshots are
compared register by register and flag by flag: `Comparison.between` lists what differs, in the order of the
registers and flags.
-/

namespace Y86

open Text

/-- What a snapshot is called by. -/
structure SnapshotId where
  /-- How many snapshots had been taken before. -/
  number : Nat
  deriving DecidableEq, Repr

/-- An identifier as text. -/
def SnapshotId.text (id : SnapshotId) : String := "snap#" ++ toString id.number

/-- A machine as it was at one moment. -/
structure Snapshot where
  /-- What the snapshot is called by. -/
  id : SnapshotId
  machine : Machine
  /-- What led to this moment. -/
  label : Option String := none

/-- What differs between two snapshots. -/
structure Comparison where
  cycles : Int × Int
  pcs : Int × Int
  /-- The registers with different values, and both values. -/
  registers : List (Register × Int × Int)
  /-- The names of the flags with different values. -/
  flags : List String
  deriving DecidableEq, Repr

namespace Comparison

/-- The comparison of a snapshot with a second one. -/
def between (a b : Snapshot) : Comparison where
  cycles := (a.machine.cycle, b.machine.cycle)
  pcs := (a.machine.pc, b.machine.pc)
  registers := Register.all.filterMap fun r =>
    -- the values are compared as signed words
    let old := a.machine.registers.get r
    let new := b.machine.registers.get r
    if old = new then none else some (r, old, new)
  flags := (a.machine.flags.named.zip b.machine.flags.named).filterMap fun (old, new) =>
    if old.2 = new.2 then none else some old.1

/-- Items in a row; no items at all are named so. -/
def listed (items : List String) : String := if items.isEmpty then "none" else ", ".intercalate items

def registerText (change : Register × Int × Int) : String :=
  change.1.name ++ ": " ++ Hex.field 0 change.2.1 ++ " -> " ++ Hex.field 0 change.2.2

/-- A comparison in four lines. -/
def summary (c : Comparison) : String :=
  "\n".intercalate [
    "Cycle: " ++ toString c.cycles.1 ++ " -> " ++ toString c.cycles.2,
    "PC: " ++ Hex.marked c.pcs.1 ++ " -> " ++ Hex.marked c.pcs.2,
    "Registers: " ++ listed (c.registers.map registerText),
    "Condition codes: " ++ listed c.flags]

end Comparison

end Y86
