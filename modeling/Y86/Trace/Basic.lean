import Y86.Machine.Basic
import Y86.Operation.Basic

/-!
# Traces

A trace records a whole run: one entry for the machine at the start, one for the machine after every step, and
one more if the run had to be stopped. An entry holds the registers and flags in full, but of memory only the
words written since the entry before it, so that all entries together rebuild it.
-/

namespace Y86

/-- What a trace keeps of the machine at one point of a run. -/
structure TraceEntry where
  /-- The number of steps before this point. -/
  cycle : Int
  pc : Int
  status : Status
  /-- The register values, in the order of the register codes. -/
  registers : List Int
  flags : Flags := {}
  /-- The words written since the entry before: their addresses, ascending, with their unsigned values. -/
  words : List (Nat × Nat) := []
  /-- The instruction that led to this point; the first entry and stopped or failed ones have none. -/
  label : Option String := none
  deriving DecidableEq

namespace TraceEntry

/-- The words of a memory at the given addresses, in ascending order, those outside memory left out. -/
def wordsOf (memory : Memory) (touched : List Nat) : List (Nat × Nat) :=
  ((Memory.sortWords touched).filter (· < memory.size)).map fun base => (base, memory.wordAt base)

/-- The entry for a machine, with the words that were written. -/
def ofMachine (m : Machine) (touched : List Nat) (label : Option String := none) : TraceEntry where
  cycle := m.cycle
  pc := m.pc
  status := m.status
  registers := m.registers.toList
  flags := m.flags
  words := wordsOf m.memory touched
  label := label

/-- The registers with their values, as far as there are values. -/
def named (e : TraceEntry) : List (String × Int) :=
  (Register.all.zip e.registers).map fun rv => (rv.1.name, rv.2)

/-- The value of a register, if the entry has one. -/
def register? (e : TraceEntry) (r : Register) : Option Int := e.registers[r.index.val]?

end TraceEntry

/-- How often each instruction class was carried out; only classes that were, in the order of their first
time. -/
structure Statistics where
  counts : List (InstructionClass × Nat) := []
  deriving DecidableEq, Inhabited

namespace Statistics

def count (s : Statistics) (k : InstructionClass) : Nat :=
  ((s.counts.find? (·.1 == k)).map (·.2)).getD 0

/-- Counts one more in a list of counts. -/
def bump (k : InstructionClass) : List (InstructionClass × Nat) → List (InstructionClass × Nat)
  | [] => [(k, 1)]
  | c :: cs => if c.1 = k then (k, c.2 + 1) :: cs else c :: bump k cs

/-- Counts one more instruction of a class. -/
def add (s : Statistics) (k : InstructionClass) : Statistics := ⟨bump k s.counts⟩

end Statistics

/-- The record of a run. -/
structure Trace where
  /-- The entries, the first one for the machine at the start. -/
  entries : Array TraceEntry
  /-- The address of the first instruction. -/
  entry : Nat := 0
  statistics : Statistics := {}
  /-- Whether the run was stopped by the bound on its steps. -/
  limitReached : Bool := false

namespace Trace

def length (t : Trace) : Nat := t.entries.size

/-- The status at the end of the run. -/
def finalStatus? (t : Trace) : Option Status := t.entries.back?.map (·.status)

/-- Whether the entries look as if their order was reversed: a run begins with a running machine. -/
def looksReversed (t : Trace) : Bool :=
  match t.entries[0]?, t.entries.back? with
  | some first, some last => 1 < t.length && first.status != .aok && last.status == .aok
  | _, _ => false

end Trace

end Y86
