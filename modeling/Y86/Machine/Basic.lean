import Y86.Flags
import Y86.Memory.Basic
import Y86.Register

/-!
# The machine

The whole architectural state: program counter, status, registers, flags and memory, and the number of steps
that were counted. It is a value; a copy of it is the same value with the record of written words cleared.
-/

namespace Y86

structure Machine where
  /-- The address of the next instruction. -/
  pc : Int := 0
  /-- Whether the machine runs, or why it stopped. -/
  status : Status := .aok
  /-- The fifteen registers. -/
  registers : RegisterFile := .zeros
  /-- The three flags. -/
  flags : Flags := {}
  memory : Memory := default
  /-- The number of steps so far. -/
  cycle : Int := 0

namespace Machine

/-- A machine about to run the program in `memory`: the stack pointer is at the top of memory, all other
registers are zero, and only the zero flag is set. -/
def initial (memory : Memory) (entry : Int) : Machine where
  pc := entry
  registers := RegisterFile.zeros.set .rsp memory.size
  memory := memory

def rsp (m : Machine) : Int := m.registers.get .rsp

/-- Moves the stack pointer. -/
def moveStack (m : Machine) (distance : Int) : Machine :=
  { m with registers := m.registers.set .rsp (m.rsp + distance) }

/-- A copy, whose memory has no record of written words. -/
def copy (m : Machine) : Machine := { m with memory := m.memory.clearTouched }

end Machine

end Y86
