import Mathlib.Data.Int.Bitwise
import Y86.Flags
import Y86.Word

/-!
# A second interpreter

A program that moves constants, computes, jumps, calls, returns and halts can also be run by an interpreter that is much
simpler than the machine. Memory is a list of bytes, registers are a list of integers of any size, and nothing is checked
beforehand: an index counts from the end if it is negative, a slice that leaves the list is cut off, and where there is
nothing to go on with, the run has no result. Neither has a run that goes on forever (`Interpreter.statesWithin`).

It differs from the machine in more than its checks. An overflow is a result that is changed by being made a word, the
stack pointer is an integer that does not wrap around, and a call reads its destination when it has stored its return
address.
-/

namespace Y86

namespace Interpreter

/-! ### Lists of bytes -/

/-- The position that an index names, if there is one. -/
def position? (length : Nat) (i : Int) : Option Nat :=
  let i := if i < 0 then i + length else i
  if 0 ≤ i ∧ i < length then some i.toNat else none

/-- The position at which a slice begins or ends, which is never outside the list. -/
def bound (length : Nat) (i : Int) : Nat := min (if i < 0 then i + length else i).toNat length

def slice (bytes : List UInt8) (start stop : Int) : List UInt8 :=
  (bytes.take (bound bytes.length stop)).drop (bound bytes.length start)

/-- Puts values in the place of a slice. The list becomes longer or shorter if the slice was cut off. -/
def replaceSlice (bytes : List UInt8) (start stop : Int) (values : List UInt8) : List UInt8 :=
  let first := bound bytes.length start
  bytes.take first ++ values ++ bytes.drop (max first (bound bytes.length stop))

/-- The eight bytes of a number that is not negative and fits. -/
def toBytes? (value : Int) : Option (List UInt8) :=
  if 0 ≤ value ∧ value < Word.modulus then some (Word.toBytes value) else none

/-! ### Numbers -/

/-- The signed word of an integer: its lowest sixty-four bits, the highest of which counts as negative. -/
def wrap (value : Int) : Int :=
  let low := value % Word.modulus
  if 9223372036854775808 ≤ low then low - Word.modulus else low

/-- The results of all functions, in the order of their codes. -/
def results (a b : Int) : List Int := [b + a, b - a, Int.land b a, Int.xor b a]

/-- Whether the conditions hold, in the order of their codes. -/
def conditions (f : Flags) : List Bool :=
  [true, (f.sign != f.overflow) || f.zero, f.sign != f.overflow, f.zero, !f.zero, f.sign == f.overflow,
    !f.zero && f.sign == f.overflow]

end Interpreter

/-- What the second interpreter works on. -/
structure Interpreter where
  bytes : List UInt8
  pc : Int
  registers : List Int
  flags : Flags

namespace Interpreter

def byte? (s : Interpreter) (address : Int) : Option UInt8 :=
  (position? s.bytes.length address).bind fun i => s.bytes[i]?

/-- The number in the eight bytes from an address on, as far as there are bytes. -/
def quad (s : Interpreter) (address : Int) : Int := Word.ofBytes (slice s.bytes address (address + 8))

/-- The position of the stack pointer among the registers. -/
abbrev stackPointer : Nat := 4

/-- Carries out the instruction with the given opcode. -/
def step (s : Interpreter) (opcode : UInt8) : Option Interpreter :=
  let ifun := (opcode % 16).toNat
  match (opcode / 16).toNat with
  | 3 => do
    let fields ← s.byte? (s.pc + 1)
    let b := (fields % 16).toNat
    if b < s.registers.length then
      return { s with registers := s.registers.set b (wrap (s.quad (s.pc + 2))), pc := s.pc + 10 }
    else none
  | 6 => do
    let fields ← s.byte? (s.pc + 1)
    let b := (fields % 16).toNat
    let raw ← (results (← s.registers[(fields / 16).toNat]?) (← s.registers[b]?))[ifun]?
    let result := wrap raw
    return { s with
      registers := s.registers.set b result
      -- only sums and differences can overflow
      flags := { zero := result = 0, sign := result < 0, overflow := ifun ≤ 1 ∧ raw ≠ result }
      pc := s.pc + 2 }
  | 7 => do
    let taken ← (conditions s.flags)[ifun]?
    return { s with pc := if taken then s.quad (s.pc + 1) else s.pc + 9 }
  | 8 => do
    let lowered := (← s.registers[stackPointer]?) - 8
    let link ← toBytes? (s.pc + 9)
    let s := { s with
      registers := s.registers.set stackPointer lowered
      bytes := replaceSlice s.bytes lowered (lowered + 8) link }
    -- the store comes first, and may have changed the destination
    return { s with pc := s.quad (s.pc + 1) }
  | 9 => do
    let rsp ← s.registers[stackPointer]?
    return { s with registers := s.registers.set stackPointer (rsp + 8), pc := s.quad rsp }
  | _ => none

/-- The program counters and registers in front of each instruction and behind the halt, of a run that halts with one of
its first instructions. The bound only cuts off a run that has not halted by then. -/
def statesWithin : Nat → Interpreter → Option (List (Int × List Int))
  | 0, _ => none
  | bound + 1, s => do
    let opcode ← s.byte? s.pc
    if (opcode / 16).toNat = 0 then
      return [(s.pc, s.registers), (s.pc + 1, s.registers)]
    else
      let next ← s.step opcode
      let states ← statesWithin bound next
      return (s.pc, s.registers) :: states

/-- The interpreter in front of an image and its entry point: the stack pointer is at the end of the image, and all other
registers are zero. -/
def start (image : List UInt8) (entry : Int) : Interpreter where
  bytes := image
  pc := entry
  registers := (List.replicate 15 0).set stackPointer image.length
  flags := { zero := true, sign := false, overflow := false }

/-- All program counters and registers of the run of an image. -/
def run (bound : Nat) (image : List UInt8) (entry : Int) : Option (List (Int × List Int)) :=
  statesWithin bound (start image entry)

end Interpreter

end Y86
