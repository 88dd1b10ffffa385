import Y86.Status
import Y86.Text.Hex

/-!
# Faults

A fault is the cause of a failed access or a failed instruction. Address faults and instruction faults end an
execution with a status of their own (`Fault.status?`); the others are misuses that only a hand-made operation
or a direct memory request can bring about, and have none.
-/

namespace Y86

open Text

/-- What an instruction wanted an address for. -/
inductive Access where
  | fetch | data | jump | call | push | pop | ret
  deriving DecidableEq, Repr

def Access.label : Access → String
  | fetch => "PC"
  | data => "Memory access"
  | jump => "Jump target"
  | call => "Call target"
  | push => "Stack write"
  | pop => "Stack read"
  | ret => "Return address"

/-- The direction of a memory transfer. -/
inductive Transfer where
  | read | write
  deriving DecidableEq, Repr

def Transfer.label : Transfer → String
  | read => "Read"
  | write => "Write"

/-- The cause of a failed access or instruction. -/
inductive Fault where
  /-- An address that an instruction computed, or the pc, is outside memory. -/
  | address (access : Access) (address : Int)
  /-- A transfer does not lie inside a memory of `size` bytes. -/
  | transfer (direction : Transfer) (address : Int) (size : Nat)
  /-- The upper half of the opcode at `pc` names no instruction. -/
  | opcode (opcode : UInt8) (pc : Int)
  /-- An operation whose instruction code names no instruction. -/
  | operation (code : String)
  /-- The lower half of the opcode should be zero. -/
  | function (opcode : UInt8)
  /-- The lower half of an arithmetic opcode names no function. -/
  | arithmetic (ifun : Int)
  /-- A function code names no condition. -/
  | condition (ifun : Int)
  /-- A register field is empty where a register is required. -/
  | register
  /-- An operation without a register wants to use one. -/
  | storage
  /-- An operation asks for an arithmetic function that does not exist. -/
  | selector (ifun : Int)
  /-- A value that should be written to one byte does not fit into it. -/
  | byte (value : Int)
  deriving DecidableEq, Repr

namespace Fault

/-- The status with which the fault ends an execution; `none` for the misuses. -/
def status? : Fault → Option Status
  | address .. | transfer .. => some .adr
  | opcode .. | operation .. | function .. | arithmetic .. | condition .. | register => some .ins
  | storage | selector .. | byte .. => none

/-- The wording of a fault. -/
def message : Fault → String
  | address access a => access.label ++ " out of bounds: " ++ Hex.marked a
  | transfer direction a size =>
    direction.label ++ " out of bounds: " ++ Hex.marked a ++ " (memory size " ++ Hex.marked size ++ ")"
  | opcode b pc => "Unknown instruction: " ++ Hex.byteUpper b ++ " at " ++ Hex.marked pc
  | operation code => "Unknown instruction: " ++ code
  | function b => "Invalid function code for instruction " ++ Hex.byteUpper b
  | arithmetic ifun => "Unknown ALU operation: " ++ Hex.marked ifun
  | condition ifun => "Invalid condition function code: " ++ Hex.marked ifun
  | register => "Invalid register encoding: 0xF where a register is required"
  | storage => "RNONE has no storage"
  | selector ifun => toString ifun ++ " is not a valid AluOp"
  | byte value => "Data " ++ toString value ++ " is not an 8-bit value."

end Fault

end Y86
