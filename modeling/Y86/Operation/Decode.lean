import Y86.Memory.Basic
import Y86.Operation.Basic

/-!
# Decoding

What an instruction class consists of is a table (`InstructionClass.layout`): what the function code selects,
which register fields are required, and whether a constant follows. `Operation.decode` reads an instruction
from memory by that table. It checks in a fixed order: the opcode, the function code, the register fields, and
last whether the constant lies inside memory. The bytes behind the opcode are then read once more, as they are.
-/

namespace Y86

open Text

/-- What the lower half of an opcode selects. -/
inductive FunctionCode where
  /-- Nothing: it has to be zero. -/
  | unused
  /-- A condition on the flags. -/
  | condition
  /-- A function of the arithmetic unit. -/
  | arithmetic
  deriving DecidableEq, Repr

/-- The constant of an instruction, read as a signed or an unsigned word. -/
inductive Constant where
  | signed | unsigned
  deriving DecidableEq, Repr

/-- What an instruction class consists of, after the class code. -/
structure Layout where
  /-- What the function code selects. -/
  function : FunctionCode := .unused
  /-- Whether the first register field is required. -/
  first : Bool := false
  /-- Whether the second register field is required. -/
  second : Bool := false
  /-- The constant at the end, if there is one. -/
  constant : Option Constant := none
  deriving DecidableEq, Repr

namespace Layout

/-- A register byte is present if one of its fields is required; the other field is then ignored. -/
def hasRegisters (l : Layout) : Bool := l.first || l.second

/-- The number of bytes before the constant. -/
def constantOffset (l : Layout) : Nat := if l.hasRegisters then 2 else 1

/-- The number of bytes of the instruction. -/
def length (l : Layout) : Nat := l.constantOffset + if l.constant.isSome then Memory.wordSize else 0

/-- Checks the function code of an opcode. -/
def checkFunction (l : Layout) (opcode : UInt8) : Except Fault Unit :=
  let ifun : Int := (opcode % 16).toNat
  match l.function with
  | .unused => if ifun = 0 then .ok () else .error (.function opcode)
  | .condition => if (Condition.ofCode? ifun).isSome then .ok () else .error (.condition ifun)
  | .arithmetic => if (Arithmetic.ofCode? ifun).isSome then .ok () else .error (.arithmetic ifun)

end Layout

/-- The layout of each class. -/
def InstructionClass.layout : InstructionClass → Layout
  | .halt | .nop | .ret => {}
  | .rrmovq => { function := .condition, first := true, second := true }
  | .irmovq => { second := true, constant := some .signed }
  | .rmmovq | .mrmovq => { first := true, second := true, constant := some .signed }
  | .opq => { function := .arithmetic, first := true, second := true }
  | .jxx => { function := .condition, constant := some .unsigned }
  | .call => { constant := some .unsigned }
  | .pushq | .popq => { first := true }

namespace Operation

/-- A register field: empty where none is wanted, and a fault where one is wanted and the field is empty. -/
def decodeRegister (wanted : Bool) (code : UInt8) : Except Fault (Option Register) :=
  if wanted then
    match Register.ofCode? code.toNat with
    | some r => .ok (some r)
    | none => .error .register
  else .ok none

/-- The two register fields of the instruction at `pc`. -/
def decodeRegisters (l : Layout) (m : Memory) (pc : Int) :
    Except Fault (Option Register × Option Register) := do
  if l.hasRegisters then
    let fields ← m.read (pc + 1)
    let rA ← decodeRegister l.first (fields / 16)
    let rB ← decodeRegister l.second (fields % 16)
    return (rA, rB)
  else return (none, none)

/-- The constant of the instruction at `pc`; zero if it has none. -/
def decodeConstant (l : Layout) (m : Memory) (pc : Int) : Except Fault Int :=
  match l.constant with
  | none => .ok 0
  | some .signed => m.readSigned (pc + l.constantOffset)
  | some .unsigned => (m.readQuad (pc + l.constantOffset)).map fun n => n

/-- Reads the instruction at `pc`. -/
def decode (m : Memory) (pc : Int) : Except Fault Operation := do
  let opcode ← m.read pc
  match InstructionClass.ofCode? (opcode / 16).toNat with
  | none => throw (.opcode opcode pc)
  | some kind =>
    let l := kind.layout
    l.checkFunction opcode
    -- the register byte and the constant are looked for in memory only if the layout has them
    let (rA, rB) ← decodeRegisters l m pc
    let valC ← decodeConstant l m pc
    let operandBytes ← m.readBytes (pc + 1) (l.length - 1)
    return {
      opcode := Hex.byteUpper opcode
      kind := kind
      ifun := (opcode % 16).toNat
      rA := rA
      rB := rB
      valC := valC
      length := l.length
      operandBytes := operandBytes
    }

end Operation

end Y86
