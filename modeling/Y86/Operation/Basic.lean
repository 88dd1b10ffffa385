import Y86.Arithmetic
import Y86.Register
import Y86.Text.Hex

/-!
# Operations

An operation is what the fetch and decode of one instruction yields: the instruction class, the function code,
up to two registers, up to one constant, and the number of bytes. Its text is computed from these fields, so it
cannot disagree with them.

Execution takes any operation, also one that no instruction decodes to: the function code is an arbitrary
integer, and a register field may be empty.
-/

namespace Y86

open Text

/-- The twelve instruction classes, in the order of the codes. -/
inductive InstructionClass where
  | halt | nop | rrmovq | irmovq | rmmovq | mrmovq | opq | jxx | call | ret | pushq | popq
  deriving DecidableEq, Repr

namespace InstructionClass

/-- All classes, in the order of their codes. -/
def all : List InstructionClass :=
  [halt, nop, rrmovq, irmovq, rmmovq, mrmovq, opq, jxx, call, ret, pushq, popq]

/-- The code of a class: the upper half of the opcode. -/
def code : InstructionClass → Nat
  | halt => 0 | nop => 1 | rrmovq => 2 | irmovq => 3 | rmmovq => 4 | mrmovq => 5
  | opq => 6 | jxx => 7 | call => 8 | ret => 9 | pushq => 10 | popq => 11

/-- The class with a code. -/
def ofCode? (code : Int) : Option InstructionClass := if 0 ≤ code then all[code.toNat]? else none

/-- The name under which executions of the class are counted. -/
def name : InstructionClass → String
  | halt => "HALT" | nop => "NOP" | rrmovq => "RRMOVQ" | irmovq => "IRMOVQ" | rmmovq => "RMMOVQ"
  | mrmovq => "MRMOVQ" | opq => "OPQ" | jxx => "JXX" | call => "CALL" | ret => "RET"
  | pushq => "PUSHQ" | popq => "POPQ"

theorem ofCode?_code (k : InstructionClass) : ofCode? k.code = some k := by cases k <;> rfl

/-- No two instruction classes share a code. -/
theorem ofCode?_eq_some {code : Int} {k : InstructionClass} (h : ofCode? code = some k) : code = k.code := by
  unfold ofCode? at h
  split at h
  case isTrue nonneg =>
    obtain ⟨n, rfl⟩ := Int.eq_ofNat_of_zero_le nonneg
    have hn : n < 12 := (List.getElem?_eq_some_iff.1 h).1
    match n, hn, h with
    | 0, _, h | 1, _, h | 2, _, h | 3, _, h | 4, _, h | 5, _, h
    | 6, _, h | 7, _, h | 8, _, h | 9, _, h | 10, _, h | 11, _, h =>
      have e := Option.some.inj h
      subst e
      rfl
  case isFalse => cases h

end InstructionClass

/-- The fields of one instruction. -/
structure Operation where
  /-- The opcode as it appears in messages; two upper-case digits when decoded. -/
  opcode : String
  /-- The instruction class. -/
  kind : InstructionClass
  /-- The function code: a condition for moves and jumps, a function for arithmetic. -/
  ifun : Int := 0
  /-- The first register field. -/
  rA : Option Register := none
  /-- The second register field. -/
  rB : Option Register := none
  /-- The immediate value, displacement or destination. -/
  valC : Int := 0
  /-- The number of bytes that the instruction takes. -/
  length : Int
  /-- The bytes after the opcode. -/
  operandBytes : List UInt8 := []
  deriving DecidableEq

namespace Operation

/-- The letters that a condition code adds to a mnemonic. -/
def suffix (op : Operation) : String := ((Condition.ofCode? op.ifun).map Condition.suffix).getD "?"

/-- The mnemonic. A conditional move that always moves is a plain register move, and a jump on no condition is
a plain jump. -/
def mnemonic (op : Operation) : String :=
  match op.kind with
  | .halt => "halt"
  | .nop => "nop"
  | .rrmovq => if op.ifun = 0 then "rrmovq" else "cmov" ++ op.suffix
  | .irmovq => "irmovq"
  | .rmmovq => "rmmovq"
  | .mrmovq => "mrmovq"
  | .opq => ((Arithmetic.ofCode? op.ifun).map Arithmetic.mnemonic).getD "opq"
  | .jxx => if op.ifun = 0 then "jmp" else "j" ++ op.suffix
  | .call => "call"
  | .ret => "ret"
  | .pushq => "pushq"
  | .popq => "popq"

/-- A register field as an operand. -/
def registerOperand (field : Option Register) : String := (field.map Register.operand).getD "%none"

/-- A memory operand: the displacement in front of the base register. -/
def memoryOperand (op : Operation) : String := toString op.valC ++ "(" ++ registerOperand op.rB ++ ")"

/-- The operands, the source first. -/
def operands (op : Operation) : List String :=
  match op.kind with
  | .halt | .nop | .ret => []
  | .rrmovq | .opq => [registerOperand op.rA, registerOperand op.rB]
  | .irmovq => ["$" ++ toString op.valC, registerOperand op.rB]
  | .rmmovq => [registerOperand op.rA, op.memoryOperand]
  | .mrmovq => [op.memoryOperand, registerOperand op.rA]
  | .jxx | .call => ["0x" ++ Hex.field 0 op.valC]
  | .pushq | .popq => [registerOperand op.rA]

/-- The instruction in assembly language. -/
def text (op : Operation) : String :=
  match op.operands with
  | [] => op.mnemonic
  | operands => op.mnemonic ++ " " ++ ", ".intercalate operands

end Operation

end Y86
