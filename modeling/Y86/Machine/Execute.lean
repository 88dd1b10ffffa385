import Y86.Machine.Basic
import Y86.Operation.Decode

/-!
# Execution

`Machine.execute` carries out one operation and `Machine.step` fetches, decodes and carries out one instruction.
Both end with a new machine or with a failure, which holds the fault and the machine as it was left: checks come
before changes with three exceptions. A push or a call lowers the stack pointer before it looks at the stack,
and a return raises it before it looks at the return address.

The program counter moves last, so a failing instruction leaves it where it is.
-/

namespace Y86

/-- A failed instruction: the cause, and the machine as the failure leaves it. -/
structure Failure where
  fault : Fault
  /-- The machine, with the changes that were made before the fault. -/
  machine : Machine

namespace Machine

/-- The outcome of an access that belongs to an instruction: a fault leaves the machine as it is. -/
def attempt (m : Machine) (access : Except Fault α) : Except Failure α := access.mapError (⟨·, m⟩)

/-- Fails unless an address lies inside memory. -/
def requireAddress (m : Machine) (access : Access) (address : Int) : Except Failure Unit :=
  if 0 ≤ address ∧ address < m.memory.size then .ok () else .error ⟨.address access address, m⟩

/-- Goes on to the instruction behind the operation. -/
def advance (m : Machine) (op : Operation) : Machine := { m with pc := m.pc + op.length }

/-- Puts a value on the stack: the stack pointer goes down first and stays there if the store fails. The value
is read when the stack pointer has moved. -/
def push (m : Machine) (value : Machine → Except Fault Int) : Except Failure Machine := do
  let lowered := m.moveStack (-8)
  lowered.requireAddress .push lowered.rsp
  let v ← lowered.attempt (value lowered)
  let memory ← lowered.attempt (lowered.memory.writeQuad lowered.rsp v)
  return { lowered with memory := memory }

/-- The effective address of a memory operand. -/
def effectiveAddress (m : Machine) (op : Operation) : Except Failure Int := do
  let base ← m.attempt (m.registers.read op.rB)
  let address := Word.signed (base + op.valC)
  m.requireAddress .data address
  return address

/-- Carries out an operation. -/
def execute (op : Operation) (m : Machine) : Except Failure Machine :=
  match op.kind with
  | .halt => return { m.advance op with status := .hlt }
  | .nop => return m.advance op
  | .rrmovq =>
    -- the register fields are looked at only where the condition holds
    if Condition.codeHolds op.ifun m.flags then do
      let value ← m.attempt (m.registers.read op.rA)
      let registers ← m.attempt (m.registers.write value op.rB)
      return { m with registers := registers }.advance op
    else return m.advance op
  | .irmovq => do
    let registers ← m.attempt (m.registers.write op.valC op.rB)
    return { m with registers := registers }.advance op
  | .rmmovq => do
    let address ← m.effectiveAddress op
    let value ← m.attempt (m.registers.read op.rA)
    let memory ← m.attempt (m.memory.writeQuad address value)
    return { m with memory := memory }.advance op
  | .mrmovq => do
    let address ← m.effectiveAddress op
    let value ← m.attempt (m.memory.readSigned address)
    let registers ← m.attempt (m.registers.write value op.rA)
    return { m with registers := registers }.advance op
  | .opq => do
    let a ← m.attempt (m.registers.read op.rA)
    let b ← m.attempt (m.registers.read op.rB)
    match Arithmetic.ofCode? op.ifun with
    -- not for an operation that was decoded: decoding asks for a function
    | none => throw ⟨.selector op.ifun, m⟩
    | some f =>
      let (result, overflow) := f.compute a b
      let registers ← m.attempt (m.registers.write result op.rB)
      return { m with registers := registers, flags := .ofResult result overflow }.advance op
  | .jxx => do
    m.requireAddress .jump op.valC
    if Condition.codeHolds op.ifun m.flags then return { m with pc := op.valC }
    else return m.advance op
  | .call => do
    m.requireAddress .call op.valC
    let pushed ← m.push fun _ => .ok (m.pc + op.length)
    return { pushed with pc := op.valC }
  | .ret => do
    m.requireAddress .pop m.rsp
    let target ← m.attempt (m.memory.readQuad m.rsp)
    -- the stack pointer stays raised where the target is no address
    let raised := m.moveStack 8
    raised.requireAddress .ret target
    return { raised with pc := target }
  | .pushq => do
    let pushed ← m.push fun lowered => lowered.registers.read op.rA
    return pushed.advance op
  | .popq => do
    m.requireAddress .pop m.rsp
    let value ← m.attempt (m.memory.readSigned m.rsp)
    let registers ← m.attempt (m.registers.write value op.rA)
    -- the stack pointer moves after the value is stored, also where it is the register that has it
    return ({ m with registers := registers }.moveStack 8).advance op

/-- Fetches, decodes and carries out the instruction at the program counter, whatever the status is. -/
def step (m : Machine) : Except Failure (Operation × Machine) := do
  m.requireAddress .fetch m.pc
  -- a fault of the decoding leaves the machine as it is, one of the execution may not
  let op ← m.attempt (Operation.decode m.memory m.pc)
  let next ← execute op m
  return (op, next)

end Machine

end Y86
