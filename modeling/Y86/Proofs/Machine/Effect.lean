import Y86.Proofs.Machine.Outcome
import Y86.Proofs.Operation.Decode

/-!
# What a step can do

Carrying out a well-formed operation has one of fourteen effects or fails in one of five ways, and both are said once
here, with their guards:

* `Machine.Effect` has a constructor for each instruction class, and two for a move and a jump, whose condition may hold
  or fail. It gives the machine afterwards.
* `Machine.Stops` has a constructor for each kind of address that can be out of bounds. It gives the machine that is left
  behind, since a push and a call have moved the stack pointer by then, and so has a return.

`Machine.execute_ends` and `Machine.step_ends` say that there is nothing else. What is proved about a step elsewhere goes
by cases on these relations, and opens the definition of execution no more.
-/

namespace Y86

/-! ### How the parts of an instruction end -/

namespace Ends

variable {m : Machine} {Q : Failure → Prop} {address : Int}

/-- A field that holds a register is read. -/
theorem readRegister {field : Option Register} {r : Register} (h : field = some r) :
    Ends (m.attempt (m.registers.read field)) (fun value => value = m.registers.get r) Q := by
  subst h
  exact rfl

/-- And it is written. -/
theorem writeRegister {field : Option Register} {r : Register} (h : field = some r) (value : Int) :
    Ends (m.attempt (m.registers.write value field)) (fun registers => registers = m.registers.set r value) Q := by
  subst h
  exact rfl

/-- A target is inside memory, or the instruction fails. -/
theorem requireTarget (access : Access)
    (hQ : ¬(0 ≤ address ∧ address < m.memory.size) → Q ⟨.address access address, m⟩) :
    Ends (m.requireAddress access address) (fun _ => 0 ≤ address ∧ address < m.memory.size) Q := by
  unfold Machine.requireAddress
  split
  case isTrue h => exact h
  case isFalse h => exact hQ h

/-- Where the first byte of a transfer is out of bounds there is no room for it. -/
theorem requireRoom (access : Access)
    (hQ : ∀ fault, fault.status? = some .adr → ¬m.memory.HasQuad address → Q ⟨fault, m⟩) :
    Ends (m.requireAddress access address) (fun _ => True) Q := by
  unfold Machine.requireAddress
  split
  case isTrue => trivial
  case isFalse hout => exact hQ _ rfl fun hroom => hout hroom.bounds

/-- A word is read, or memory does not hold it. -/
theorem readQuad (hQ : ∀ fault, fault.status? = some .adr → ¬m.memory.HasQuad address → Q ⟨fault, m⟩) :
    Ends (m.attempt (m.memory.readQuad address)) (fun word => m.memory.readQuad address = .ok word) Q := by
  cases h : m.memory.readQuad address with
  | ok word => exact rfl
  | error fault => exact hQ fault (Memory.readQuad_eq_error h).2 (Memory.readQuad_eq_error h).1

theorem readSigned (hQ : ∀ fault, fault.status? = some .adr → ¬m.memory.HasQuad address → Q ⟨fault, m⟩) :
    Ends (m.attempt (m.memory.readSigned address)) (fun value => m.memory.readSigned address = .ok value) Q := by
  cases h : m.memory.readSigned address with
  | ok value => exact rfl
  | error fault => exact hQ fault (Memory.readSigned_eq_error h).2 (Memory.readSigned_eq_error h).1

/-- A word is stored, or memory does not hold it. -/
theorem writeQuad {value : Int}
    (hQ : ∀ fault, fault.status? = some .adr → ¬m.memory.HasQuad address → Q ⟨fault, m⟩) :
    Ends (m.attempt (m.memory.writeQuad address value))
      (fun memory => m.memory.writeQuad address value = .ok memory) Q := by
  cases h : m.memory.writeQuad address value with
  | ok memory => exact rfl
  | error fault => exact hQ fault (Memory.writeQuad_eq_error h).2 (Memory.writeQuad_eq_error h).1

end Ends

namespace Machine

/-- The machine with a value in a register. -/
def setRegister (m : Machine) (r : Register) (value : Int) : Machine :=
  { m with registers := m.registers.set r value }

/-- The address of a memory operand with base register `base`. -/
def operandAddress (m : Machine) (op : Operation) (base : Register) : Int :=
  Word.signed (m.registers.get base + op.valC)

/-- The stack pointer moves by a distance, and wraps. -/
@[simp] theorem rsp_moveStack (m : Machine) (distance : Int) :
    (m.moveStack distance).rsp = Word.signed (m.rsp + distance) :=
  RegisterFile.get_set_self _ _ _

theorem rsp_lowered (m : Machine) : (m.moveStack (-8)).rsp = Word.signed (m.rsp - 8) := by
  rw [rsp_moveStack, Int.sub_eq_add_neg]

/-- No other register moves. -/
theorem get_moveStack_of_ne {r : Register} (h : r ≠ .rsp) (m : Machine) (distance : Int) :
    (m.moveStack distance).registers.get r = m.registers.get r :=
  m.registers.get_set_of_ne h.symm _

/-! ### The effects and the failures -/

/-- What carrying out an operation makes of a machine. -/
inductive Effect (m : Machine) (op : Operation) : Machine → Prop where
  | halt (kind : op.kind = .halt) : m.Effect op { m.advance op with status := .hlt }
  | nop (kind : op.kind = .nop) : m.Effect op (m.advance op)
  | move {a b : Register} (kind : op.kind = .rrmovq) (holds : Condition.codeHolds op.ifun m.flags = true)
      (rA : op.rA = some a) (rB : op.rB = some b) : m.Effect op ((m.setRegister b (m.registers.get a)).advance op)
  | noMove (kind : op.kind = .rrmovq) (fails : Condition.codeHolds op.ifun m.flags = false) :
      m.Effect op (m.advance op)
  | constant {b : Register} (kind : op.kind = .irmovq) (rB : op.rB = some b) :
      m.Effect op ((m.setRegister b op.valC).advance op)
  | store {a b : Register} {memory : Memory} (kind : op.kind = .rmmovq) (rA : op.rA = some a) (rB : op.rB = some b)
      (stored : m.memory.writeQuad (m.operandAddress op b) (m.registers.get a) = .ok memory) :
      m.Effect op ({ m with memory }.advance op)
  | load {a b : Register} {value : Int} (kind : op.kind = .mrmovq) (rA : op.rA = some a) (rB : op.rB = some b)
      (loaded : m.memory.readSigned (m.operandAddress op b) = .ok value) :
      m.Effect op ((m.setRegister a value).advance op)
  | compute {a b : Register} {f : Arithmetic} (kind : op.kind = .opq) (rA : op.rA = some a) (rB : op.rB = some b)
      (function : Arithmetic.ofCode? op.ifun = some f) :
      m.Effect op
        ({ m.setRegister b (f.compute (m.registers.get a) (m.registers.get b)).1 with
            flags := .ofResult (f.compute (m.registers.get a) (m.registers.get b)).1
              (f.compute (m.registers.get a) (m.registers.get b)).2 }.advance op)
  | jump (kind : op.kind = .jxx) (holds : Condition.codeHolds op.ifun m.flags = true)
      (target : 0 ≤ op.valC ∧ op.valC < m.memory.size) : m.Effect op { m with pc := op.valC }
  | noJump (kind : op.kind = .jxx) (fails : Condition.codeHolds op.ifun m.flags = false)
      (target : 0 ≤ op.valC ∧ op.valC < m.memory.size) : m.Effect op (m.advance op)
  | call {memory : Memory} (kind : op.kind = .call) (target : 0 ≤ op.valC ∧ op.valC < m.memory.size)
      (stored : m.memory.writeQuad (m.moveStack (-8)).rsp (m.pc + op.length) = .ok memory) :
      m.Effect op { m.moveStack (-8) with memory, pc := op.valC }
  | ret {target : Nat} (kind : op.kind = .ret) (popped : m.memory.readQuad m.rsp = .ok target)
      (inside : target < m.memory.size) : m.Effect op { m.moveStack 8 with pc := target }
  | push {a : Register} {memory : Memory} (kind : op.kind = .pushq) (rA : op.rA = some a)
      (stored : m.memory.writeQuad (m.moveStack (-8)).rsp ((m.moveStack (-8)).registers.get a) = .ok memory) :
      m.Effect op ({ m.moveStack (-8) with memory }.advance op)
  | pop {a : Register} {value : Int} (kind : op.kind = .popq) (rA : op.rA = some a)
      (popped : m.memory.readSigned m.rsp = .ok value) :
      m.Effect op (((m.setRegister a value).moveStack 8).advance op)

/-- Why an operation cannot be carried out, and the machine that is left behind. -/
inductive Stops (m : Machine) (op : Operation) : Machine → Prop where
  /-- The destination of a jump or a call is outside memory, whether the jump would be taken or not. -/
  | target (kind : op.kind = .jxx ∨ op.kind = .call) (outside : m.memory.size ≤ op.valC) : m.Stops op m
  /-- There is no word at the address of a memory operand. -/
  | operand {b : Register} (kind : op.kind = .rmmovq ∨ op.kind = .mrmovq) (rB : op.rB = some b)
      (noRoom : ¬m.memory.HasQuad (m.operandAddress op b)) : m.Stops op m
  /-- There is no room on the stack. -/
  | push (kind : op.kind = .pushq ∨ op.kind = .call ∧ op.valC < m.memory.size)
      (noRoom : ¬m.memory.HasQuad (m.moveStack (-8)).rsp) : m.Stops op (m.moveStack (-8))
  /-- There is no word on the stack. -/
  | pop (kind : op.kind = .popq ∨ op.kind = .ret) (noRoom : ¬m.memory.HasQuad m.rsp) : m.Stops op m
  /-- The return address is outside memory. -/
  | ret {target : Nat} (kind : op.kind = .ret) (popped : m.memory.readQuad m.rsp = .ok target)
      (outside : m.memory.size ≤ target) : m.Stops op (m.moveStack 8)

/-- An address fault that leaves one of the machines behind with which `op` stops. -/
def StopsWith (m : Machine) (op : Operation) (e : Failure) : Prop :=
  e.fault.status? = some .adr ∧ m.Stops op e.machine

/-! ### There is nothing else -/

variable {op : Operation}

/-- The address of an operand is that of its register with the constant added. -/
theorem effectiveAddress_ends (m : Machine) {b : Register} (kind : op.kind = .rmmovq ∨ op.kind = .mrmovq)
    (hb : op.rB = some b) : Ends (m.effectiveAddress op) (fun address => address = m.operandAddress op b) (m.StopsWith op) := by
  unfold effectiveAddress
  refine (Ends.readRegister hb).bind fun base hbase => ?_
  subst hbase
  refine (Ends.requireRoom _ fun fault hstatus hroom => ?_).bind fun _ _ => rfl
  exact ⟨hstatus, .operand kind hb hroom⟩

/-- A push stores a value that can be read on the lowered stack, or leaves the stack lowered. -/
theorem push_ends (m : Machine) (kind : op.kind = .pushq ∨ op.kind = .call ∧ op.valC < m.memory.size)
    {read : Machine → Except Fault Int} {value : Int} (hread : read (m.moveStack (-8)) = .ok value) :
    Ends (m.push read)
      (fun pushed => ∃ memory, m.memory.writeQuad (m.moveStack (-8)).rsp value = .ok memory ∧
        pushed = { m.moveStack (-8) with memory }) (m.StopsWith op) := by
  have hstops : ∀ fault : Fault, fault.status? = some .adr → ¬m.memory.HasQuad (m.moveStack (-8)).rsp →
      m.StopsWith op ⟨fault, m.moveStack (-8)⟩ := fun fault hstatus hroom => ⟨hstatus, .push kind hroom⟩
  unfold push
  dsimp only
  rw [hread]
  -- two checks of one address, and both find that there is no room
  refine (Ends.requireRoom _ hstops).bind fun _ _ => ?_
  exact (Ends.writeQuad (m := m.moveStack (-8)) hstops).bind fun memory hstored => ⟨memory, hstored, rfl⟩

/-- Carrying out a well-formed operation has one of the effects, or fails in one of the ways. -/
theorem execute_ends (hop : op.WellFormed) (m : Machine) : Ends (execute op m) (m.Effect op) (m.StopsWith op) := by
  -- which fields hold registers is known from the class
  have hfirst := hop.first
  have hsecond := hop.second
  have hdestination := hop.destination
  have harithmetic := hop.arithmetic
  unfold execute
  cases hkind : op.kind <;> rw [hkind] at hfirst hsecond hdestination harithmetic
  case halt => exact .halt hkind
  case nop => exact .nop hkind
  case rrmovq =>
    obtain ⟨a, ha⟩ := hfirst rfl
    obtain ⟨b, hb⟩ := hsecond rfl
    dsimp only
    split
    case isTrue holds =>
      refine (Ends.readRegister ha).bind fun value hvalue => ?_
      subst hvalue
      refine (Ends.writeRegister hb _).bind fun registers hregisters => ?_
      subst hregisters
      exact .move hkind holds ha hb
    case isFalse fails => exact .noMove hkind (Bool.eq_false_iff.2 fails)
  case irmovq =>
    obtain ⟨b, hb⟩ := hsecond rfl
    refine (Ends.writeRegister hb _).bind fun registers hregisters => ?_
    subst hregisters
    exact .constant hkind hb
  case rmmovq =>
    obtain ⟨a, ha⟩ := hfirst rfl
    obtain ⟨b, hb⟩ := hsecond rfl
    -- the operand's first byte is looked at before the register, and all eight by the store
    refine (m.effectiveAddress_ends (Or.inl hkind) hb).bind fun address haddress => ?_
    subst haddress
    refine (Ends.readRegister ha).bind fun value hvalue => ?_
    subst hvalue
    refine (Ends.writeQuad fun fault hstatus hroom => ?_).bind fun memory hstored => ?_
    · exact ⟨hstatus, .operand (Or.inl hkind) hb hroom⟩
    · exact .store hkind ha hb hstored
  case mrmovq =>
    obtain ⟨a, ha⟩ := hfirst rfl
    obtain ⟨b, hb⟩ := hsecond rfl
    -- as for a store; the register is written last
    refine (m.effectiveAddress_ends (Or.inr hkind) hb).bind fun address haddress => ?_
    subst haddress
    refine (Ends.readSigned fun fault hstatus hroom => ?_).bind fun value hloaded => ?_
    · exact ⟨hstatus, .operand (Or.inr hkind) hb hroom⟩
    · refine (Ends.writeRegister ha _).bind fun registers hregisters => ?_
      subst hregisters
      exact .load hkind ha hb hloaded
  case opq =>
    obtain ⟨a, ha⟩ := hfirst rfl
    obtain ⟨b, hb⟩ := hsecond rfl
    obtain ⟨f, hf⟩ := harithmetic rfl
    refine (Ends.readRegister ha).bind fun x hx => ?_
    subst hx
    refine (Ends.readRegister hb).bind fun y hy => ?_
    subst hy
    rw [hf]
    refine (Ends.writeRegister hb _).bind fun registers hregisters => ?_
    subst hregisters
    exact .compute hkind ha hb hf
  case jxx =>
    -- the destination is looked at whether the condition holds or not
    refine (Ends.requireTarget _ fun hout => ?_).bind fun _ htarget => ?_
    · have hnonneg := hdestination rfl
      exact ⟨rfl, .target (Or.inl hkind) (by omega)⟩
    · split
      case isTrue holds => exact .jump hkind holds htarget
      case isFalse fails => exact .noJump hkind (Bool.eq_false_iff.2 fails) htarget
  case call =>
    -- the destination comes first, so a call of an address outside memory leaves the stack alone
    refine (Ends.requireTarget _ fun hout => ?_).bind fun _ htarget => ?_
    · have hnonneg := hdestination rfl
      exact ⟨rfl, .target (Or.inr hkind) (by omega)⟩
    · refine (m.push_ends (Or.inr ⟨hkind, htarget.2⟩) rfl).bind ?_
      rintro pushed ⟨memory, hstored, rfl⟩
      exact .call hkind htarget hstored
  case ret =>
    have hstops : ∀ fault : Fault, fault.status? = some .adr → ¬m.memory.HasQuad m.rsp → m.StopsWith op ⟨fault, m⟩ :=
      fun fault hstatus hroom => ⟨hstatus, .pop (Or.inr hkind) hroom⟩
    refine (Ends.requireRoom _ hstops).bind fun _ _ => ?_
    refine (Ends.readQuad hstops).bind fun target hpopped => ?_
    -- the stack pointer has moved before the return address is looked at
    refine (Ends.requireTarget (m := m.moveStack 8) _ fun hout => ?_).bind fun _ htarget => ?_
    · have houtside : ¬(0 ≤ (target : Int) ∧ (target : Int) < m.memory.size) := hout
      exact ⟨rfl, .ret hkind hpopped (by omega)⟩
    · have hinside : (target : Int) < m.memory.size := htarget.2
      exact .ret hkind hpopped (by omega)
  case pushq =>
    obtain ⟨a, ha⟩ := hfirst rfl
    have hread : (m.moveStack (-8)).registers.read op.rA = .ok ((m.moveStack (-8)).registers.get a) := by
      rw [ha]
      rfl
    refine (m.push_ends (Or.inl hkind) hread).bind ?_
    rintro pushed ⟨memory, hstored, rfl⟩
    exact .push hkind ha hstored
  case popq =>
    obtain ⟨a, ha⟩ := hfirst rfl
    have hstops : ∀ fault : Fault, fault.status? = some .adr → ¬m.memory.HasQuad m.rsp → m.StopsWith op ⟨fault, m⟩ :=
      fun fault hstatus hroom => ⟨hstatus, .pop (Or.inl hkind) hroom⟩
    refine (Ends.requireRoom _ hstops).bind fun _ _ => ?_
    refine (Ends.readSigned hstops).bind fun value hpopped => ?_
    -- the register comes before the stack pointer, which may be the same
    refine (Ends.writeRegister ha _).bind fun registers hregisters => ?_
    subst hregisters
    exact .pop hkind ha hpopped

/-- How a step fails. -/
inductive Fails (m : Machine) : Failure → Prop where
  /-- The program counter is outside memory. -/
  | fetch {fault : Fault} (outside : ¬(0 ≤ m.pc ∧ m.pc < m.memory.size)) (status : fault.status? = some .adr) :
      m.Fails ⟨fault, m⟩
  /-- Nothing can be decoded at the program counter. -/
  | decode {fault : Fault} (undecoded : Operation.decode m.memory m.pc = .error fault) : m.Fails ⟨fault, m⟩
  /-- The decoded operation cannot be carried out. -/
  | execute {op : Operation} {e : Failure} (decoded : Operation.decode m.memory m.pc = .ok op)
      (stops : m.StopsWith op e) : m.Fails e

/-- A step carries out the operation at the program counter, or fails. -/
theorem step_ends (m : Machine) :
    Ends m.step (fun x => Operation.decode m.memory m.pc = .ok x.1 ∧ m.Effect x.1 x.2) m.Fails := by
  unfold step
  refine (Ends.requireTarget _ fun hout => .fetch hout rfl).bind fun _ _ => ?_
  cases hdecode : Operation.decode m.memory m.pc with
  | error fault => exact .decode hdecode
  | ok op =>
    have hexecute := execute_ends (Operation.wellFormed_of_decode hdecode) m
    change Ends (execute op m >>= fun next => .ok (op, next)) _ _
    cases he : execute op m with
    | ok next => rw [he] at hexecute; exact ⟨rfl, hexecute⟩
    | error e => rw [he] at hexecute; exact .execute hdecode hexecute

/-- **A step that succeeds** has decoded an operation and done what its class does. -/
theorem effect_of_step {m next : Machine} (h : m.step = .ok (op, next)) :
    Operation.decode m.memory m.pc = .ok op ∧ m.Effect op next := by
  have hends := m.step_ends
  rw [h] at hends
  exact hends

/-- **A step that fails** has not decoded one, or was stopped in its execution. -/
theorem fails_of_step {m : Machine} {e : Failure} (h : m.step = .error e) : m.Fails e := by
  have hends := m.step_ends
  rw [h] at hends
  exact hends

/-! ### What a step does to memory -/

/-- `n` has the memory of `m`, or that memory with one word stored. -/
def Stores (m n : Machine) : Prop :=
  n.memory = m.memory ∨ ∃ address value, m.memory.writeQuad address value = .ok n.memory

/-- A failure that leaves the memory of `m` as it is. -/
def Keeps (m : Machine) (e : Failure) : Prop := e.machine.memory = m.memory

/-- A step makes one store, or none. -/
theorem Effect.stores {m next : Machine} (h : m.Effect op next) : m.Stores next := by
  cases h with
  | store _ _ _ stored => exact Or.inr ⟨_, _, stored⟩
  | call _ _ stored => exact Or.inr ⟨_, _, stored⟩
  | push _ _ stored => exact Or.inr ⟨_, _, stored⟩
  | _ => exact Or.inl rfl

/-- A store that fails comes last, so at most the stack pointer has moved. -/
theorem Stops.memory {m left : Machine} (h : m.Stops op left) : left.memory = m.memory := by cases h <;> rfl

/-- A step that fails keeps all but the stack pointer. -/
theorem Fails.keeps {m : Machine} {e : Failure} (h : m.Fails e) : m.Keeps e := by
  cases h with
  | fetch outside status => rfl
  | decode undecoded => rfl
  | execute decoded stops => exact stops.2.memory

/-- A step stores at most one word, and none if it fails. -/
theorem step_stores (m : Machine) : Ends m.step (fun x => m.Stores x.2) m.Keeps :=
  m.step_ends.imp (fun _ h => h.2.stores) fun _ h => h.keeps

end Machine

end Y86
