import Y86.Proofs.Arithmetic
import Y86.Proofs.Machine.Frame
import Y86.Proofs.Machine.Registers
import Y86.Proofs.Machine.Steps

/-!
# The stack

Pushes that are followed by pops in the reverse order give every register back (`Machine.stack_lifo`). The proof is by
induction on the list of registers, from the outside to the inside: between a push and the pop that belongs to it there
is a shorter list of pushes and pops, which works on the stack below the pushed word. So it finds its code where it was,
leaves the word alone, and gives the registers back with which it has started (`Machine.exists_balanced`).

The stack pointer itself is no such register. A push stores it when it has been lowered already, and a pop raises it when
the value has been stored; a push and a pop of the stack pointer still give it back, since both of them are one word off
(`Machine.step_push_pop_rsp`).
-/

namespace Y86

/-! ### Pushes and pops in memory -/

/-- A push or a pop of a register. -/
inductive StackInstruction where
  | push (r : Register)
  | pop (r : Register)
  deriving DecidableEq, Repr

namespace StackInstruction

def kind : StackInstruction → InstructionClass
  | push _ => .pushq
  | pop _ => .popq

def register : StackInstruction → Register
  | push r => r
  | pop r => r

def opcode : StackInstruction → UInt8
  | push _ => 0xA0
  | pop _ => 0xB0

/-- The registers are pushed one after the other, and popped in the reverse order. -/
def roundTrip (rs : List Register) : List StackInstruction := rs.map push ++ rs.reverse.map pop

variable {i : StackInstruction} {r : Register} {rs : List Register}

/-- The opcode of a push or a pop names its class. -/
theorem opcode_div : (i.opcode / 16).toNat = i.kind.code := by
  cases i with
  | push r => show ((0xA0 : UInt8) / 16).toNat = 10; decide
  | pop r => show ((0xB0 : UInt8) / 16).toNat = 11; decide

/-- It has no function code. -/
theorem opcode_mod : i.opcode % 16 = 0 := by
  cases i with
  | push r => show (0xA0 : UInt8) % 16 = 0; decide
  | pop r => show (0xB0 : UInt8) % 16 = 0; decide

/-- Each register is pushed once and popped once. -/
@[simp] theorem length_roundTrip : (roundTrip rs).length = 2 * rs.length := by
  simp only [roundTrip, List.length_append, List.length_map, List.length_reverse]
  omega

/-- The first register is pushed first and popped last. -/
theorem roundTrip_cons : roundTrip (r :: rs) = push r :: (roundTrip rs ++ [pop r]) := by
  simp only [roundTrip, List.map_cons, List.reverse_cons, List.map_append, List.map_nil, List.cons_append, List.append_assoc]

end StackInstruction

namespace Memory

/-- The two bytes from an address on encode a push or a pop. The lower half of the second byte does not matter. -/
def Encodes (m : Memory) (address : Int) (i : StackInstruction) : Prop :=
  ∃ fields, m.read address = .ok i.opcode ∧ m.read (address + 1) = .ok fields ∧
    (fields / 16).toNat = i.register.index

/-- The bytes from an address on encode pushes and pops, one behind the other. -/
def HasCode (m : Memory) (address : Int) : List StackInstruction → Prop
  | [] => True
  | i :: is => m.Encodes address i ∧ m.HasCode (address + 2) is

variable {m n : Memory} {address : Int} {i : StackInstruction} {xs ys : List StackInstruction}

/-- An instruction is there if both of its bytes are. -/
theorem encodes_iff :
    m.Encodes address i ↔ (0 ≤ address ∧ address + 1 < m.size) ∧ m.byteAt address.toNat = i.opcode ∧
      (m.byteAt (address + 1).toNat / 16).toNat = i.register.index := by
  unfold Encodes
  constructor
  · rintro ⟨fields, hopcode, hfields, hregister⟩
    obtain ⟨hinside, hopcode⟩ := read_eq_ok_iff.1 hopcode
    obtain ⟨hinside', rfl⟩ := read_eq_ok_iff.1 hfields
    exact ⟨⟨hinside.1, hinside'.2⟩, hopcode.symm, hregister⟩
  · rintro ⟨⟨hpos, hlt⟩, hopcode, hregister⟩
    exact ⟨_, read_eq_ok_iff.2 ⟨⟨hpos, by omega⟩, hopcode.symm⟩, read_eq_ok_iff.2 ⟨⟨by omega, hlt⟩, rfl⟩, hregister⟩

instance : Decidable (m.Encodes address i) := decidable_of_iff _ encodes_iff.symm

instance decidableHasCode (m : Memory) : (address : Int) → (is : List StackInstruction) → Decidable (m.HasCode address is)
  | _, [] => inferInstanceAs (Decidable True)
  | address, _ :: is => @instDecidableAnd _ _ _ (m.decidableHasCode (address + 2) is)

/-- Code is there if both parts are, one behind the other. -/
theorem hasCode_append :
    m.HasCode address (xs ++ ys) ↔ m.HasCode address xs ∧ m.HasCode (address + 2 * xs.length) ys := by
  induction xs generalizing address with
  | nil => simp [HasCode]
  | cons x xs ih =>
    have hbehind : address + 2 + 2 * (xs.length : Int) = address + 2 * ((x :: xs).length : Int) := by
      rw [List.length_cons]
      omega
    simp only [List.cons_append, HasCode, ih, hbehind, and_assoc]

/-- A byte that a store has left alone is read as before. -/
theorem read_eq_of_bytes (hsize : n.size = m.size) (hbyte : n.byteAt address.toNat = m.byteAt address.toNat)
    {byte : UInt8} (h : m.read address = .ok byte) : n.read address = .ok byte := by
  rw [read_eq_ok_iff] at *
  rwa [hsize, hbyte]

/-- Code is still there if none of its bytes has changed. -/
theorem HasCode.of_bytes (hsize : n.size = m.size)
    (hbytes : ∀ j : Nat, address ≤ j → (j : Int) < address + 2 * xs.length → n.byteAt j = m.byteAt j)
    (h : m.HasCode address xs) : n.HasCode address xs := by
  induction xs generalizing address with
  | nil => trivial
  | cons x xs ih =>
    obtain ⟨⟨fields, hopcode, hfields, hregister⟩, hrest⟩ := h
    rw [List.length_cons] at hbytes
    have hpos := (read_eq_ok_iff.1 hopcode).1.1
    refine ⟨⟨fields, ?_, ?_, hregister⟩, ih (fun j hlo hhi => hbytes j (by omega) (by omega)) hrest⟩
    · exact read_eq_of_bytes hsize (hbytes _ (by omega) (by omega)) hopcode
    · exact read_eq_of_bytes hsize (hbytes _ (by omega) (by omega)) hfields

end Memory

namespace Operation

variable {m : Memory} {pc : Int} {i : StackInstruction} {op : Operation}

/-- What is there is decoded as the push or pop that it is. -/
theorem exists_of_encodes (h : m.Encodes pc i) :
    ∃ op, decode m pc = .ok op ∧ op.kind = i.kind ∧ op.rA = some i.register ∧ op.length = 2 := by
  obtain ⟨fields, hopcode, hfields, hregister⟩ := h
  -- pushes and pops have one layout: a register in the first field, and nothing else
  have hlayout : i.kind.layout = { first := true } := by cases i <;> rfl
  have hkind : InstructionClass.ofCode? (i.opcode / 16).toNat = some i.kind := by
    rw [StackInstruction.opcode_div, InstructionClass.ofCode?_code]
  have hfunction : i.kind.layout.checkFunction i.opcode = .ok () := by
    rw [hlayout]
    unfold Layout.checkFunction
    rw [StackInstruction.opcode_mod]
    rfl
  have hregisters : decodeRegisters i.kind.layout m pc = .ok (some i.register, none) := by
    have hfield : decodeRegister true (fields / 16) = .ok (some i.register) := by
      unfold decodeRegister
      rw [hregister, Register.ofCode?_index]
      rfl
    rw [hlayout]
    unfold decodeRegisters
    rw [hfields]
    change (decodeRegister true (fields / 16) >>= _) = _
    rw [hfield]
    rfl
  have hconstant : decodeConstant i.kind.layout m pc = .ok 0 := by
    rw [hlayout]
    rfl
  obtain ⟨op, hdecode, hop, hrA, -, -⟩ := decode_of_parts hopcode hkind hfunction hregisters hconstant
  refine ⟨op, hdecode, hop, hrA, ?_⟩
  rw [(wellFormed_of_decode hdecode).length, hop, hlayout]
  rfl

end Operation

namespace Machine

variable {m a b n next : Machine} {op : Operation} {r : Register} {rs : List Register} {memory : Memory} {value : Int}

/-! ### One push and one pop -/

/-- The machine behind a push that leaves the given memory. -/
def pushed (m : Machine) (memory : Memory) : Machine := { m.moveStack (-8) with pc := m.pc + 2, memory }

/-- The machine behind a pop of the given value. -/
def popped (m : Machine) (r : Register) (value : Int) : Machine :=
  { (m.setRegister r value).moveStack 8 with pc := m.pc + 2 }

/-- A push writes no register but the stack pointer. -/
theorem get_pushed_of_ne (hr : r ≠ .rsp) : (m.pushed memory).registers.get r = m.registers.get r :=
  get_moveStack_of_ne hr m (-8)

theorem rsp_pushed : (m.pushed memory).rsp = Word.signed (m.rsp - 8) := m.rsp_lowered

/-- A push or a pop that is in memory is carried out, unless an address is out of bounds. -/
theorem exists_step_of_encodes {i : StackInstruction} (h : m.memory.Encodes m.pc i)
    (hfree : ∀ op : Operation, op.kind = i.kind → ¬m.Blocked op) :
    ∃ op next, m.step = .ok (op, next) ∧ m.Effect op next ∧ op.kind = i.kind ∧ op.rA = some i.register ∧ op.length = 2 := by
  obtain ⟨op, hdecode, hkind, hrA, hlength⟩ := Operation.exists_of_encodes h
  obtain ⟨next, hstep, heffect⟩ := exists_step_of_not_blocked hdecode (hfree op hkind)
  exact ⟨op, next, hstep, heffect, hkind, hrA, hlength⟩

/-- **Push.** A push with room for a word stores the register below the stack pointer. -/
theorem step_push (h : m.memory.Encodes m.pc (.push r)) (hroom : m.memory.HasQuad (Word.signed (m.rsp - 8))) :
    ∃ op memory, m.memory.Stored (Word.signed (m.rsp - 8)) ((m.moveStack (-8)).registers.get r) memory ∧
      m.step = .ok (op, m.pushed memory) := by
  -- a push is blocked by a missing room only
  have hfree : ∀ op : Operation, op.kind = .pushq → ¬m.Blocked op := by
    intro op hkind hblocked
    cases hblocked with
    | push kind noRoom => exact noRoom hroom
    | _ => simp_all
  obtain ⟨op, next, hstep, heffect, hkind, hrA, hlength⟩ := exists_step_of_encodes h hfree
  change op.kind = .pushq at hkind
  cases heffect with
  | push kind rA stored =>
    obtain rfl := Option.some.inj (rA.symm.trans hrA)
    -- the word is stored where the stack pointer is afterwards
    rw [rsp_lowered] at stored
    refine ⟨op, _, Memory.stored_of_writeQuad stored, ?_⟩
    rw [hstep, advance, hlength]
    rfl
  | _ => simp_all

/-- **Pop.** A pop reads the word at the stack pointer, and then moves that. -/
theorem step_pop (h : m.memory.Encodes m.pc (.pop r)) (hvalue : m.memory.readSigned m.rsp = .ok value) :
    ∃ op, m.step = .ok (op, m.popped r value) := by
  -- a pop is blocked by a missing word only
  have hfree : ∀ op : Operation, op.kind = .popq → ¬m.Blocked op := by
    intro op hkind hblocked
    cases hblocked with
    | pop kind noRoom =>
      obtain ⟨word, hword, -⟩ := Memory.readSigned_eq_ok_iff.1 hvalue
      exact noRoom (Memory.readQuad_eq_ok_iff.1 hword).1
    | _ => simp_all
  obtain ⟨op, next, hstep, heffect, hkind, hrA, hlength⟩ := exists_step_of_encodes h hfree
  change op.kind = .popq at hkind
  cases heffect with
  | pop kind rA popped =>
    obtain rfl := Option.some.inj (rA.symm.trans hrA)
    obtain rfl := Except.ok.inj (popped.symm.trans hvalue)
    refine ⟨op, ?_⟩
    rw [hstep, advance, hlength]
    rfl
  | _ => simp_all

/-- The stack pointer goes down and up by one word. -/
theorem registers_moveStack : ((m.moveStack (-8)).moveStack 8).registers = m.registers := by
  refine RegisterFile.ext_get fun s => ?_
  by_cases hs : s = .rsp
  · subst hs
    calc ((m.moveStack (-8)).moveStack 8).rsp
      _ = Word.signed (Word.signed (m.rsp + -8) + 8) := by rw [rsp_moveStack, rsp_moveStack]
      _ = Word.signed m.rsp := by rw [Word.signed_signed_add, Int.neg_add_cancel_right]
      _ = m.rsp := Word.signed_of_inRange (m.registers.get_inRange .rsp)
  · rw [get_moveStack_of_ne hs, get_moveStack_of_ne hs]

/-- A push of any register is undone by a pop that finds the value which the register has by then. -/
theorem registers_popped (hb : b.registers = (m.pushed memory).registers) :
    (b.popped r (b.registers.get r)).registers = m.registers := by
  have hsame : (b.setRegister r (b.registers.get r)).registers = (m.moveStack (-8)).registers :=
    (b.registers.set_get_self r).trans hb
  calc (b.popped r (b.registers.get r)).registers
    _ = ((b.setRegister r (b.registers.get r)).moveStack 8).registers := rfl
    _ = ((m.moveStack (-8)).moveStack 8).registers := by simp only [moveStack, rsp, hsame]
    _ = m.registers := registers_moveStack

/-- A push and a pop of the stack pointer, if the push does not overwrite the pop. -/
theorem step_push_pop_rsp (hpush : m.memory.Encodes m.pc (.push .rsp)) (hstep : m.step = .ok (op, a))
    (hpop : a.memory.Encodes a.pc (.pop .rsp)) :
    ∃ pop n, a.step = .ok (pop, n) ∧ n.pc = m.pc + 4 ∧ n.registers = m.registers ∧ n.flags = m.flags ∧
      n.memory = a.memory := by
  obtain ⟨op', hdecode, hkind, hrA, hlength⟩ := Operation.exists_of_encodes hpush
  obtain ⟨hdecode', heffect⟩ := effect_of_step hstep
  obtain rfl : op = op' := Except.ok.inj (hdecode'.symm.trans hdecode)
  change op.kind = .pushq at hkind
  cases heffect with
  | @push r memory kind rA stored =>
    obtain rfl : r = .rsp := Option.some.inj (rA.symm.trans hrA)
    have hpushed : ({ m.moveStack (-8) with memory }.advance op : Machine) = m.pushed memory := by
      rw [advance, hlength]
      rfl
    rw [hpushed] at hpop ⊢
    -- the word on the stack is the stack pointer that points to it
    have hvalue : memory.readSigned (m.pushed memory).rsp = .ok (m.pushed memory).rsp := by
      have hback := (Memory.stored_of_writeQuad stored).readSigned_eq
      rwa [Word.signed_of_inRange ((m.moveStack (-8)).registers.get_inRange .rsp)] at hback
    obtain ⟨pop, hpopped⟩ := step_pop hpop hvalue
    refine ⟨pop, _, hpopped, ?_, registers_popped rfl, rfl, rfl⟩
    show m.pc + 2 + 2 = m.pc + 4
    omega
  | _ => simp_all

/-! ### Any number of pushes and pops -/

/-- A machine in front of a round trip of registers, with room on the stack for their words, and the words are stored
apart from the code. -/
structure Ready (m : Machine) (rs : List Register) : Prop where
  registers : .rsp ∉ rs
  code : m.memory.HasCode m.pc (StackInstruction.roundTrip rs)
  low : 0 ≤ m.rsp - 8 * rs.length
  high : m.rsp ≤ m.memory.size
  apart : ∀ j, m.pc ≤ j → j < m.pc + 4 * rs.length → ¬(m.rsp - 8 * rs.length ≤ j ∧ j < m.rsp)

/-- What a round trip of registers makes of a machine: it gives all registers back, and leaves nothing but their words
below the stack pointer. -/
structure Balanced (m n : Machine) (rs : List Register) : Prop where
  pc : n.pc = m.pc + 4 * rs.length
  registers : n.registers = m.registers
  flags : n.flags = m.flags
  status : n.status = m.status
  cycle : n.cycle = m.cycle
  size_eq : n.memory.size = m.memory.size
  /-- The first register's word is next to the old stack pointer. -/
  words : ∀ (i : Nat) (r : Register), rs[i]? = some r →
    n.memory.readSigned (m.rsp - 8 * (i + 1)) = .ok (m.registers.get r)
  outside : ∀ j : Nat, ¬(m.rsp - 8 * rs.length ≤ j ∧ (j : Int) < m.rsp) → n.memory.byteAt j = m.memory.byteAt j

/-- With room below it the stack pointer does not wrap. -/
theorem signed_rsp_sub (hlow : 0 ≤ m.rsp - 8) : Word.signed (m.rsp - 8) = m.rsp - 8 := by
  have hrange : Word.InRange m.rsp := m.registers.get_inRange .rsp
  apply Word.signed_of_inRange
  unfold Word.InRange at hrange ⊢
  omega

/-- The first push of a round trip leads in front of the shorter round trip, with the last pop behind it. -/
theorem Ready.push (h : m.Ready (r :: rs)) :
    ∃ op memory, m.step = .ok (op, m.pushed memory) ∧ (m.pushed memory).rsp = m.rsp - 8 ∧
      m.memory.Stored (m.rsp - 8) (m.registers.get r) memory ∧ (m.pushed memory).Ready rs ∧
      memory.HasCode (m.pc + 2 + 4 * rs.length) [.pop r] := by
  obtain ⟨hregisters, hcode, hlow, hhigh, hapart⟩ := h
  rw [List.length_cons] at hlow hapart
  rw [StackInstruction.roundTrip_cons] at hcode
  obtain ⟨hpush, hrest⟩ := hcode
  have hsigned : Word.signed (m.rsp - 8) = m.rsp - 8 := signed_rsp_sub (by omega)
  have hroom : m.memory.HasQuad (Word.signed (m.rsp - 8)) := by
    rw [hsigned]
    unfold Memory.HasQuad Memory.wordSize
    omega
  obtain ⟨op, memory, hstored, hstep⟩ := step_push hpush hroom
  have hrsp : (m.pushed memory).rsp = m.rsp - 8 := by rw [rsp_pushed, hsigned]
  rw [hsigned, get_moveStack_of_ne (List.ne_of_not_mem_cons hregisters).symm] at hstored
  -- the word lies apart from the code behind the push
  have hcode : memory.HasCode (m.pc + 2) (StackInstruction.roundTrip rs ++ [.pop r]) := by
    refine hrest.of_bytes hstored.size_eq fun j hlo hhi => hstored.outside j ?_
    rw [List.length_append, StackInstruction.length_roundTrip, List.length_singleton] at hhi
    have hj := hapart j (by omega) (by omega)
    unfold Memory.wordSize
    omega
  obtain ⟨hmiddle, hlast⟩ := Memory.hasCode_append.1 hcode
  have hready : (m.pushed memory).Ready rs :=
    { registers := List.not_mem_of_not_mem_cons hregisters
      code := hmiddle
      low := by
        rw [hrsp]
        omega
      high := by
        show _ ≤ (memory.size : Int)
        rw [hrsp, hstored.size_eq]
        omega
      apart := by
        intro j hlo hhi
        change m.pc + 2 ≤ j at hlo
        change j < m.pc + 2 + 4 * rs.length at hhi
        have hj := hapart j (by omega) (by omega)
        rw [hrsp]
        omega }
  refine ⟨op, memory, hstep, hrsp, hstored, hready, ?_⟩
  have hend : m.pc + 2 + 2 * ((StackInstruction.roundTrip rs).length : Int) = m.pc + 2 + 4 * rs.length := by
    rw [StackInstruction.length_roundTrip]
    omega
  rwa [hend] at hlast

/-- No pushes and no pops leave everything as it is. -/
theorem Balanced.refl (m : Machine) : m.Balanced m [] where
  pc := by simp
  registers := rfl
  flags := rfl
  status := rfl
  cycle := rfl
  size_eq := rfl
  words := by simp
  outside := fun _ _ => rfl

section Nesting

variable (hrsp : (m.pushed memory).rsp = m.rsp - 8) (hstored : m.memory.Stored (m.rsp - 8) (m.registers.get r) memory)
  (hinner : (m.pushed memory).Balanced b rs)

include hrsp hstored hinner

/-- What is carried out below a pushed word leaves it alone. -/
theorem Balanced.readSigned_pushed : b.memory.readSigned (m.rsp - 8) = .ok (m.registers.get r) := by
  have hkept : b.memory.readSigned (m.rsp - 8) = memory.readSigned (m.rsp - 8) := by
    refine Memory.readSigned_eq_of_bytes hinner.size_eq fun j hlo _ => ?_
    exact hinner.outside j (by omega)
  rw [hkept, hstored.readSigned_eq, Word.signed_of_inRange (m.registers.get_inRange r)]

/-- A round trip between a push and a pop of one more register is a round trip. -/
theorem Balanced.cons (hrs : .rsp ∉ r :: rs) : m.Balanced (b.popped r (m.registers.get r)) (r :: rs) where
  pc := by
    have hpc : b.pc = m.pc + 2 + 4 * rs.length := hinner.pc
    show b.pc + 2 = _
    rw [hpc, List.length_cons]
    omega
  registers := by
    -- the register still has the value that was pushed
    have hvalue : m.registers.get r = b.registers.get r := by
      rw [hinner.registers, get_pushed_of_ne (List.ne_of_not_mem_cons hrs).symm]
    rw [hvalue]
    exact registers_popped hinner.registers
  flags := hinner.flags
  status := hinner.status
  cycle := hinner.cycle
  size_eq := hinner.size_eq.trans hstored.size_eq
  words := by
    intro i s hs
    show b.memory.readSigned _ = _
    cases i with
    | zero =>
      obtain rfl : r = s := by simpa using hs
      simpa using hinner.readSigned_pushed hrsp hstored
    | succ i =>
      have hs : rs[i]? = some s := by simpa using hs
      have hne : s ≠ .rsp := by
        rintro rfl
        exact List.not_mem_of_not_mem_cons hrs (List.mem_of_getElem? hs)
      have haddress : m.rsp - 8 - 8 * ((i : Int) + 1) = m.rsp - 8 * (((i + 1 : Nat) : Int) + 1) := by omega
      rw [← haddress, ← hrsp, hinner.words i s hs, get_pushed_of_ne hne]
  outside := by
    intro j hj
    rw [List.length_cons] at hj
    have hinside : ¬(m.rsp - 8 ≤ j ∧ (j : Int) < m.rsp - 8 + Memory.wordSize) := by
      unfold Memory.wordSize
      omega
    calc b.memory.byteAt j
      _ = memory.byteAt j := hinner.outside j (by omega)
      _ = m.memory.byteAt j := hstored.outside j hinside

end Nesting

/-- **Round trips.** Where there is code and room, all registers are popped as they were pushed. The induction is on the
registers: the outer pair stands around the round trip of the others. -/
theorem exists_balanced (h : m.Ready rs) : ∃ n, m.Steps (2 * rs.length) n ∧ m.Balanced n rs := by
  induction rs generalizing m with
  | nil => exact ⟨m, .refl m, .refl m⟩
  | cons r rs ih =>
    obtain ⟨push, memory, hpush, hrsp, hstored, hready, hlast⟩ := h.push
    obtain ⟨b, hsteps, hinner⟩ := ih hready
    -- the pop is still in memory, and finds the word of its push
    have hpop : b.memory.HasCode b.pc [.pop r] := by
      have hback : b.pc = m.pc + 2 + 4 * rs.length := hinner.pc
      rw [hback]
      refine hlast.of_bytes hinner.size_eq fun j hlo hhi => hinner.outside j ?_
      rw [List.length_singleton] at hhi
      have hj := h.apart j (by omega) (by rw [List.length_cons]; omega)
      rw [List.length_cons] at hj
      rw [hrsp]
      omega
    have hvalue : b.memory.readSigned b.rsp = .ok (m.registers.get r) := by
      have hback : b.rsp = m.rsp - 8 := by
        rw [rsp, hinner.registers]
        exact hrsp
      rw [hback]
      exact hinner.readSigned_pushed hrsp hstored
    obtain ⟨pop, hpopped⟩ := step_pop hpop.1 hvalue
    refine ⟨_, ?_, hinner.cons hrsp hstored h.registers⟩
    -- one step, the steps of the shorter round trip, and one step
    have hall := (Steps.single hpush).trans (hsteps.trans (.single hpopped))
    have hcount : 1 + (2 * rs.length + 1) = 2 * (r :: rs).length := by
      rw [List.length_cons]
      omega
    rwa [hcount] at hall

/-- **The stack is last in, first out.** Any number of registers that are pushed and then popped in the reverse order
come back, if there is room for them and their words do not meet the code. So does the stack pointer when it is pushed
itself and popped by the instruction behind. -/
theorem stack_lifo :
    (∀ (m : Machine) (rs : List Register), m.Ready rs → ∃ n, m.Steps (2 * rs.length) n ∧ m.Balanced n rs) ∧
    (∀ (m a : Machine) (push : Operation), m.memory.Encodes m.pc (.push .rsp) → m.step = .ok (push, a) →
      a.memory.Encodes a.pc (.pop .rsp) →
      ∃ pop n, a.step = .ok (pop, n) ∧ n.rsp = m.rsp ∧ n.registers = m.registers ∧ n.pc = m.pc + 4) := by
  constructor
  · intro m rs hready
    exact exists_balanced hready
  · intro m a push hpush hstep hpop
    obtain ⟨pop, n, hpopped, hpc, hregisters, -⟩ := step_push_pop_rsp hpush hstep hpop
    refine ⟨pop, n, hpopped, ?_, hregisters, hpc⟩
    rw [rsp, rsp, hregisters]

/-- Three registers, one of them twice, at the odd top of memory; and the stack pointer. -/
theorem stack_lifo_unaligned :
    (let m : Machine :=
      { registers := ((RegisterFile.zeros.set .rsp 37).set .rax 7).set .rbx (-1)
        memory := (Memory.zeros 37 (by decide)).lay 0 [0xA0, 0x0F, 0xA0, 0x35, 0xA0, 0x0F, 0xB0, 0x0F, 0xB0, 0x3F, 0xB0, 0x0F] }
      ∃ n, m.Ready [.rax, .rbx, .rax] ∧ m.Steps 6 n ∧ m.Balanced n [.rax, .rbx, .rax] ∧
        n.memory.readSigned 21 = .ok (-1)) ∧
    (let m : Machine :=
      { registers := RegisterFile.zeros.set .rsp 21
        memory := (Memory.zeros 24 (by decide)).lay 0 [0xA0, 0x4F, 0xB0, 0x4F] }
      ∃ push a pop n, m.step = .ok (push, a) ∧ a.rsp = 13 ∧ a.step = .ok (pop, n) ∧ n.rsp = 21) := by
  constructor
  · intro m
    have hrsp : m.rsp = 37 := by decide +kernel
    have hready : m.Ready [.rax, .rbx, .rax] :=
      { registers := by decide
        code := by decide +kernel
        low := by
          rw [hrsp]
          decide
        high := by
          rw [hrsp]
          decide
        -- the code ends at 12, and the lowest word pushed begins at 13
        apart := by
          intro j hlo hhi
          rw [hrsp]
          change 0 ≤ j at hlo
          change j < 0 + 12 at hhi
          simp only [List.length_cons, List.length_nil]
          omega }
    obtain ⟨n, hsteps, hbalanced⟩ := stack_lifo.1 m _ hready
    -- the second word pushed is that of `rbx`, and it is read at an odd address
    have hword := hbalanced.words 1 .rbx rfl
    rw [hrsp] at hword
    have hrbx : m.registers.get .rbx = -1 := by decide +kernel
    rw [hrbx] at hword
    exact ⟨n, hready, hsteps, hbalanced, hword⟩
  · intro m
    -- pushing and popping the stack pointer itself brings it back
    have hvalues : (m.step.toOption.map fun x => (x.2.rsp, decide (x.2.memory.Encodes x.2.pc (.pop .rsp))))
        = some (13, true) := by
      decide +kernel
    have hrsp : m.rsp = 21 := by decide +kernel
    cases hstep : m.step with
    | error e => rw [hstep] at hvalues; cases hvalues
    | ok x =>
      obtain ⟨push, a⟩ := x
      rw [hstep] at hvalues
      simp only [Except.toOption, Option.map_some, Option.some.injEq, Prod.mk.injEq, decide_eq_true_eq] at hvalues
      obtain ⟨hlowered, hpop⟩ := hvalues
      obtain ⟨pop, n, hpopped, hback, -⟩ := stack_lifo.2 m a push (by decide +kernel) hstep hpop
      exact ⟨push, a, pop, n, rfl, hlowered, hpopped, hback.trans hrsp⟩

end Machine

end Y86
