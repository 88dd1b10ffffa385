import Y86.Machine.Execute
import Y86.Proofs.Memory.View

/-!
# Outcomes of an execution

Carrying out an instruction ends with a result, or with a failure that holds the machine as it was left. Two readings
of such an outcome serve the proofs about execution, and each goes through a sequence of parts by one lemma:

* `Ends x P Q`: a result satisfies `P` and a failure satisfies `Q` (`Ends.bind`);
* `Alike R x y`: two outcomes are both results, related by `R`, or both failures, with one fault and with machines
  that a program cannot tell apart (`Alike.bind`).

A program cannot tell machines apart that agree on program counter, registers, flags and the bytes of memory
(`Machine.Agrees`): status, cycle and the record of touched words are there for whoever drives the machine.
-/

namespace Y86

variable {α β : Type}

/-! ### What an outcome satisfies -/

/-- A result satisfies `P`, and a failure satisfies `Q`. -/
def Ends (x : Except Failure α) (P : α → Prop) (Q : Failure → Prop) : Prop :=
  match x with
  | .ok v => P v
  | .error e => Q e

namespace Ends

theorem bind {x : Except Failure α} {f : α → Except Failure β} {P : α → Prop} {P' : β → Prop} {Q : Failure → Prop}
    (hx : Ends x P Q) (hf : ∀ v, P v → Ends (f v) P' Q) : Ends (x >>= f) P' Q := by
  cases x with
  | ok v => exact hf v hx
  | error e => exact hx

theorem imp {x : Except Failure α} {P P' : α → Prop} {Q Q' : Failure → Prop} (h : Ends x P Q) (hP : ∀ v, P v → P' v)
    (hQ : ∀ e, Q e → Q' e) : Ends x P' Q' := by
  cases x with
  | ok v => exact hP v h
  | error e => exact hQ e h

end Ends

/-! ### Machines that a program cannot tell apart -/

/-- Agreement on all that an instruction can read. -/
structure Machine.Agrees (a b : Machine) : Prop where
  pc : a.pc = b.pc
  registers : a.registers = b.registers
  flags : a.flags = b.flags
  bytes : a.memory.bytes = b.memory.bytes

theorem Machine.Agrees.refl (a : Machine) : a.Agrees a := ⟨rfl, rfl, rfl, rfl⟩

theorem Machine.Agrees.trans {a b c : Machine} (h : a.Agrees b) (h' : b.Agrees c) : a.Agrees c :=
  ⟨h.pc.trans h'.pc, h.registers.trans h'.registers, h.flags.trans h'.flags, h.bytes.trans h'.bytes⟩

/-- Two outcomes that a program cannot tell apart. -/
def Alike (R : α → α → Prop) : Except Failure α → Except Failure α → Prop
  | .ok v, .ok w => R v w
  | .error e, .error f => e.fault = f.fault ∧ e.machine.Agrees f.machine
  | .ok _, .error _ => False
  | .error _, .ok _ => False

theorem Alike.bind {R : α → α → Prop} {S : β → β → Prop} {x y : Except Failure α} {f g : α → Except Failure β}
    (h : Alike R x y) (hf : ∀ v w, R v w → Alike S (f v) (g w)) : Alike S (x >>= f) (y >>= g) := by
  cases x with
  | ok v =>
    cases y with
    | ok w => exact hf v w h
    | error e => exact False.elim h
  | error e =>
    cases y with
    | ok w => exact False.elim h
    | error e' => exact h

end Y86
