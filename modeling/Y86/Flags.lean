/-!
# Flags and conditions

Three flags remember the last arithmetic result, and seven conditions read them. Moves and jumps carry the code
of a condition; a code that names none never holds.
-/

namespace Y86

/-- The flags that arithmetic sets. -/
structure Flags where
  /-- The result was zero. -/
  zero : Bool := true
  /-- The result was negative. -/
  sign : Bool := false
  /-- The exact result did not fit. -/
  overflow : Bool := false
  deriving DecidableEq, Repr, Inhabited

namespace Flags

/-- The names of the flags with their values, in the order of display. -/
def named (f : Flags) : List (String × Bool) := [("ZF", f.zero), ("SF", f.sign), ("OF", f.overflow)]

end Flags

/-- A condition on the flags, in the order of the codes. -/
inductive Condition where
  | always | le | l | e | ne | ge | g
  deriving DecidableEq, Repr

namespace Condition

def all : List Condition := [always, le, l, e, ne, ge, g]

def code : Condition → Nat
  | always => 0 | le => 1 | l => 2 | e => 3 | ne => 4 | ge => 5 | g => 6

def ofCode? (code : Int) : Option Condition := if 0 ≤ code then all[code.toNat]? else none

def name : Condition → String
  | always => "YES" | le => "LE" | l => "L" | e => "E" | ne => "NE" | ge => "GE" | g => "G"

/-- The letters that a condition adds to a mnemonic. -/
def suffix : Condition → String
  | always => "" | le => "le" | l => "l" | e => "e" | ne => "ne" | ge => "ge" | g => "g"

/-- Whether the flags satisfy a condition. After a comparison the sign flag differs from the overflow flag
exactly when the exact difference is negative. -/
def holds (flags : Flags) : Condition → Bool
  | always => true
  | le => (flags.sign != flags.overflow) || flags.zero
  | l => flags.sign != flags.overflow
  | e => flags.zero
  | ne => !flags.zero
  | ge => flags.sign == flags.overflow
  | g => !flags.zero && flags.sign == flags.overflow

/-- Whether the condition with a code is satisfied; a code that names no condition never is. -/
def codeHolds (code : Int) (flags : Flags) : Bool := (ofCode? code).any (·.holds flags)

theorem ofCode?_code (c : Condition) : ofCode? c.code = some c := by cases c <;> rfl

/-- A condition that is given by its code is the condition. -/
@[simp] theorem codeHolds_code (c : Condition) (flags : Flags) : codeHolds c.code flags = c.holds flags := by
  rw [codeHolds, ofCode?_code]
  rfl

end Condition

end Y86
