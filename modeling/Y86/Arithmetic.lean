import Y86.Flags
import Y86.Word

/-!
# Arithmetic

Four functions on words. Addition and subtraction report whether the exact result fits; subtraction negates
first and adds then, so it reports the overflow of that addition. The bitwise functions work on the sixty-four
two's-complement bits.
-/

namespace Y86

/-- A function of the arithmetic unit, in the order of the codes. -/
inductive Arithmetic where
  | add | sub | and | xor
  deriving DecidableEq, Repr

namespace Arithmetic

def all : List Arithmetic := [add, sub, and, xor]

def code : Arithmetic → Nat
  | add => 0 | sub => 1 | and => 2 | xor => 3

def ofCode? (code : Int) : Option Arithmetic := if 0 ≤ code then all[code.toNat]? else none

theorem ofCode?_code (f : Arithmetic) : ofCode? f.code = some f := by cases f <;> rfl

def mnemonic : Arithmetic → String
  | add => "addq" | sub => "subq" | and => "andq" | xor => "xorq"

/-- Two summands of one sign whose sum has the other sign. -/
def sumOverflows (a b sum : Int) : Bool :=
  decide (a < 0) == decide (b < 0) && decide (sum < 0) != decide (a < 0)

/-- The result of `b f a` as a signed word, and whether it overflowed. -/
def compute (f : Arithmetic) (a b : Int) : Int × Bool :=
  match f with
  | add =>
    let sum := Word.signed (a + b)
    (sum, sumOverflows a b sum)
  | sub =>
    let negated := Word.signed (-a)
    let sum := Word.signed (b + negated)
    (sum, sumOverflows b negated sum)
  | and => ((BitVec.ofInt 64 b &&& BitVec.ofInt 64 a).toInt, false)
  | xor => ((BitVec.ofInt 64 b ^^^ BitVec.ofInt 64 a).toInt, false)

end Arithmetic

/-- The flags after a result. -/
def Flags.ofResult (result : Int) (overflow : Bool) : Flags where
  zero := decide (result = 0)
  sign := decide (result < 0)
  overflow := overflow

end Y86
