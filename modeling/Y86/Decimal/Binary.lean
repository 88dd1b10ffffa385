/-!
# Floating-point numbers as fractions

A finite number is a natural number of at most 53 binary digits times a power of two. `Binary.ofFloat` takes it apart,
and `nearest` goes the other way: it is the number nearest to a fraction, and of two that are equally near the one
whose last binary digit is zero. Both work on the bits of a number, in natural numbers, so nothing is rounded on the
way.
-/

namespace Y86.Decimal

/-- The infinite number. -/
def infinity : Float := Float.ofBits 0x7ff0000000000000

/-- The undefined number. -/
def undefined : Float := Float.ofBits 0x7ff8000000000000

/-- The size of a finite number, `significand * 2 ^ exponent`. -/
structure Binary where
  /-- The significand, below `2 ^ 53`. -/
  significand : Nat
  /-- The exponent, at least -1074. -/
  exponent : Int
  deriving DecidableEq, Repr

namespace Binary

/-- The size of a finite number. -/
def ofFloat (x : Float) : Binary :=
  let bits := x.toBits.toNat
  let fraction : Nat := bits % Nat.pow 2 52
  let exponent : Nat := bits / Nat.pow 2 52 % Nat.pow 2 11
  if exponent = 0 then ⟨fraction, -1074⟩ else ⟨fraction + Nat.pow 2 52, (exponent : Int) - 1075⟩

/-- Whether a number has a size, and is neither infinite nor undefined. -/
def isFinite (x : Float) : Bool := x.toBits.toNat / Nat.pow 2 52 % Nat.pow 2 11 != 0x7ff

/-- Whether a number has a minus. -/
def isNegative (x : Float) : Bool := Nat.pow 2 63 ≤ x.toBits.toNat

/-- The integer that a size is, if it is one. -/
def integer? (b : Binary) : Option Nat :=
  let up := b.significand * Nat.pow 2 b.exponent.toNat
  let down := Nat.pow 2 (-b.exponent).toNat
  if up % down = 0 then some (up / down) else none

/-- The number of a size. A significand of `2 ^ 53`, which rounding can lead to, is carried over, and what is too large
is infinite. -/
def toFloat (b : Binary) : Float :=
  let b : Binary := if b.significand = Nat.pow 2 53 then ⟨Nat.pow 2 52, b.exponent + 1⟩ else b
  if 971 < b.exponent then infinity
  else if b.significand < Nat.pow 2 52 then Float.ofBits (UInt64.ofNat b.significand)
  else Float.ofBits (UInt64.ofNat ((b.exponent + 1075).toNat * Nat.pow 2 52 + (b.significand - Nat.pow 2 52)))

end Binary

/-- The integer that is an integer-valued number. -/
def integer? (x : Float) : Option Int :=
  if Binary.isFinite x then
    (Binary.ofFloat x).integer?.map fun n => if Binary.isNegative x then -(n : Int) else n
  else none

/-- The natural number nearest to a fraction; half goes to the even neighbour. -/
def roundEven (numerator denominator : Nat) : Nat :=
  let q := numerator / denominator
  let r := numerator % denominator
  if 2 * r < denominator ∨ (2 * r = denominator ∧ q % 2 = 0) then q else q + 1

/-- The exponent at which a positive fraction has 53 binary digits in front of its point, or the least exponent there
is. The digits of the numerator and the denominator leave two possibilities. -/
def exponentOf (numerator denominator : Nat) : Int :=
  let guess : Int := (Nat.log2 numerator : Int) - Nat.log2 denominator - 53
  let fits := numerator * Nat.pow 2 (-guess).toNat < Nat.pow 2 53 * denominator * Nat.pow 2 guess.toNat
  max (-1074) (if fits then guess else guess + 1)

/-- The number nearest to a fraction. -/
def nearest (numerator denominator : Nat) : Float :=
  if numerator = 0 then 0
  else
    let e := exponentOf numerator denominator
    Binary.toFloat ⟨roundEven (numerator * Nat.pow 2 (-e).toNat) (denominator * Nat.pow 2 e.toNat), e⟩

end Y86.Decimal
