import Y86.Decimal.Binary

/-!
# The fewest digits that read back

A floating-point number is the nearest one to every real number in an interval around it. Of the decimals in that
interval the shortest is chosen: for one digit, two digits and so on, the two decimals next to the number are
tried, and of two that lie in the interval the nearer one is taken. Everything is compared exactly, in natural
numbers.
-/

namespace Y86.Decimal

/-- A positive number with the interval of the numbers that round to it, all four over one denominator. -/
structure Rounding where
  low : Nat
  /-- The number itself. -/
  value : Nat
  high : Nat
  denominator : Nat
  /-- Whether the ends round to the number, too. -/
  closed : Bool

namespace Rounding

/-- The interval of a number `m * 2 ^ q`, in quarters of `2 ^ q`. Below a power of two the next number is only
half as far away as above it, and `narrow` says so. -/
def ofBinary (m : Nat) (q : Int) (narrow : Bool) : Rounding :=
  let up := Nat.pow 2 (q - 2).toNat
  { low := (4 * m - if narrow then 1 else 2) * up
    value := 4 * m * up
    high := (4 * m + 2) * up
    denominator := Nat.pow 2 (2 - q).toNat
    closed := m % 2 == 0 }

/-- The interval of a finite positive number. -/
def ofFloat (x : Float) : Rounding :=
  let b := Binary.ofFloat x
  ofBinary b.significand b.exponent (b.significand == Nat.pow 2 52 && -1074 < b.exponent)

/-- Whether the number is less than `10 ^ k`. -/
def below (r : Rounding) (k : Int) : Bool :=
  r.value * Nat.pow 10 (-k).toNat < Nat.pow 10 k.toNat * r.denominator

/-- How many digits the number has in front of its decimal point; less than one if zeros follow the point. -/
def point (r : Rounding) : Int :=
  (((List.range 640).map fun (i : Nat) => (i : Int) - 325).find? r.below).getD 0

/-- Whether `d * 10 ^ t` rounds to the number. -/
def covers (r : Rounding) (d : Nat) (t : Int) : Bool :=
  let x := d * Nat.pow 10 t.toNat * r.denominator
  let low := r.low * Nat.pow 10 (-t).toNat
  let high := r.high * Nat.pow 10 (-t).toNat
  (low < x && x < high) || (r.closed && (x == low || x == high))

/-- How far `d * 10 ^ t` is from the number, in a unit that only depends on `t`. -/
def distance (r : Rounding) (d : Nat) (t : Int) : Nat :=
  let x := d * Nat.pow 10 t.toNat * r.denominator
  let value := r.value * Nat.pow 10 (-t).toNat
  max (x - value) (value - x)

/-- The nearest decimal with its last digit at `10 ^ t` that rounds to the number, if one does; of two that are
equally near, the one with the even last digit. -/
def nearest? (r : Rounding) (t : Int) : Option Nat :=
  let d := r.value * Nat.pow 10 (-t).toNat / (Nat.pow 10 t.toNat * r.denominator)
  match r.covers d t, r.covers (d + 1) t with
  | false, false => none
  | true, false => some d
  | false, true => some (d + 1)
  | true, true =>
    let down := r.distance d t
    let up := r.distance (d + 1) t
    if down < up || (down == up && d % 2 == 0) then some d else some (d + 1)

/-- The shortest decimal that rounds to the number, as its significant digits and the power of ten at the last of
them. Seventeen digits always suffice. -/
def shortest (r : Rounding) : Nat × Int :=
  let point := r.point
  let tried := (List.range 17).findSome? fun (i : Nat) =>
    let t := point - (i + 1 : Nat)
    (r.nearest? t).map fun d => (d, t)
  tried.getD (0, 0)

end Rounding

end Y86.Decimal
