import Y86.Document.Value

/-!
# The order of a set

A set keeps its items in a table. Each item is looked for at places that follow from a number, its code, and lies at the
first of them that was free when it came in; the set is listed place by place.

Only numbers have codes that say something about their order: they are remainders by a prime, for fractions, too. So a
set of numbers is listed in the order of its table, and any other set in the order in which its items came in.
-/

namespace Y86.Document.SetTable

/-- The prime whose remainders are codes. -/
def codePrime : Nat := Nat.pow 2 61 - 1

/-- The code of the infinite number. -/
def infinityCode : Nat := 314159

/-- The code of a positive number: the exponent of two wraps around, since `2 ^ 61` leaves one. -/
def positiveCode (x : Float) : Nat :=
  if Decimal.Binary.isFinite x then
    let b := Decimal.Binary.ofFloat x
    b.significand * Nat.pow 2 (b.exponent % 61).toNat % codePrime
  else infinityCode

/-- A code with a sign. No code is minus one; minus two takes its place. -/
def signedCode (negative : Bool) (code : Nat) : Int :=
  if !negative then code else if code = 1 then -2 else -(code : Int)

/-- The code of a number. -/
def code? : Value → Option Int
  | .bool b => some (if b then 1 else 0)
  | .int n => some (signedCode (n < 0) (n.natAbs % codePrime))
  | .float x => if x == x then some (signedCode (Decimal.Binary.isNegative x) (positiveCode x)) else none
  | _ => none

/-- How many places a table has: a power of two, at least eight, and more than twice the number of items if there are
five or more. -/
def sizeFor (count : Nat) : Nat := if count < 5 then 8 else Nat.pow 2 (Nat.log2 (2 * count) + 1)

/-- Where an item is looked for, from a place on: there and, where the table does not end before, at the next nine
places; then further on, where the rest of the code is taken in, five bits at a time. -/
def probes (size : Nat) : Nat → Nat → Nat → List Nat
  | 0, _, _ => []
  | fuel + 1, place, rest =>
    let near := if place + 9 < size then (List.range 10).map (place + ·) else [place]
    near ++ probes size fuel ((5 * place + 1 + rest / 32) % size) (rest / 32)

/-- All places of a table, in the order in which an item with a code is looked for. Once its 64 bits are used up, every
place has its turn. -/
def probesOf (size : Nat) (code : Int) : List Nat :=
  let bits := (code % (Nat.pow 2 64 : Nat)).toNat
  probes size (size + 14) (bits % size) bits

/-- Puts an item with a code into a table. -/
def insert (size : Nat) (table : List (Nat × Value)) (code : Int) (item : Value) : List (Nat × Value) :=
  let isFree (place : Nat) : Bool := !(table.any (·.1 == place))
  (((probesOf size code).find? isFree).getD 0, item) :: table

/-- The items of a set in their order, given as they came in; no two of them are one. -/
def arranged (items : List Value) : List Value :=
  match items.mapM fun item => (code? item).map fun code => (code, item) with
  | none => items
  | some coded =>
    let table := coded.foldl (fun table (code, item) => insert (sizeFor items.length) table code item) []
    (table.mergeSort fun a b => a.1 ≤ b.1).map (·.2)

end Y86.Document.SetTable
