/-!
# Bytes in base sixty-four

Four characters stand for three bytes, and equals signs fill up the last four. Other characters are passed over, and so
is everything behind four characters that are filled up.
-/

namespace Y86.Text.Base64

/-- The characters that stand for six bits, in order. -/
def alphabet : List Char := "ABCDEFGHIJKLMNOPQRSTUVWXYZabcdefghijklmnopqrstuvwxyz0123456789+/".toList

/-- The six bits of a character. -/
def sextet? (c : Char) : Option Nat := alphabet.findIdx? (· == c)

/-- The bytes of a text behind `place` characters of four, of which `bits` are left over; `fill` counts the equals signs
in a row. -/
def decodeFrom (place bits fill : Nat) : List Char → Option (List UInt8)
  | [] => if place = 0 then some [] else none
  | c :: cs =>
    if c = '=' then
      let fill := if 2 ≤ place then fill + 1 else fill
      if 2 ≤ place ∧ 4 ≤ place + fill then some [] else decodeFrom place bits fill cs
    else match sextet? c with
      | none => decodeFrom place bits fill cs
      | some v =>
        match place with
        | 0 => decodeFrom 1 v 0 cs
        | 1 => (decodeFrom 2 (v % 16) 0 cs).map (UInt8.ofNat (4 * bits + v / 16) :: ·)
        | 2 => (decodeFrom 3 (v % 4) 0 cs).map (UInt8.ofNat (16 * bits + v / 4) :: ·)
        | _ => (decodeFrom 0 0 0 cs).map (UInt8.ofNat (64 * bits + v) :: ·)

/-- The bytes of a text; none if the last four characters are not complete. -/
def decode? (cs : List Char) : Option (List UInt8) := decodeFrom 0 0 0 cs

end Y86.Text.Base64
