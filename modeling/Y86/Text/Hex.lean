/-!
# Hexadecimal numerals

Numbers are written with lower-case digits in addresses and with upper-case digits in byte columns. A field
has a least width, filled with zeros between the sign (or the `0x` mark) and the digits; a number that needs
more room takes it.
-/

namespace Y86.Text.Hex

/-- The lower-case hexadecimal digits of `n`, without leading zeros. -/
def digits (n : Nat) : List Char := Nat.toDigits 16 n

/-- `cs` filled up on the left with zeros to at least `width` characters. -/
def zeroFill (width : Nat) (cs : List Char) : List Char :=
  List.replicate (width - cs.length) '0' ++ cs

/-- A signed number in a field of at least `width` characters, sign included. -/
def field (width : Nat) (x : Int) : String :=
  if x < 0 then String.ofList ('-' :: zeroFill (width - 1) (digits x.natAbs))
  else String.ofList (zeroFill width (digits x.natAbs))

/-- A signed number with its `0x` mark behind the sign, in a field of at least `width` characters. -/
def markedField (width : Nat) (x : Int) : String :=
  if x < 0 then "-0x" ++ String.ofList (zeroFill (width - 3) (digits x.natAbs))
  else "0x" ++ String.ofList (zeroFill (width - 2) (digits x.natAbs))

/-- A signed number with its `0x` mark, in as few characters as possible. -/
def marked (x : Int) : String := markedField 0 x

/-- An address in messages: the mark in front of a field of at least four characters. -/
def address (x : Int) : String := "0x" ++ field 4 x

/-- The digit characters of a byte, in lower case. -/
def byteDigits (b : UInt8) : List Char := zeroFill 2 (digits b.toNat)

/-- A byte as two lower-case digits. -/
def byte (b : UInt8) : String := String.ofList (byteDigits b)

/-- A byte as two upper-case digits. -/
def byteUpper (b : UInt8) : String := String.ofList ((byteDigits b).map Char.toUpper)

/-- A byte string as lower-case digits, two for each byte. -/
def bytes (bs : List UInt8) : String := String.ofList (bs.flatMap byteDigits)

/-- The value of an ASCII hexadecimal digit of either case. -/
def digit? (c : Char) : Option Nat :=
  if '0' ≤ c ∧ c ≤ '9' then some (c.toNat - 48)
  else if 'a' ≤ c ∧ c ≤ 'f' then some (c.toNat - 87)
  else if 'A' ≤ c ∧ c ≤ 'F' then some (c.toNat - 55)
  else none

/-- Being an ASCII hexadecimal digit. -/
def isDigit (c : Char) : Bool := (digit? c).isSome

/-- The number that a string of hexadecimal digits denotes; other characters count as zeros. -/
def value (cs : List Char) : Nat := cs.foldl (fun n c => 16 * n + (digit? c).getD 0) 0

/-- The bytes of an even number of digits; `none` if the count is odd or another character occurs. -/
def bytes? : List Char → Option (List UInt8)
  | [] => some []
  | [_] => none
  | high :: low :: rest => do
    let h ← digit? high
    let l ← digit? low
    let bs ← bytes? rest
    return UInt8.ofNat (16 * h + l) :: bs

/-! ### The values of digits -/

variable {c : Char} {cs : List Char} {n : Nat}

/-- The three ranges of digits, with their values. -/
theorem range_of_digit? (h : digit? c = some n) :
    48 ≤ c.toNat ∧ c.toNat ≤ 57 ∧ n = c.toNat - 48 ∨ 97 ≤ c.toNat ∧ c.toNat ≤ 102 ∧ n = c.toNat - 87 ∨
      65 ≤ c.toNat ∧ c.toNat ≤ 70 ∧ n = c.toNat - 55 := by
  unfold digit? at h
  simp only [Char.le_def, UInt32.le_iff_toNat_le] at h
  split at h
  case isTrue hc => exact Or.inl ⟨hc.1, hc.2, (Option.some.inj h).symm⟩
  case isFalse =>
    split at h
    case isTrue hc => exact Or.inr (Or.inl ⟨hc.1, hc.2, (Option.some.inj h).symm⟩)
    case isFalse =>
      split at h
      case isTrue hc => exact Or.inr (Or.inr ⟨hc.1, hc.2, (Option.some.inj h).symm⟩)
      case isFalse => cases h

/-- The value of a digit is less than sixteen. -/
theorem digit?_lt (h : digit? c = some n) : n < 16 := by
  have hrange := range_of_digit? h
  omega

theorem getD_digit?_lt (c : Char) : (digit? c).getD 0 < 16 := by
  cases h : digit? c with
  | none => exact Nat.zero_lt_succ 15
  | some d => exact digit?_lt h

/-- Two digits denote a byte. -/
theorem value_lt (h : cs.length ≤ 2) : value cs < 256 := by
  match cs, h with
  | [], _ => exact Nat.zero_lt_succ 255
  | [c], _ =>
    have hc := getD_digit?_lt c
    change 16 * 0 + (digit? c).getD 0 < 256
    omega
  | [c, d], _ =>
    have hc := getD_digit?_lt c
    have hd := getD_digit?_lt d
    change 16 * (16 * 0 + (digit? c).getD 0) + (digit? d).getD 0 < 256
    omega

end Y86.Text.Hex
