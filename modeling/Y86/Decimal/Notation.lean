import Y86.Decimal.Shortest
import Y86.Text.Blank
import Y86.Text.Digit

/-!
# Floating-point numbers as text

A number is written with the fewest digits that read back. From a ten-thousandth up to `10 ^ 16` it is written
with a decimal point and a digit on both sides of it, and otherwise with an exponent of at least two digits.

`Decimal.read?` goes the other way. `Decimal.ofText?` does so, too, and admits white space around the numeral and the
digits of every script.
-/

namespace Y86.Decimal

/-- Exponents of at least two digits, with their sign. -/
def exponentText (e : Int) : String :=
  let digits := toString e.natAbs
  (if e < 0 then "e-" else "e+") ++ (if digits.length < 2 then "0" ++ digits else digits)

/-- Digits with the decimal point behind the first `point` of them. -/
def layout (digits : List Char) (point : Int) : String :=
  if -4 < point ∧ point ≤ 16 then
    if point ≤ 0 then "0." ++ String.ofList (List.replicate (-point).toNat '0' ++ digits)
    else
      let n := point.toNat
      let whole := digits.take n ++ List.replicate (n - digits.length) '0'
      let part := digits.drop n
      String.ofList (whole ++ '.' :: if part.isEmpty then ['0'] else part)
  else
    let part := digits.drop 1
    String.ofList (digits.take 1 ++ if part.isEmpty then [] else '.' :: part) ++ exponentText (point - 1)

/-- The text of a positive finite number. -/
def positiveText (x : Float) : String :=
  let (d, t) := (Rounding.ofFloat x).shortest
  let all := (toString d).toList
  let point := all.length + t
  layout (all.reverse.dropWhile (· == '0')).reverse point

/-- The text of a number. -/
def text (x : Float) : String :=
  let bits := x.toBits.toNat
  let magnitude := bits % Nat.pow 2 63
  let sign := if bits = magnitude then "" else "-"
  if 0x7ff0000000000000 < magnitude then "nan"
  else if magnitude = 0x7ff0000000000000 then sign ++ "inf"
  else if magnitude = 0 then sign ++ "0.0"
  else sign ++ positiveText x.abs

/-- The number nearest to `n * 10 ^ e`. Exponents that are out of reach are not worked out. -/
def ofDigits (n : Nat) (e : Int) : Float :=
  if n = 0 then 0
  else if 400 < e then infinity
  else if e + (toString n).length < -400 then 0
  else nearest (n * Nat.pow 10 e.toNat) (Nat.pow 10 (-e).toNat)

/-- A sign in front of a numeral, and what is behind it. -/
def signed : List Char → Bool × List Char
  | '-' :: cs => (true, cs)
  | '+' :: cs => (false, cs)
  | cs => (false, cs)

/-- The number of a string of digits. -/
def natural (cs : List Char) : Nat := cs.foldl (fun n c => 10 * n + (c.toNat - 48)) 0

/-- The exponent behind the digits of a numeral; no exponent is zero. -/
def exponent? : List Char → Option Int
  | [] => some 0
  | c :: cs =>
    let (negative, digits) := signed cs
    if (c = 'e' ∨ c = 'E') ∧ digits ≠ [] ∧ digits.all Char.isDigit then
      some (if negative then -(natural digits : Int) else natural digits)
    else none

/-- The digits behind the decimal point of a numeral, and what is behind them. -/
def fraction : List Char → List Char × List Char
  | '.' :: cs => (cs.takeWhile Char.isDigit, cs.dropWhile Char.isDigit)
  | cs => ([], cs)

/-- The number that an unsigned numeral denotes. -/
def magnitude? (cs : List Char) : Option Float := do
  let name := String.ofList (cs.map Char.toLower)
  if name = "inf" ∨ name = "infinity" then return infinity
  if name = "nan" then return undefined
  let whole := cs.takeWhile Char.isDigit
  let (part, rest) := fraction (cs.dropWhile Char.isDigit)
  guard (!(whole ++ part).isEmpty)
  let e ← exponent? rest
  return ofDigits (natural (whole ++ part)) (e - part.length)

/-- The number that a numeral denotes: a decimal with an optional exponent, or a name of the numbers that have no
digits, with an optional sign in front. -/
def read? (cs : List Char) : Option Float :=
  let (negative, unsigned) := signed cs
  (magnitude? unsigned).map fun x => if negative then -x else x

/-- A text with the decimal digits of every script as those of ASCII. -/
def withPlainDigits (cs : List Char) : List Char :=
  cs.map fun c => match Text.digit? c with
    | some d => Char.ofNat (48 + d)
    | none => c

/-- The number that a text denotes. -/
def ofText? (cs : List Char) : Option Float := read? (withPlainDigits (Text.trimOf Text.isSpace cs))

end Y86.Decimal
