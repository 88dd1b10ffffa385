import Y86.Decimal.Notation
import Y86.Document.Value
import Y86.Document.Yaml.Error
import Y86.Document.Yaml.Kind
import Y86.Text.Base64
import Y86.Text.Lowercase

/-!
# Values of scalars

A scalar is read by its kind. A tag can give a text any kind, so every reading has to cope with every text.

`scalarValue` is the value of a text. In numbers underscores are left out wherever they stand. A row of numbers
between colons has the base sixty; where they have fractions, they are weighed and summed up in floating point, from
the last one on.
-/

namespace Y86.Document.Yaml

open Text

/-! ### Numbers -/

/-- A text without its underscores. -/
def withoutUnderscores (ps : List Point) : List Point := ps.filter (· != .ofChar '_')

/-- Whether a numeral begins with a minus, and what is behind its sign. There has to be something in front. -/
def splitSign : List Point → Scan (Bool × List Point)
  | [] => .error .noDigits
  | p :: ps =>
    let negative := p == .ofChar '-'
    .ok (negative, if negative || p == .ofChar '+' then ps else p :: ps)

/-- The parts of a text between colons. -/
def parts (ps : List Point) : List (List Point) :=
  ps.foldr (fun p done => match done with
    | part :: more => if p = .ofChar ':' then [] :: part :: more else (p :: part) :: more
    | [] => [[p]]) [[]]

/-- An integer in a base. -/
def integer (base : Nat) (ps : List Point) : Scan Int := (Integer.read base ps).mapError .integer

/-- An unsigned integer: with a mark for base two or sixteen, in base eight behind a zero, in base sixty with colons,
and else in base ten. -/
def unsignedInteger (ps : List Point) : Scan Int :=
  match chars ps with
  | [] => .error .noDigits
  | ['0'] => .ok 0
  | '0' :: 'b' :: _ => integer 2 (ps.drop 2)
  | '0' :: 'x' :: _ => integer 16 (ps.drop 2)
  | '0' :: _ => integer 8 ps
  | cs =>
    if cs.contains ':' then do
      let digits ← (parts ps).mapM (integer 10)
      return digits.foldl (fun n d => 60 * n + d) 0
    else integer 10 ps

/-- An integer. -/
def readInteger (text : List Point) : Scan Int := do
  let (negative, ps) ← splitSign (withoutUnderscores text)
  let n ← unsignedInteger ps
  return if negative then -n else n

/-- A number of the usual form. -/
def decimal (ps : List Point) : Scan Float :=
  match Decimal.ofText? (chars ps) with
  | some x => .ok x
  | none => .error (.float ps)

/-- The greatest number of places in base sixty; one place more would weigh more than any finite number. -/
abbrev maxPlaces : Nat := 174

/-- The number with given places in base sixty. -/
def weighed (places : List Float) : Float :=
  let weight (k : Nat) : Float := Decimal.nearest (Nat.pow 60 k) 1
  (places.reverse.zipIdx.map fun (d, k) => d * weight k).foldl (· + ·) 0

/-- The sign of a number with a fraction and its form behind that, in small letters. -/
def floatForm (text : List Point) : Scan (Bool × List Point) := splitSign (lowercase (withoutUnderscores text))

/-- Whether a text is the word for the undefined number. -/
def isUndefinedWord (text : List Point) : Bool :=
  match floatForm text with
  | .ok (_, ps) => ps == points ".nan"
  | .error _ => false

/-- A number with a fraction. -/
def readFloat (text : List Point) : Scan Float := do
  let (negative, ps) ← floatForm text
  let x ←
    if ps = points ".inf" then pure Decimal.infinity
    else if ps = points ".nan" then return Decimal.undefined
    else if ps.contains (.ofChar ':') then do
      let places ← (parts ps).mapM decimal
      if maxPlaces < places.length then throw .places
      pure (weighed places)
    else decimal ps
  return if negative then -x else x

/-! ### Other scalars -/

/-- A truth value, in letters of any size. -/
def readTruth (text : List Point) : Scan Bool :=
  let word := lowercase text
  let isOneOf (words : List String) : Bool := words.any fun w => points w == word
  if isOneOf Kind.trueWords then .ok true
  else if isOneOf Kind.falseWords then .ok false
  else .error (.truth word)

/-- The numbers between signs. -/
def numbers (cs : List Char) : List Nat :=
  (cs.splitBy fun c d => c.isDigit == d.isDigit).filterMap fun part =>
    if part.all Char.isDigit then some (Decimal.natural part) else none

/-- How many minutes a time zone is ahead of universal time. -/
def offsetOf : List Char → Int
  | [] => 0
  | sign :: cs =>
    let minutes : Nat := match numbers cs with
      | [h, m] => 60 * h + m
      | [h] => 60 * h
      | _ => 0
    if sign = '-' then -minutes else minutes

/-- The millionths of a second that digits behind a decimal point stand for. -/
def millionths (digits : List Char) : Nat := Decimal.natural ((digits ++ List.replicate 6 '0').take 6)

/-- A text without the line break at its end. -/
def withoutLastBreak (cs : List Char) : List Char := if cs.getLast? = some '\n' then cs.dropLast else cs

/-- A date, perhaps with a time. -/
def readDate (text : List Point) : Scan Value := do
  let some parts := Kind.dateParts? (withoutLastBreak (chars text)) true | throw .undated
  let [year, month, day] := numbers parts.day | throw .undated
  match parts.time.map numbers with
  | some [hour, minute, second] =>
    let time := { hour, minute, second, microsecond := millionths parts.fraction, offset := parts.zone.map offsetOf }
    return .moment (← (Moment.make year month day time).mapError .moment)
  | _ => return .date (← (Date.make year month day).mapError .moment)

/-- Bytes, which are written in ASCII. -/
def readBytes (text : List Point) : Scan (List UInt8) := do
  let cs := chars text
  require (cs.all fun c => c.toNat < 128)
  present (Base64.decode? cs)

/-- The value of a text of a kind. -/
def scalarValue (kind : Kind) (text : List Point) : Scan Value :=
  match kind with
  | .null => .ok .null
  | .text => .ok (.text text)
  | .bool => (readTruth text).map .bool
  | .int => (readInteger text).map .int
  | .float => (readFloat text).map .float
  | .date => readDate text
  | .bytes => (readBytes text).map .bytes
  | _ => .error .malformed

end Y86.Document.Yaml
