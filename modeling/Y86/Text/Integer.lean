import Y86.Text.Blank
import Y86.Text.Digit
import Y86.Text.Hex
import Y86.Text.Quoted

/-!
# Integers in text

An integer is written as an optional sign, an optional mark of its base, and digits, with white space around. The
decimal digits of every script are digits, and one underscore may stand between two digits, or between the mark
and the first digit. Numerals in a base that is no power of two may have at most 4300 digits.

`Integer.read base text` is the integer, or the cause why the text denotes none. `Integer.write?` goes the other way;
it writes no numeral that has more digits than can be read.
-/

namespace Y86.Text.Integer

/-- Why a text denotes no integer. -/
inductive Error where
  /-- The text is not written as an integer in the base. -/
  | malformed (base : Nat) (text : List Point)
  /-- The text has more digits than a numeral may have. -/
  | tooLong (digits : Nat)
  deriving DecidableEq, Repr

/-- The greatest number of digits in a base that is no power of two. -/
abbrev maxDigits : Nat := 4300

/-- How much of a malformed text is shown, quotes included. -/
abbrev shownLength : Nat := 200

/-- The limit on digits, in words. -/
def limitNamed : String := "Exceeds the limit (" ++ toString maxDigits ++ " digits) for integer string conversion"

/-- What can be done about the limit on digits. -/
def limitAdvice : String := "; use sys.set_int_max_str_digits() to increase the limit"

/-- What is said of an integer that has too many digits to be written. -/
def unwritableMessage : String := limitNamed ++ limitAdvice

/-- The wording of an error. -/
def Error.message : Error → String
  | malformed base text =>
    "invalid literal for int() with base " ++ toString base ++ ": "
      ++ String.ofList ((Quoted.encode text).take shownLength)
  | tooLong digits =>
    limitNamed ++ ": value has " ++ toString digits ++ " digits" ++ limitAdvice

/-- The value of a digit in a base, of any script or a letter. -/
def digit? (base : Nat) (c : Char) : Option Nat :=
  ((Text.digit? c).orElse fun _ => Hex.digit? c).filter (· < base)

/-- The number that a string of digits denotes; other characters are passed over. -/
def value (base : Nat) (cs : List Char) : Nat := (cs.filterMap (digit? base)).foldl (fun n d => base * n + d) 0

/-- Being a digit, or the underscore that may stand between digits. -/
def isPart (base : Nat) (c : Char) : Bool := c == '_' || (digit? base c).isSome

/-- Whether every underscore stands between two digits and there is a digit; `after` tells that a digit came
before. -/
def grouped (after : Bool) : List Char → Bool
  | [] => after
  | c :: cs => if c = '_' then after && grouped false cs else grouped true cs

/-- Whether there is a sign of a negative number, and what is behind the sign. -/
def sign : List Char → Bool × List Char
  | '-' :: cs => (true, cs)
  | '+' :: cs => (false, cs)
  | cs => (false, cs)

/-- The letter that marks a base, behind a zero. -/
def mark? : Nat → Option Char
  | 2 => some 'b'
  | 8 => some 'o'
  | 16 => some 'x'
  | _ => none

/-- What is behind the mark of a base, and behind an underscore that follows it. -/
def afterMark (base : Nat) : List Char → List Char
  | '0' :: c :: cs =>
    if mark? base = some c.toLower then
      match cs with
      | '_' :: cs => cs
      | cs => cs
    else '0' :: c :: cs
  | cs => cs

/-- Whether the number of digits is bounded in a base. -/
def bounded (base : Nat) : Bool := !([2, 4, 8, 16, 32].contains base)

/-- The integer that a text denotes in a base. -/
def read (base : Nat) (text : List Point) : Except Error Int :=
  let (negative, unsigned) := sign ((chars text).dropWhile isSpace)
  let cs := afterMark base unsigned
  let numeral := cs.takeWhile (isPart base)
  let digits := numeral.filter (· != '_')
  if !grouped false numeral then .error (.malformed base text)
  -- too many digits are noticed before what is behind them
  else if bounded base && maxDigits < digits.length then .error (.tooLong digits.length)
  else if !(cs.dropWhile (isPart base)).all isSpace then .error (.malformed base text)
  else .ok (if negative then -(value base digits : Int) else value base digits)

/-- The decimal numeral of an integer; there is none with too many digits. -/
def write? (n : Int) : Option String :=
  if n.natAbs < Nat.pow 10 maxDigits then some (toString n) else none

end Y86.Text.Integer
