import Y86.Register
import Y86.Text.Integer

/-!
# Guards

A guard compares a register with an integer. Written out it is the register's name, a relation and a decimal
number, with blanks before, between and behind them; the relation is the longest one that stands there, and the
number has at most one sign, a minus right in front of its digits.

* `Guard.parse` reads a guard, and `Guard.text` writes it without blanks.
* `Guard.holds` compares the signed value of the register with the number, which need not fit into a word.
-/

namespace Y86

open Text

/-- A relation between integers. -/
inductive Relation where
  | eq | ne | ge | le | gt | lt
  deriving DecidableEq, Repr

namespace Relation

/-- How a relation is written. -/
def text : Relation → String
  | eq => "==" | ne => "!=" | ge => ">=" | le => "<=" | gt => ">" | lt => "<"

def holds : Relation → Int → Int → Bool
  | eq, a, b => a == b
  | ne, a, b => a != b
  | ge, a, b => b ≤ a
  | le, a, b => a ≤ b
  | gt, a, b => b < a
  | lt, a, b => a < b

/-- The longest relation in front of a text, and what is behind it. -/
def read? : List Char → Option (Relation × List Char)
  | '=' :: '=' :: cs => some (eq, cs)
  | '!' :: '=' :: cs => some (ne, cs)
  | '>' :: '=' :: cs => some (ge, cs)
  | '<' :: '=' :: cs => some (le, cs)
  | '>' :: cs => some (gt, cs)
  | '<' :: cs => some (lt, cs)
  | _ => none

end Relation

/-- A comparison of a register with an integer. -/
structure Guard where
  register : Register
  /-- How its value has to compare. -/
  relation : Relation
  /-- What it is compared with. -/
  value : Int
  deriving DecidableEq, Repr

/-- Why there is no guard. -/
inductive GuardError where
  /-- There is no text. -/
  | missing
  /-- The text is not written as a guard. -/
  | malformed (text : String)
  /-- The number has more digits than a numeral may have. -/
  | tooLong (digits : Nat)
  deriving DecidableEq, Repr

def GuardError.message : GuardError → String
  | missing => "Invalid breakpoint condition: None"
  | malformed text => "Invalid breakpoint condition: " ++ Quoted.quoted text
  | tooLong digits => (Integer.Error.tooLong digits).message

namespace Guard

/-- How a guard is written. -/
def text (g : Guard) : String := g.register.name ++ g.relation.text ++ toString g.value

def holds (g : Guard) (registers : RegisterFile) : Bool := g.relation.holds (registers.get g.register) g.value

/-- The register whose name is in front of a text, and what is behind the name. -/
def register? (cs : List Char) : Option (Register × List Char) :=
  (Register.ofName? (String.ofList (cs.takeWhile Char.isAlphanum))).map fun r =>
    (r, cs.dropWhile Char.isAlphanum)

/-- Whether there is a minus in front of a text, and what is behind it. -/
def minus : List Char → Bool × List Char
  | '-' :: cs => (true, cs)
  | cs => (false, cs)

/-- The parts of a guard: the register, the relation, whether there is a minus, and the digits. -/
def parts? (cs : List Char) : Option (Register × Relation × Bool × List Char) := do
  let (register, cs) ← register? (cs.dropWhile isBlank)
  let (relation, cs) ← Relation.read? (cs.dropWhile isBlank)
  let (negative, cs) := minus (cs.dropWhile isBlank)
  let digits := cs.takeWhile isDigit
  -- nothing but blanks may be behind the number
  guard (!digits.isEmpty && (cs.dropWhile isDigit).all isBlank)
  return (register, relation, negative, digits)

/-- The guard that a text denotes. -/
def parse (text : String) : Except GuardError Guard :=
  match parts? text.toList with
  | none => .error (.malformed text)
  | some (register, relation, negative, digits) =>
    if Integer.maxDigits < digits.length then .error (.tooLong digits.length)
    else
      let n := Integer.value 10 digits
      .ok { register, relation, value := if negative then -(n : Int) else n }

/-- The guard of a text that has to be there. -/
def demand : Option String → Except GuardError Guard
  | some text => parse text
  | none => .error .missing

end Guard

end Y86
