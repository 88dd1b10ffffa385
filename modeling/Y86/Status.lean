/-!
# Machine status

The status says whether the machine can go on, and otherwise why it stopped.
-/

namespace Y86

/-- Why the machine runs or has stopped. Only `aok` lets execution go on. -/
inductive Status where
  /-- The machine is running. -/
  | aok
  /-- A halt instruction was executed, or the step bound was reached. -/
  | hlt
  /-- An address was outside memory. -/
  | adr
  /-- An instruction was not valid. -/
  | ins
  deriving DecidableEq, Repr, Inhabited

namespace Status

/-- The numeric code of a status, counted from one. -/
def code : Status → Nat
  | aok => 1
  | hlt => 2
  | adr => 3
  | ins => 4

def name : Status → String
  | aok => "AOK"
  | hlt => "HLT"
  | adr => "ADR"
  | ins => "INS"

def all : List Status := [aok, hlt, adr, ins]

def ofName? (name : String) : Option Status := all.find? (·.name == name)

end Status

end Y86
