import Y86.Memory.Basic
import Y86.Trace.Build

/-!
# The limits of a session

The size of memory and the bound on the steps of a run are chosen once, when a session begins. Both are positive, and
the size is in bounds; if neither will do, the bound on steps is the one that is named.
-/

namespace Y86

/-- What a session is limited to. -/
structure Limits where
  memorySize : Nat := Memory.defaultSize
  /-- The bound on the steps of a run. -/
  maxSteps : Nat := Trace.defaultMaxSteps
  memorySize_pos : 0 < memorySize := by decide
  memorySize_lt : memorySize < Memory.sizeBound := by decide
  maxSteps_pos : 0 < maxSteps := by decide

/-- Why there are no such limits. -/
inductive LimitsError where
  /-- The bound on steps is zero or negative. -/
  | maxSteps
  /-- There is no memory of the size. -/
  | memorySize (cause : Memory.SizeError)
  deriving DecidableEq, Repr

namespace Limits

/-- The limits that are asked for. -/
def make (memorySize maxSteps : Int) : Except LimitsError Limits :=
  if hs : 0 < maxSteps.toNat then
    match Memory.checkSize memorySize with
    | .ok ⟨size, hp, hb⟩ => .ok ⟨size, maxSteps.toNat, hp, hb, hs⟩
    | .error cause => .error (.memorySize cause)
  else .error .maxSteps

/-- An empty memory of the chosen size. -/
def memory (l : Limits) : Memory := .zeros l.memorySize l.memorySize_pos

/-- The machine without a program. -/
def machine (l : Limits) : Machine := .initial l.memory 0

end Limits

end Y86
