import Y86.Breakpoint.Guard
import Y86.Reference

/-!
# Breakpoints

A breakpoint belongs to an address. It stops a run that comes to its address if it is enabled and its trigger
fires, and it counts how often it did. A trigger whose guard could not be read never fires; it is kept with the
cause, and every check of it is worth a warning.
-/

namespace Y86

open Text

/-- When a breakpoint fires. -/
inductive Trigger where
  /-- At every check. -/
  | always
  /-- When a guard holds; the text is what it was read from. -/
  | guarded (text : String) (guard : Guard)
  /-- Never, because its text denotes no guard. -/
  | broken (text : String) (cause : GuardError)
  deriving DecidableEq, Repr

namespace Trigger

/-- The trigger that a text asks for; without a text, or with an empty one, it always fires. -/
def ofText : Option String → Trigger
  | none => always
  | some text =>
    if text = "" then always
    else match Guard.parse text with
      | .ok guard => guarded text guard
      | .error cause => broken text cause

/-- The text that a trigger was read from. -/
def text? : Trigger → Option String
  | always => none
  | guarded text _ => some text
  | broken text _ => some text

/-- The guard of a trigger that has one. -/
def guard? : Trigger → Option Guard
  | guarded _ guard => some guard
  | always => none
  | broken .. => none

/-- Why the text of a trigger denotes no guard. -/
def cause? : Trigger → Option GuardError
  | broken _ cause => some cause
  | always => none
  | guarded .. => none

def fires (registers : RegisterFile) : Trigger → Bool
  | always => true
  | guarded _ guard => guard.holds registers
  | broken .. => false

end Trigger

/-- What a breakpoint is called by. -/
structure BreakpointId where
  /-- Where it stops a run. -/
  address : Int
  /-- What sets it apart from other breakpoints that its address has had. -/
  stamp : Nat
  deriving DecidableEq, Repr

namespace BreakpointId

/-- An identifier in words. -/
def text (id : BreakpointId) : String := "bp_" ++ toString id.address ++ "_#" ++ toString id.stamp

/-- Whether an identifier can be written. It cannot if the numeral of its address would have too many digits. -/
@[irreducible]
def isWritable (id : BreakpointId) : Bool := (Integer.write? id.address).isSome

/-- Only the address matters for that. -/
theorem isWritable_congr {a b : BreakpointId} (h : a.address = b.address) : a.isWritable = b.isWritable := by
  unfold isWritable
  rw [h]

end BreakpointId

structure Breakpoint where
  /-- Where it stops a run. -/
  address : Int
  /-- What sets it apart from other breakpoints that its address has had. -/
  stamp : Nat
  /-- When it fires. -/
  trigger : Trigger := .always
  /-- Whether it is looked at. -/
  enabled : Bool := true
  /-- How often it stopped a run. -/
  hits : Nat := 0
  deriving DecidableEq, Repr

namespace Breakpoint

def id (b : Breakpoint) : BreakpointId := ⟨b.address, b.stamp⟩

/-- Whether a breakpoint stops a run that has come to its address. -/
def stops (b : Breakpoint) (registers : RegisterFile) : Bool := b.enabled && b.trigger.fires registers

/-- A breakpoint that has stopped a run once more. -/
def counted (b : Breakpoint) : Breakpoint := { b with hits := b.hits + 1 }

/-- What is said when a breakpoint is made with a text that denotes no guard. -/
def addWarning? (b : Breakpoint) : Option String :=
  match b.trigger with
  | .broken text _ => some ("Invalid breakpoint condition at " ++ Hex.markedField 6 b.address ++ ": " ++ text)
  | _ => none

/-- What is said when a breakpoint is checked that cannot fire for want of a guard. -/
def checkWarning? (b : Breakpoint) : Option String :=
  match b.trigger with
  | .broken text _ => if b.enabled then some ("Invalid breakpoint condition: " ++ text) else none
  | _ => none

end Breakpoint

/-- A stop at a breakpoint. -/
structure BreakpointHit where
  /-- The breakpoint, with this stop counted. -/
  breakpoint : Breakpoint
  cycle : Int
  pc : Int
  deriving DecidableEq, Repr

end Y86
