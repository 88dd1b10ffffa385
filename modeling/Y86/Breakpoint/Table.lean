import Y86.Breakpoint.Basic

/-!
# The breakpoint table

A table holds at most one breakpoint for an address, in the order in which the addresses came in. A breakpoint
that replaces another takes its place, and an address that was removed comes in last again.

`BreakpointTable.check` asks whether a run has to stop; it changes the hit count of the breakpoint that stops it,
and nothing else.
-/

namespace Y86

/-- Breakpoints in the order in which their addresses came in. -/
structure BreakpointTable where
  all : List Breakpoint := []
  deriving DecidableEq, Repr, Inhabited

namespace BreakpointTable

def size (t : BreakpointTable) : Nat := t.all.length

def get? (t : BreakpointTable) (address : Int) : Option Breakpoint := t.all.find? (·.address == address)

def has (t : BreakpointTable) (address : Int) : Bool := (t.get? address).isSome

/-- Puts a breakpoint into the place of the one with its address, or at the end. -/
def put (b : Breakpoint) : List Breakpoint → List Breakpoint
  | [] => [b]
  | c :: cs => if c.address = b.address then b :: cs else c :: put b cs

/-- Stores a breakpoint under its address. -/
def insert (t : BreakpointTable) (b : Breakpoint) : BreakpointTable := ⟨put b t.all⟩

/-- The breakpoint that a request makes. -/
def made (address : Int) (condition : Option String) (stamp : Nat) : Breakpoint where
  address := address
  stamp := stamp
  trigger := .ofText condition

/-- Adds a new breakpoint. There is none, and the table stays as it is, if its identifier cannot be written. -/
def add (t : BreakpointTable) (address : Int) (condition : Option String) (stamp : Nat) : BreakpointTable :=
  let new := made address condition stamp
  if new.id.isWritable then t.insert new else t

def erase (t : BreakpointTable) (address : Int) : BreakpointTable := ⟨t.all.filter (·.address != address)⟩

/-- The breakpoint that a reference is to. -/
def find? (t : BreakpointTable) (r : Reference BreakpointId) : Option Breakpoint := t.all.find? fun b => r.isTo b.id

def eraseReferred (t : BreakpointTable) (r : Reference BreakpointId) : BreakpointTable :=
  match t.find? r with
  | some b => t.erase b.address
  | none => t

/-- The breakpoint whose identifier reads like a text. -/
def named? (t : BreakpointTable) (text : String) : Option Breakpoint := t.all.find? fun b => b.id.text == text

/-- Removes the breakpoint whose identifier reads like a text. -/
def eraseNamed (t : BreakpointTable) (text : String) : BreakpointTable :=
  match t.named? text with
  | some b => t.erase b.address
  | none => t

/-- Enables the breakpoint at an address if it is disabled, and the other way round. -/
def toggle (t : BreakpointTable) (address : Int) : BreakpointTable :=
  match t.get? address with
  | some b => t.insert { b with enabled := !b.enabled }
  | none => t

/-- The breakpoint that stops a run at `pc`. -/
def stopping? (t : BreakpointTable) (pc : Int) (registers : RegisterFile) : Option Breakpoint :=
  (t.get? pc).filter (·.stops registers)

/-- Looks whether a run has to stop at `pc`, and counts it. -/
def check (t : BreakpointTable) (pc : Int) (registers : RegisterFile) (cycle : Int) :
    Option BreakpointHit × BreakpointTable :=
  match t.stopping? pc registers with
  -- the hit shows the breakpoint as the table has it from now on
  | some b => (some { breakpoint := b.counted, cycle, pc }, t.insert b.counted)
  | none => (none, t)

/-- What is said when the table is checked at `pc`. -/
def checkWarning? (t : BreakpointTable) (pc : Int) : Option String := (t.get? pc).bind (·.checkWarning?)

end BreakpointTable

end Y86
