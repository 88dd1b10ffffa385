import Y86.Machine.Execute
import Y86.ObjectCode.Program
import Y86.Trace.Basic

/-!
# Building a trace

A recording runs a program and takes down an entry after each step. It goes on while the machine runs and the
bound on steps is not reached; a machine that still runs then is halted by one more entry.

A fault does not lose the step: the entry shows the machine as the fault left it, with the status of the fault.
-/

namespace Y86

/-- A run that is being recorded. -/
structure Recording where
  /-- The machine after the last entry, with no record of written words. -/
  machine : Machine
  entries : Array TraceEntry
  /-- The instructions carried out so far. -/
  statistics : Statistics := {}

namespace Recording

/-- The recording of a program before its first step. -/
def start (program : Program) : Recording :=
  let machine := Machine.initial program.memory.clearTouched program.entry
  -- the first entry has the words of the program, none of which the machine has written
  { machine := machine, entries := #[TraceEntry.ofMachine machine program.touched] }

/-- The machine after one attempted step, with the operation if it was carried out. A fault that is no fault of
the program counts as an invalid instruction. -/
def attempt (m : Machine) : Machine × Option Operation :=
  match m.step with
  | .ok (op, next) => (next, some op)
  | .error failure => ({ failure.machine with status := failure.fault.status?.getD .ins }, none)

/-- Takes down one step. -/
def advance (r : Recording) : Recording :=
  let (next, op) := attempt r.machine
  -- a step that failed counts as one, too
  let machine := { next with cycle := r.machine.cycle + 1 }
  { machine := machine.copy
    entries := r.entries.push (.ofMachine machine machine.memory.touched (op.map Operation.text))
    statistics := match op with
      | some op => r.statistics.add op.kind
      | none => r.statistics }

/-- Takes down at most a number of steps, as long as the machine runs. -/
def run : Nat → Recording → Recording
  | 0, r => r
  | steps + 1, r => if r.machine.status = .aok then run steps r.advance else r

/-- Halts a machine that still runs, which takes one more entry. -/
def finish (r : Recording) : Recording :=
  if r.machine.status = .aok then
    let machine := { r.machine with status := .hlt, cycle := r.machine.cycle + 1 }
    { r with machine := machine, entries := r.entries.push (.ofMachine machine []) }
  else r

end Recording

namespace Trace

/-- The bound on steps when none is asked for. -/
def defaultMaxSteps : Nat := 10000

/-- What is said of a bound on steps that is not positive. -/
def maxStepsMessage : String := "max_steps must be a positive integer."

/-- The trace of a program, of at most `maxSteps` steps. -/
def build (maxSteps : Nat) (program : Program) : Trace :=
  let recording := Recording.run maxSteps (Recording.start program)
  { entries := recording.finish.entries
    entry := program.entry
    statistics := recording.statistics
    -- asked of the machine before it is halted
    limitReached := recording.machine.status == .aok }

end Trace

end Y86
