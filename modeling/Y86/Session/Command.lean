import Y86.Listing
import Y86.Session.Control
import Y86.Snapshot.Export

/-!
# Commands

Everything that can be asked of a session is a command; a command changes the session and is answered.
`Session.perform` carries out one command, and `Session.after` a whole sequence of them.
-/

namespace Y86

inductive Command where
  | load (text : String)
  | reset
  /-- Show the next entry. -/
  | step
  /-- Leave a breakpoint. -/
  | resume
  | run
  /-- Take a step of a continuous run. -/
  | tick
  | pause
  /-- Jump to a snapshot. -/
  | restore (snapshot : Reference SnapshotId)
  | compare (first second : Reference SnapshotId)
  /-- Write down the history in the form of a name. -/
  | exportHistory (format : String)
  | addBreakpoint (address : Int) (condition : Option String)
  | removeBreakpoint (address : Int)
  /-- Remove the breakpoint that is referred to. -/
  | removeReferred (breakpoint : Reference BreakpointId)
  /-- Enable or disable the breakpoint at an address. -/
  | toggleBreakpoint (address : Int)
  | clearBreakpoints
  /-- List a range of memory. -/
  | disassemble (start length : Int)
  deriving DecidableEq, Repr

/-- What a command is answered. -/
inductive Reply where
  | done
  /-- Whether it was carried out, or whether the session can go on. -/
  | flag (value : Bool)
  /-- A comparison, unless a snapshot is missing. -/
  | comparison (found : Option Comparison)
  /-- A written history, or why there is none. -/
  | document (text : Except String String)
  | breakpoint (new : Breakpoint)
  /-- Nothing was done, for the reason that is told. -/
  | refused (message : String)
  | rows (listing : List ListingRow)

open Text

namespace Session

/-- The history in the form of a name. -/
def exported (s : Session) (format : String) : Except String String :=
  match ExportFormat.ofName? format with
  | some form => .ok (s.history.exported form)
  | none => .error (ExportFormat.unknownMessage format)

/-- The session after a command. -/
def after (s : Session) : Command → Session
  | .load text => s.load text
  | .reset => s.reset
  | .step => s.step
  | .resume => s.resume
  | .run => s.run
  | .tick => s.tick
  | .pause => s.pause
  | .restore r => s.restore r
  | .compare first second => s.compare first second
  -- an export reads, and so does a listing
  | .exportHistory _ => s
  | .addBreakpoint address condition => s.addBreakpoint address condition
  | .removeBreakpoint address => s.removeBreakpoint address
  | .removeReferred r => s.removeReferred r
  | .toggleBreakpoint address => s.toggleBreakpoint address
  | .clearBreakpoints => s.clearBreakpoints
  | .disassemble _ _ => s

/-- The answer to a command that was given to `s` and led to `next`. -/
def reply (s next : Session) : Command → Reply
  | .load _ => .flag next.playback.isSome
  | .reset => .done
  | .step => .flag next.running
  | .resume => .flag (s.stop.isSome && next.running)
  | .run => .flag s.running
  | .tick => .flag next.active
  | .pause => .done
  | .restore r => .flag (s.history.find? r).isSome
  | .compare first second => .comparison (s.history.compare? first second)
  | .exportHistory format => .document (s.exported format)
  | .addBreakpoint address condition =>
    let new := s.newBreakpoint address condition
    if new.id.isWritable then .breakpoint new else .refused Integer.unwritableMessage
  | .removeBreakpoint address => .flag (s.breakpoints.has address)
  | .removeReferred r => .flag (s.breakpoints.find? r).isSome
  | .toggleBreakpoint address => .flag (next.isEnabled address)
  | .clearBreakpoints => .done
  | .disassemble start length => .rows (s.machine.memory.listing start length)

/-- Carries out a command. -/
def perform (s : Session) (c : Command) : Reply × Session :=
  -- some answers are about the session before the command, some about the one after it
  let next := s.after c
  (s.reply next c, next)

/-- The session after a sequence of commands. -/
def afterAll (s : Session) (cs : List Command) : Session := cs.foldl after s

/-- What a sequence of commands is answered. -/
def replies (s : Session) : List Command → List Reply
  | [] => []
  | c :: cs => (s.perform c).1 :: (s.perform c).2.replies cs

end Session

end Y86
