import Y86.Trace.Basic

/-!
# Replaying a trace

An entry shows everything of a machine but the words of memory that its step left alone. Laid over the memory of the
entry before it, it shows the whole machine again, so a trace can be gone through without carrying out an
instruction a second time.
-/

namespace Y86

namespace TraceEntry

/-- The machine that an entry shows, `memory` being that of the entry before it. -/
def replay (e : TraceEntry) (memory : Memory) (cycle : Int) : Machine where
  pc := e.pc
  status := e.status
  registers := .ofList e.registers
  flags := e.flags
  memory := memory.clearTouched.applyWords (e.words.map fun (w : Nat × Nat) => (w.1, w.2))
  cycle := cycle

end TraceEntry

/-- A trace with a place in it. -/
structure Playback where
  trace : Trace
  /-- The index of the entry that is shown. -/
  cursor : Nat := 0

namespace Playback

/-- The entry after the one that is shown. -/
def next? (p : Playback) : Option TraceEntry := p.trace.entries[p.cursor + 1]?

/-- The number of entries after the one that is shown. -/
def remaining (p : Playback) : Nat := p.trace.length - (p.cursor + 1)

/-- The same trace at another place. -/
def seek (p : Playback) (cursor : Nat) : Playback := { p with cursor := cursor }

end Playback

end Y86
