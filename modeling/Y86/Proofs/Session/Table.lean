import Y86.Proofs.Breakpoint.Table
import Y86.Proofs.Session.Coherence

/-!
# The breakpoint table of a session

A session looks each entry that it shows up in its breakpoint table. It is stopped exactly if the table stops there
(`Session.hit?_advance`), and the table has counted just that (`Session.breakpoints_advance`). Both rest on the table
holding at most one breakpoint for an address, which no command undoes (`Session.keyed_afterAll`).

All that a command can do to a table is said once (`Session.tableStep_after`): it counts or switches a breakpoint, adds
one under a new identifier, removes one, or removes all.
-/

namespace Y86

namespace Session

variable {s : Session} {p : Playback} {e : TraceEntry}

/-! ### Looking an entry up -/

theorem exists_settle (s : Session) : ∃ active, s.settle = { s with active := active } := by
  unfold settle
  split <;> exact ⟨_, rfl⟩

/-- Showing an entry is coming to it and stopping there or not; what is said and whether a clock goes on does not
matter. -/
theorem exists_advance (s : Session) (e : TraceEntry) :
    ∃ logs active, s.advance e = { (s.arrived e).checked with logs := logs, active := active } := by
  obtain ⟨logs, hcheck⟩ := (s.arrived e).exists_checkBreakpoints
  obtain ⟨active, hsettle⟩ := (s.arrived e).checkBreakpoints.exists_settle
  exact ⟨logs, active, by rw [advance_eq, hsettle, hcheck]⟩

/-- Coming to an entry leaves alone what the table decides about. -/
theorem arrived_keeps (s : Session) (e : TraceEntry) :
    (s.arrived e).breakpoints = s.breakpoints ∧ (s.arrived e).added = s.added ∧ (s.arrived e).stop = s.stop ∧
      (s.arrived e).active = s.active := by
  unfold arrived moved
  cases s.playback <;> exact ⟨rfl, rfl, rfl, rfl⟩

section Advance

variable (hp : s.playback = some p)

include hp

/-- A session that comes to an entry looks just that entry up in its table. -/
theorem checked_arrived :
    (s.arrived e).checked = (s.arrived e).stoppedBy (s.breakpoints.stopping? e.pc (.ofList e.registers)) := by
  unfold checked
  refine congrArg (s.arrived e).stoppedBy ?_
  unfold arrived
  rw [moved_eq hp]
  rfl

theorem breakpoints_advance (hkeyed : s.breakpoints.Keyed) : (s.advance e).breakpoints = s.breakpoints.visited e := by
  obtain ⟨logs, active, hadvance⟩ := s.exists_advance e
  have hsame := (s.arrived_keeps e).1
  rw [hadvance, checked_arrived hp]
  cases hb : s.breakpoints.stopping? e.pc (.ofList e.registers) with
  | some b => exact (congrArg (·.insert b.counted) hsame).trans (hkeyed.insert_counted hb)
  | none => exact hsame.trans (hkeyed.visited_eq_self hb).symm

/-- A step is stopped exactly where the table stops. -/
theorem hit?_advance (hstop : s.stop = none) (hkeyed : s.breakpoints.Keyed) :
    (s.advance e).hit?.isSome = s.breakpoints.stopsAt e := by
  obtain ⟨logs, active, hadvance⟩ := s.exists_advance e
  rw [hadvance, checked_arrived hp]
  cases hb : s.breakpoints.stopping? e.pc (.ofList e.registers) with
  | some b => exact (hkeyed.stopsAt_of_stopping? hb).symm
  | none =>
    rw [hkeyed.stopping?_eq_none_iff.1 hb]
    exact congrArg (fun stop => (stop.map Stop.hit).isSome) ((s.arrived_keeps e).2.2.1.trans hstop)

end Advance

/-! ### What a command does to the table -/

/-- What one command can do to a table, and to the count of breakpoints that were added. -/
inductive TableStep (t : BreakpointTable) (n : Nat) : BreakpointTable → Nat → Prop
  | same : TableStep t n t n
  /-- A breakpoint is counted or switched; it stays where it is, under its identifier. -/
  | changed {b c : Breakpoint} (hb : b ∈ t.all) (hid : c.id = b.id) : TableStep t n (t.insert c) n
  | added (address : Int) (condition : Option String) :
      TableStep t n (t.insert (BreakpointTable.made address condition n)) (n + 1)
  | erased (address : Int) : TableStep t n (t.erase address) n
  | cleared : TableStep t n {} n

theorem tableStep_step (s : Session) : TableStep s.breakpoints s.added s.step.breakpoints s.step.added := by
  unfold Session.step
  cases s.next? with
  | none => exact .same
  | some e =>
    obtain ⟨logs, active, hadvance⟩ := s.exists_advance e
    obtain ⟨hbreakpoints, hadded, -⟩ := s.arrived_keeps e
    dsimp only
    rw [hadvance, ← hbreakpoints, ← hadded]
    unfold checked
    cases hb : (s.arrived e).breakpoints.stopping? (s.arrived e).machine.pc (s.arrived e).machine.registers with
    | none => exact .same
    | some b =>
      -- the breakpoint that stops the session is one of the table
      have hfound := (Option.filter_eq_some_iff.1 hb).1
      have hmem : b ∈ (s.arrived e).breakpoints.all := List.mem_of_find?_eq_some hfound
      exact .changed hmem rfl

theorem tableStep_load (s : Session) (text : String) :
    TableStep s.breakpoints s.added (s.load text).breakpoints (s.load text).added := by
  unfold load openTrace
  dsimp only
  split
  · exact .same
  · split <;> split <;> exact .same

/-- A command leaves the table alone, or changes it in one of four ways. -/
theorem tableStep_after (s : Session) (c : Command) :
    TableStep s.breakpoints s.added (s.after c).breakpoints (s.after c).added := by
  -- only a step counts a hit; the other commands that touch the table are those on breakpoints
  cases c with
  | load text => exact s.tableStep_load text
  | reset => exact .same
  | step => exact s.tableStep_step
  | resume =>
    unfold Session.after Session.resume
    dsimp only
    split <;> exact .same
  | run =>
    unfold Session.after Session.run
    dsimp only
    split <;> exact .same
  | tick =>
    unfold Session.after Session.tick
    dsimp only
    split
    · split
      · exact s.tableStep_step
      · exact .same
    · exact .same
  | pause =>
    unfold Session.after Session.pause
    dsimp only
    split <;> exact .same
  | restore r =>
    unfold Session.after Session.restore
    dsimp only
    split <;> exact .same
  | compare first second =>
    unfold Session.after Session.compare
    dsimp only
    split <;> exact .same
  | exportHistory format => exact .same
  | addBreakpoint address condition =>
    unfold Session.after Session.addBreakpoint
    dsimp only
    split
    · exact .added address condition
    · split <;> exact .same
  | removeBreakpoint address =>
    unfold Session.after Session.removeBreakpoint
    dsimp only
    split
    · exact .erased address
    · exact .same
  | removeReferred r =>
    unfold Session.after Session.removeReferred BreakpointTable.eraseReferred
    dsimp only
    split
    · split
      · exact .erased _
      · exact .same
    · exact .same
  | toggleBreakpoint address =>
    unfold Session.after Session.toggleBreakpoint BreakpointTable.toggle
    dsimp only
    split
    · split
      · rename_i b hb
        -- a toggle changes a breakpoint of the table and leaves its identifier
        exact .changed (List.mem_of_find?_eq_some hb) rfl
      · exact .same
    · exact .same
  | clearBreakpoints => exact .cleared
  | disassemble start length => exact .same

/-! ### At most one breakpoint for an address -/

/-- No step of the table puts two breakpoints at one address. -/
theorem TableStep.keyed {t u : BreakpointTable} {n k : Nat} (h : TableStep t n u k) (ht : t.Keyed) : u.Keyed := by
  cases h with
  | same => exact ht
  | changed _ _ => exact ht.insert _
  | added address condition => exact ht.insert _
  | erased address => exact ht.erase address
  | cleared => exact BreakpointTable.keyed_empty

/-- Whatever is done in a session, its table has at most one breakpoint at an address. -/
theorem keyed_afterAll (limits : Limits) (cs : List Command) : ((start limits).afterAll cs).breakpoints.Keyed :=
  afterAll_induction (motive := fun s => s.breakpoints.Keyed) (fun s c h => (s.tableStep_after c).keyed h)
    BreakpointTable.keyed_empty cs

/-! ### Identifiers are not used again -/

/-- All breakpoints of a table are among those that were counted. -/
def Stamped (t : BreakpointTable) (n : Nat) : Prop := ∀ b ∈ t.all, b.stamp < n

theorem mem_put {b c : Breakpoint} {bs : List Breakpoint} (h : c ∈ BreakpointTable.put b bs) : c = b ∨ c ∈ bs := by
  induction bs with
  | nil => exact Or.inl (List.mem_singleton.1 h)
  | cons b' bs ih =>
    unfold BreakpointTable.put at h
    split at h
    · exact (List.mem_cons.1 h).imp id (List.mem_cons_of_mem b')
    · rcases List.mem_cons.1 h with rfl | h
      · exact Or.inr List.mem_cons_self
      · exact (ih h).imp id (List.mem_cons_of_mem b')

theorem TableStep.stamped {t u : BreakpointTable} {n k : Nat} (h : TableStep t n u k) (ht : Stamped t n) :
    Stamped u k := by
  cases h with
  | same => exact ht
  | @changed b c hb hid =>
    intro d hd
    rcases mem_put hd with rfl | hd
    · -- the changed breakpoint keeps its identifier
      rw [show d.stamp = b.stamp from congrArg BreakpointId.stamp hid]
      exact ht b hb
    · exact ht d hd
  | added address condition =>
    -- the new breakpoint has the next number, and the numbers of the others are smaller still
    intro d hd
    rcases mem_put hd with rfl | hd
    · exact Nat.lt_succ_self n
    · exact Nat.lt_succ_of_lt (ht d hd)
  | erased address => exact fun d hd => ht d (List.mem_of_mem_filter hd)
  | cleared => exact fun d hd => nomatch hd

/-- Whatever is done in a session, the number of the next breakpoint is behind those that are there. -/
theorem stamped_afterAll (limits : Limits) (cs : List Command) :
    Stamped ((start limits).afterAll cs).breakpoints ((start limits).afterAll cs).added :=
  afterAll_induction (motive := fun s => Stamped s.breakpoints s.added) (fun s c h => (s.tableStep_after c).stamped h)
    (fun _ h => absurd h List.not_mem_nil) cs

end Session

end Y86
