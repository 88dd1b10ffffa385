import Y86.Controller.Command
import Y86.Proofs.Session.Coherence

/-!
# A controller keeps a session

Two things are true of the fields of a controller that are written one by one, and every operation keeps them
(`Controller.Coupled`): the index is -1 exactly without a trace, and a status is remembered exactly as long as a hit is
pending. So what a controller does can be followed on its view. Every operation of a controller is the operation of a
session on the view, and is answered alike; the proofs are one lemma for each operation, and `Controller.Simulates` says
the same of all commands.

The one operation of which this is not seen from the fields alone is the jump to a snapshot, since it writes the index even
without a trace. There are no snapshots then, which the invariant of sessions tells (`Session.Coherent`).
-/

namespace Y86

open Text

namespace Controller

/-- The index is -1 without a trace, and that of an entry with one. -/
structure Indexed (c : Controller) : Prop where
  index_eq : c.trace = none → c.index = -1
  index_nonneg : ∀ t, c.trace = some t → 0 ≤ c.index

/-- A hit and the status from before it come and go together. -/
def Paired (c : Controller) : Prop := c.lastHit.isSome = c.statusBefore.isSome

/-- What fields that are written one by one have to do with each other. -/
structure Coupled (c : Controller) : Prop where
  indexed : c.Indexed
  paired : c.Paired

variable {c c' : Controller} {t : Trace}

/-! ### Parts of the operations -/

/-- What the index has to do with the trace is not touched where neither is written. -/
theorem Indexed.congr (h : c.Indexed) (htrace : c'.trace = c.trace) (hindex : c'.index = c.index) : c'.Indexed where
  index_eq hnone := hindex.trans (h.index_eq (htrace.symm.trans hnone))
  index_nonneg t ht := hindex ▸ h.index_nonneg t (htrace.symm.trans ht)

/-- The view has a place exactly if there is a trace. -/
theorem playback_view_eq_none_iff : c.view.playback = none ↔ c.trace = none := Option.map_eq_none_iff

/-- With a trace the view has a place in it. -/
theorem playback?_of_some (ht : c.trace = some t) : c.playback? = some { trace := t, cursor := c.index.toNat } := by
  unfold playback?
  rw [ht]
  rfl

/-- An entry is left exactly if the view has one left. -/
theorem Indexed.hasNext_eq (h : c.Indexed) : c.hasNext = decide (0 < c.view.remaining) := by
  unfold hasNext Session.remaining
  cases ht : c.trace with
  | none =>
    -- without a trace there is no next entry and nothing remains
    rw [playback_view_eq_none_iff.2 ht]
    rfl
  | some t =>
    have hplayback : c.view.playback = _ := playback?_of_some ht
    rw [hplayback]
    refine decide_eq_decide.2 ?_
    change c.index < t.length - 1 ↔ 0 < t.length - (c.index.toNat + 1)
    have := h.index_nonneg t ht
    omega

/-- Whether the view can go on is found out as in the controller. -/
theorem Indexed.view_refresh (h : c.Indexed) : c.refresh.view = c.view.refresh := by
  unfold refresh Session.refresh
  rw [h.hasNext_eq]
  rfl

theorem view_settle (c : Controller) : c.settle.view = c.view.settle := by
  unfold settle Session.settle
  change view (if c.running then _ else _) = if c.running then _ else _
  split <;> rfl

/-- A hit is put down beside its status, and a miss leaves all as it is. -/
theorem view_checkBreakpoints (c : Controller) : c.checkBreakpoints.view = c.view.checkBreakpoints := by
  unfold checkBreakpoints Session.checkBreakpoints BreakpointTable.check
  -- a warning may be said in front of the check, and one behind a stop
  dsimp only [view]
  cases c.breakpoints.checkWarning? c.machine.pc <;> dsimp only [log, Session.log] <;>
    cases c.breakpoints.stopping? c.machine.pc c.machine.registers <;> rfl

/-! ### Moving on and leaving a breakpoint -/

/-- The controller behind an entry that comes next, before it takes a snapshot. -/
def moved (c : Controller) (e : TraceEntry) : Controller :=
  { c.applyEntry e (c.index + 1) with index := c.index + 1 }

/-- The controller that has shown an entry, before it looks at the breakpoint table. -/
def arrived (c : Controller) (e : TraceEntry) : Controller :=
  let shown := (c.moved e).capture e
  (shown.log .info ("Cycle " ++ toString shown.machine.cycle ++ ": PC=" ++ Hex.address shown.machine.pc)).refresh

/-- Showing an entry is arriving there, looking at the table, and ending the run if it is over. -/
theorem advance_eq (c : Controller) (e : TraceEntry) :
    c.advance e (c.index + 1) = (c.arrived e).checkBreakpoints.settle := rfl

/-- The index moves to the next entry together with the machine. -/
theorem Indexed.moved (h : c.Indexed) (ht : c.trace = some t) (e : TraceEntry) : (c.moved e).Indexed where
  index_eq hnone := by
    have hsome : (c.moved e).trace = some t := ht
    rw [hsome] at hnone
    cases hnone
  index_nonneg _ _ := Int.add_nonneg (h.index_nonneg t ht) Int.one_nonneg

/-- The view moves one place on. -/
theorem Indexed.view_moved (h : c.Indexed) (ht : c.trace = some t) (e : TraceEntry) :
    (c.moved e).view = c.view.moved e := by
  have hnonneg := h.index_nonneg t ht
  -- the index is signed and the cursor is not; from an index that is no longer `-1` both go up by one
  have hplace : (c.index + 1).toNat = c.index.toNat + 1 := by omega
  have hcycle : c.index + 1 = ((c.index.toNat + 1 : Nat) : Int) := by omega
  have hplayback : (c.moved e).playback? = some { trace := t, cursor := c.index.toNat + 1 } := by
    rw [playback?_of_some (c := c.moved e) ht, ← hplace]
    rfl
  have hmachine : (c.moved e).machine = e.replay c.machine.memory (c.index.toNat + 1 : Nat) := by
    rw [← hcycle]
    rfl
  rw [Session.moved_eq (s := c.view) (playback?_of_some ht)]
  unfold view
  rw [hplayback, hmachine]
  rfl

/-- So the view has arrived at the entry too. -/
theorem Indexed.view_arrived (h : c.Indexed) (ht : c.trace = some t) (e : TraceEntry) :
    (c.arrived e).view = c.view.arrived e := by
  have hmoved : Indexed (((c.moved e).capture e).log .info
      ("Cycle " ++ toString (c.moved e).machine.cycle ++ ": PC=" ++ Hex.address (c.moved e).machine.pc)) :=
    (h.moved ht e).congr rfl rfl
  unfold Session.arrived
  rw [← h.view_moved ht e]
  exact hmoved.view_refresh

/-- Showing the next entry, the controller shows it in the view. -/
theorem Indexed.view_advance (h : c.Indexed) (ht : c.trace = some t) (e : TraceEntry) :
    (c.advance e (c.index + 1)).view = c.view.advance e := by
  rw [advance_eq, Session.advance_eq, view_settle, view_checkBreakpoints, h.view_arrived ht]

/-- An entry is left exactly if there is one behind the index. -/
theorem Indexed.hasNext_iff (h : c.Indexed) :
    c.hasNext = true ↔ ∃ t e, c.trace = some t ∧ c.entry? (c.index + 1) = some e ∧
      t.entries[c.index.toNat + 1]? = some e := by
  unfold hasNext entry?
  cases ht : c.trace with
  | none => simp
  | some t =>
    have hnonneg := h.index_nonneg t ht
    have hplace : (c.index + 1).toNat = c.index.toNat + 1 := by omega
    rw [hplace]
    change decide (c.index < t.entries.size - 1) = true ↔ _
    rw [decide_eq_true_eq]
    constructor
    · intro hlt
      have hbound : c.index.toNat + 1 < t.entries.size := by omega
      exact ⟨t, t.entries[c.index.toNat + 1], rfl, Array.getElem?_eq_getElem hbound, Array.getElem?_eq_getElem hbound⟩
    · rintro ⟨_, e, hsame, -, he⟩
      cases hsame
      -- an entry at the next place bounds the index
      have hbound := (Array.getElem?_eq_some_iff.1 he).1
      omega

/-- What a step of the view would show is read off the trace. -/
theorem next?_view (c : Controller) :
    c.view.next? = if c.running then c.trace.bind fun t => t.entries[c.index.toNat + 1]? else none := by
  unfold Session.next?
  change (if c.running then c.playback?.bind _ else none) = _
  unfold playback?
  rw [Option.bind_map]
  rfl

/-- A step shows the entry that a step of the view would show, or there is none. -/
theorem Indexed.step_cases (h : c.Indexed) :
    (∃ t e, c.trace = some t ∧ c.view.next? = some e ∧
        c.step = ((c.advance e (c.index + 1)).running, c.advance e (c.index + 1))) ∨
      c.view.next? = none ∧ c.step = (false, { c with running := false }) := by
  rw [next?_view]
  unfold step
  cases hrun : c.running with
  | false => exact Or.inr ⟨rfl, rfl⟩
  | true =>
    by_cases hnext : c.hasNext = true
    · -- both layers read the same entry
      obtain ⟨t, e, ht, he, hentry⟩ := h.hasNext_iff.1 hnext
      refine Or.inl ⟨t, e, ht, ?_, ?_⟩
      · rw [if_pos rfl, ht]
        exact hentry
      · rw [hnext, he]
        rfl
    · refine Or.inr ⟨?_, ?_⟩
      · -- an entry behind the index would be left
        rw [if_pos rfl]
        refine Option.eq_none_iff_forall_ne_some.2 fun e he => hnext ?_
        obtain ⟨t, ht, hentry⟩ := Option.bind_eq_some_iff.1 he
        refine h.hasNext_iff.2 ⟨t, e, ht, ?_, hentry⟩
        rw [← hentry, ← Int.toNat_add_nat (h.index_nonneg t ht) 1]
        unfold entry?
        rw [ht]
        rfl
      · rw [if_neg fun hboth => hnext (Bool.and_eq_true_iff.1 hboth).2]

/-- A step of a controller is a step of its view. -/
theorem Indexed.view_step (h : c.Indexed) : c.step.2.view = c.view.step := by
  unfold Session.step
  rcases h.step_cases with ⟨t, e, ht, hnext, hstep⟩ | ⟨hnext, hstep⟩
  · rw [hnext, hstep]
    exact h.view_advance ht e
  · rw [hnext, hstep]
    rfl

/-- The answer to a step is whether the controller can still go on. -/
theorem Indexed.step_fst (h : c.Indexed) : c.step.1 = c.step.2.running := by
  rcases h.step_cases with ⟨_, _, -, -, hstep⟩ | ⟨-, hstep⟩
  · rw [hstep]
  · rw [hstep]

/-- The controller as `resume` leaves a stop, before it says so. -/
def left (c : Controller) (status : Status) : Controller :=
  ({ c with machine := { c.machine with status }, lastHit := none, statusBefore := none } : Controller).refresh

/-- Only a hit with a status can be left; with one of them missing nothing is done. -/
theorem resume_cases (c : Controller) :
    (∃ hit status, c.lastHit = some hit ∧ c.statusBefore = some status ∧
        c.resume = ((c.left status).running, (c.left status).log .info "Continuing from breakpoint")) ∨
      c.stop? = none ∧ c.resume = (false, c) := by
  unfold resume stop?
  cases hhit : c.lastHit with
  | none => exact Or.inr ⟨rfl, rfl⟩
  | some hit =>
    cases hstatus : c.statusBefore with
    | none => exact Or.inr ⟨rfl, rfl⟩
    | some status => exact Or.inl ⟨hit, status, rfl, rfl, rfl⟩

/-- Leaving a breakpoint of the view takes the hit and the status away together. -/
theorem Indexed.view_resume (h : c.Indexed) : c.resume.2.view = c.view.resume := by
  unfold Session.resume
  rcases c.resume_cases with ⟨hit, status, hhit, hstatus, hresume⟩ | ⟨hstop, hresume⟩
  · have hstop : c.view.stop = some { hit, status } := by
      change c.stop? = _
      unfold stop?
      rw [hhit, hstatus]
      rfl
    have hcleared : Indexed { c with machine := { c.machine with status }, lastHit := none, statusBefore := none } :=
      h.congr rfl rfl
    rw [hstop, hresume]
    change (c.left status).view.log _ _ = _
    rw [show (c.left status).view = _ from hcleared.view_refresh]
    rfl
  · rw [show c.view.stop = none from hstop, hresume]

/-- Starting a run writes a flag and the log, which the view has as they are. -/
theorem view_run (c : Controller) : c.run.2.view = c.view.run := by
  unfold run Session.run
  change view (Prod.snd (if c.running then _ else _)) = if c.running then _ else _
  split <;> rfl

/-- A tick is a step, or the end of the run, in the view as well. -/
theorem Indexed.view_tick (h : c.Indexed) : c.tick.2.view = c.view.tick := by
  unfold tick Session.tick
  change view (Prod.snd (if c.active then (if c.running then _ else _) else _)) =
    if c.active then (if c.running then _ else _) else _
  split
  · split
    · exact h.view_step
    · rfl
  · rfl

theorem view_pause (c : Controller) : c.pause.view = c.view.pause := by
  unfold pause Session.pause
  change view (if c.active then _ else _) = if c.active then _ else _
  split <;> rfl

/-! ### Jumping back -/

/-- The controller as `restore` leaves it at a snapshot, before it says so. -/
def jumped (c : Controller) (m : Machine) : Controller :=
  ({ c with machine := m, index := m.cycle, statusBefore := none, lastHit := none, active := false } :
    Controller).refresh

/-- A snapshot is found and jumped to, or it is told to be missing. -/
theorem restore_cases (c : Controller) (r : Reference SnapshotId) :
    (∃ x, c.history.find? r = some x ∧ c.restore r =
        (true, (c.jumped x.machine).log .info ("Restored to cycle " ++ toString x.machine.cycle))) ∨
      c.history.find? r = none ∧
        c.restore r = (false, c.log .error ("Snapshot not found: " ++ r.named SnapshotId.text)) := by
  unfold restore
  cases hfind : c.history.find? r with
  | none => exact Or.inr ⟨rfl, rfl⟩
  | some x => exact Or.inl ⟨x, rfl, rfl⟩

/-- There are snapshots only of a trace, and their cycles are indices of it. -/
theorem exists_of_find? (h : c.view.Coherent) {r : Reference SnapshotId} {x : Snapshot}
    (hfind : c.history.find? r = some x) : ∃ t, c.trace = some t ∧ 0 ≤ x.machine.cycle := by
  have hx : x ∈ c.view.history.snapshots := Array.mem_of_find?_eq_some hfind
  cases ht : c.trace with
  | none =>
    rw [((Session.coherent_of_none (playback_view_eq_none_iff.2 ht)).1 h).history] at hx
    cases Array.not_mem_empty _ hx
  | some t =>
    -- a snapshot is of an entry of the trace, so its cycle is no negative number
    have hs := (Session.coherent_of_some (s := c.view) (playback?_of_some ht)).1 h
    obtain ⟨i, hi⟩ := hs.history x hx
    refine ⟨t, rfl, ?_⟩
    rw [Trace.cycle_of_machineAt? hi]
    exact Int.natCast_nonneg i

/-- The cycle of a snapshot is an index, as it is not negative. -/
theorem indexed_jumped (ht : c.trace = some t) {m : Machine} (hcycle : 0 ≤ m.cycle) :
    Indexed { c with machine := m, index := m.cycle, statusBefore := none, lastHit := none, active := false } where
  index_eq hnone := by
    rw [show c.trace = none from hnone] at ht
    cases ht
  index_nonneg _ _ := hcycle

/-- Jumping to a snapshot, the view goes to the place that its cycle names. -/
theorem view_restore (h : c.view.Coherent) (r : Reference SnapshotId) :
    (c.restore r).2.view = c.view.restore r := by
  unfold Session.restore
  rcases c.restore_cases r with ⟨x, hfind, hrestore⟩ | ⟨hfind, hrestore⟩
  · obtain ⟨t, ht, hcycle⟩ := exists_of_find? h hfind
    rw [show c.view.history.find? r = some x from hfind, hrestore]
    change (c.jumped x.machine).view.log _ _ = _
    rw [show (c.jumped x.machine).view = _ from (indexed_jumped ht hcycle).view_refresh]
    -- the index that was written is the place that the view has come to
    have hplace : (c.trace.map fun trace => ({ trace, cursor := x.machine.cycle.toNat } : Playback)) =
        c.playback?.map (·.seek x.machine.cycle.toNat) := by
      unfold playback?
      rw [Option.map_map]
      rfl
    dsimp only [view]
    unfold playback?
    dsimp only
    rw [hplace]
    rfl
  · rw [show c.view.history.find? r = none from hfind, hrestore]
    rfl

/-! ### Loading -/

/-- A reset controller keeps a reset session. -/
theorem view_reset (c : Controller) : c.reset.view = c.view.reset := rfl

/-- A trace that has an entry is opened on the view. -/
theorem view_openTrace (c : Controller) {first : TraceEntry} (hfirst : t.entries[0]? = some first) :
    (c.openTrace t).view = c.view.openTrace t := by
  -- whether an entry is left is asked of the length at once
  have hleft : ∀ b : Bool, (decide (1 < t.length) && b) = (b && decide (0 < t.length - (0 + 1))) := by
    intro b
    rw [Bool.and_comm]
    exact congrArg _ (decide_eq_decide.2 (by omega))
  unfold openTrace Session.openTrace
  rw [hfirst]
  dsimp only
  rw [hleft]
  split <;> rfl

/-- A text that loads opens its trace, and a text that does not leaves the controller reset. -/
theorem load_cases (c : Controller) (text : String) :
    (∃ e, Program.load c.limits.memory text = .error e ∧
        c.load text = (false, c.reset.log .error ("Program load failed: " ++ e.message))) ∨
      ∃ program first, Program.load c.limits.memory text = .ok program ∧
        (Trace.build c.limits.maxSteps program).entries[0]? = some first ∧
        c.load text = (true, c.reset.openTrace (.build c.limits.maxSteps program)) := by
  unfold load
  dsimp only
  rw [show c.reset.limits = c.limits from rfl]
  cases hload : Program.load c.limits.memory text with
  | error e => exact Or.inl ⟨e, rfl, rfl⟩
  | ok program =>
    -- a trace that was built has an entry to begin with
    have htwo := (Trace.wellShaped_build hload rfl c.limits.maxSteps_pos).two_le
    exact Or.inr ⟨program, _, rfl, Array.getElem?_eq_getElem (Nat.lt_of_lt_of_le Nat.two_pos htwo), rfl⟩

/-- Loading a text, the view loads it. -/
theorem view_load (c : Controller) (text : String) : (c.load text).2.view = c.view.load text := by
  unfold Session.load
  dsimp only
  rw [show c.view.reset.limits = c.limits from rfl]
  rcases c.load_cases text with ⟨e, hload, heq⟩ | ⟨program, first, hload, hfirst, heq⟩
  · rw [hload, heq]
    rfl
  · rw [hload, heq]
    exact c.reset.view_openTrace hfirst

/-- A trace that is opened is kept, whether or not it has an entry. -/
theorem trace_openTrace (c : Controller) (t : Trace) : (c.openTrace t).trace = some t := by
  unfold openTrace
  cases t.entries[0]? <;> rfl

/-- The answer to a load is whether there is a trace behind it. -/
theorem load_fst (c : Controller) (text : String) : (c.load text).1 = (c.load text).2.view.playback.isSome := by
  change _ = (c.load text).2.playback?.isSome
  unfold playback?
  rw [Option.isSome_map]
  rcases c.load_cases text with ⟨e, -, heq⟩ | ⟨program, _, -, -, heq⟩
  · rw [heq]
    rfl
  · rw [heq, trace_openTrace]
    rfl

/-! ### What the fields have to do with each other -/

/-- The four fields that belong together do so wherever they are not written. -/
theorem Coupled.congr (h : c.Coupled) (htrace : c'.trace = c.trace) (hindex : c'.index = c.index)
    (hhit : c'.lastHit = c.lastHit) (hstatus : c'.statusBefore = c.statusBefore) : c'.Coupled where
  indexed := h.indexed.congr htrace hindex
  paired := by
    unfold Paired
    rw [hhit, hstatus]
    exact h.paired

/-- Without a trace there is no index, no hit and no status. -/
theorem coupled_start (limits : Limits) : (start limits).Coupled := ⟨⟨fun _ => rfl, fun _ ht => nomatch ht⟩, rfl⟩

theorem coupled_reset (c : Controller) : c.reset.Coupled := ⟨⟨fun _ => rfl, fun _ ht => nomatch ht⟩, rfl⟩

/-- A hit is put down with its status. -/
theorem Coupled.checkBreakpoints (h : c.Coupled) : c.checkBreakpoints.Coupled := by
  have hindexed := h.indexed
  unfold Controller.checkBreakpoints BreakpointTable.check
  dsimp only
  cases c.breakpoints.checkWarning? c.machine.pc <;> dsimp only [log] <;>
    cases c.breakpoints.stopping? c.machine.pc c.machine.registers
  -- a miss leaves the fields alone, and a hit writes both of the pair
  · exact h.congr rfl rfl rfl rfl
  · exact ⟨hindexed.congr rfl rfl, rfl⟩
  · exact h.congr rfl rfl rfl rfl
  · exact ⟨hindexed.congr rfl rfl, rfl⟩

theorem Coupled.settle (h : c.Coupled) : c.settle.Coupled := by
  unfold Controller.settle
  split
  · exact h
  · exact h.congr rfl rfl rfl rfl

/-- A step moves the index inside the trace, and may put down a hit. -/
theorem Coupled.step (h : c.Coupled) : c.step.2.Coupled := by
  rcases h.indexed.step_cases with ⟨t, e, ht, -, hstep⟩ | ⟨-, hstep⟩
  · have harrived : (c.arrived e).Coupled := ⟨(h.indexed.moved ht e).congr rfl rfl, h.paired⟩
    rw [hstep, advance_eq]
    exact harrived.checkBreakpoints.settle
  · rw [hstep]
    exact h.congr rfl rfl rfl rfl

/-- A hit and its status are taken away together. -/
theorem Coupled.resume (h : c.Coupled) : c.resume.2.Coupled := by
  rcases c.resume_cases with ⟨hit, status, -, -, hresume⟩ | ⟨-, hresume⟩
  · rw [hresume]
    exact ⟨h.indexed.congr rfl rfl, rfl⟩
  · rw [hresume]
    exact h

theorem Coupled.run (h : c.Coupled) : c.run.2.Coupled := by
  unfold Controller.run
  split
  · exact h.congr rfl rfl rfl rfl
  · exact h

theorem Coupled.tick (h : c.Coupled) : c.tick.2.Coupled := by
  unfold Controller.tick
  split
  · split
    · exact h.step
    · exact h.congr rfl rfl rfl rfl
  · exact h

theorem Coupled.pause (h : c.Coupled) : c.pause.Coupled := by
  unfold Controller.pause
  split
  · exact h.congr rfl rfl rfl rfl
  · exact h

/-- A jump writes the index of an entry, and takes hit and status away. -/
theorem Coupled.restore (h : c.Coupled) (hview : c.view.Coherent) (r : Reference SnapshotId) :
    (c.restore r).2.Coupled := by
  rcases c.restore_cases r with ⟨x, hfind, hrestore⟩ | ⟨-, hrestore⟩
  · obtain ⟨t, ht, hcycle⟩ := exists_of_find? hview hfind
    rw [hrestore]
    exact ⟨(indexed_jumped ht hcycle).congr rfl rfl, rfl⟩
  · rw [hrestore]
    exact h.congr rfl rfl rfl rfl

/-- A load starts at the first entry, or leaves nothing behind. -/
theorem Coupled.load (c : Controller) (text : String) : (c.load text).2.Coupled := by
  rcases c.load_cases text with ⟨e, -, hload⟩ | ⟨program, first, -, hfirst, hload⟩
  · rw [hload]
    exact c.coupled_reset.congr rfl rfl rfl rfl
  · -- the trace is opened at its first entry, where no breakpoint has been hit yet
    have hindex : (c.reset.openTrace (.build c.limits.maxSteps program)).index = 0 := by
      unfold openTrace
      rw [hfirst]
      rfl
    have hpaired : (c.reset.openTrace (.build c.limits.maxSteps program)).Paired := by
      unfold openTrace
      rw [hfirst]
      dsimp only
      split <;> rfl
    rw [hload]
    refine ⟨⟨fun hnone => ?_, fun t _ => ?_⟩, hpaired⟩
    · rw [trace_openTrace] at hnone
      cases hnone
    · exact Int.le_of_eq hindex.symm

/-! ### Commands -/

/-- What is carried out on the view leaves all else of the controller alone. -/
theorem view_performAside {command : Command} (h : command.IsAside) :
    (c.performAside command).2.view = c.view.after command := by
  obtain ⟨breakpoints, added, logs, hafter⟩ := c.view.exists_after_of_isAside h
  unfold performAside Session.perform
  dsimp only
  rw [hafter]
  rfl

/-- A controller does with a command what its view does. -/
structure Simulates (c : Controller) (command : Command) : Prop where
  reply : (c.perform command).1 = (c.view.perform command).1
  view : (c.after command).view = c.view.after command
  coupled : (c.after command).Coupled

/-- **One command.** -/
theorem Coupled.simulates (h : c.Coupled) (hview : c.view.Coherent) (command : Command) : c.Simulates command := by
  -- the commands on the tables and the history are one case
  have haside : command.IsAside → c.perform command = c.performAside command → c.Simulates command := by
    intro his hperform
    refine ⟨?_, ?_, ?_⟩
    · rw [hperform]
      rfl
    · unfold after
      rw [hperform]
      exact view_performAside his
    · unfold after
      rw [hperform]
      exact h.congr rfl rfl rfl rfl
  cases command with
  | load text =>
    refine ⟨congrArg Reply.flag ?_, view_load c text, Coupled.load c text⟩
    -- a load answers whether there is a trace now
    exact (load_fst c text).trans (congrArg (fun s : Session => s.playback.isSome) (view_load c text))
  | reset => exact ⟨rfl, view_reset c, coupled_reset c⟩
  | step =>
    refine ⟨congrArg Reply.flag ?_, h.indexed.view_step, h.step⟩
    -- a step answers the running flag that it leaves
    change c.step.1 = c.view.step.running
    rw [h.indexed.step_fst, ← h.indexed.view_step]
    rfl
  | resume =>
    refine ⟨congrArg Reply.flag ?_, h.indexed.view_resume, h.resume⟩
    change c.resume.1 = (c.stop?.isSome && c.view.resume.running)
    rw [← h.indexed.view_resume]
    -- both fields of the stop are set, or neither is
    rcases c.resume_cases with ⟨hit, status, hhit, hstatus, hresume⟩ | ⟨hstop, hresume⟩
    · unfold stop?
      rw [hresume, hhit, hstatus]
      rfl
    · rw [hresume, hstop]
      rfl
  | run =>
    refine ⟨congrArg Reply.flag ?_, view_run c, h.run⟩
    change c.run.1 = c.running
    unfold Controller.run
    cases c.running <;> rfl
  | tick =>
    refine ⟨congrArg Reply.flag ?_, h.indexed.view_tick, h.tick⟩
    -- a tick answers whether the clock goes on
    change c.tick.1 = c.view.tick.active
    rw [← h.indexed.view_tick]
    change c.tick.1 = c.tick.2.active
    unfold Controller.tick
    cases hactive : c.active with
    | false => exact hactive.symm
    | true => cases c.running <;> rfl
  | pause => exact ⟨rfl, view_pause c, h.pause⟩
  | restore r =>
    refine ⟨congrArg Reply.flag ?_, view_restore hview r, h.restore hview r⟩
    change (c.restore r).1 = (c.history.find? r).isSome
    rcases c.restore_cases r with ⟨x, hfind, hrestore⟩ | ⟨hfind, hrestore⟩
    · rw [hrestore, hfind]
      rfl
    · rw [hrestore, hfind]
      rfl
  | _ => exact haside trivial rfl

/-- Steps until one is answered no are those of the view, and as many. -/
theorem Coupled.stepUntilStopped (h : c.Coupled) (bound : Nat) :
    (c.stepUntilStopped bound).1 = (c.view.stepUntilStopped bound).1 ∧
      (c.stepUntilStopped bound).2.view = (c.view.stepUntilStopped bound).2 := by
  induction bound generalizing c with
  | zero => exact ⟨rfl, rfl⟩
  | succ bound ih =>
    have hview := h.indexed.view_step
    have hrunning : c.step.2.running = c.view.step.running := congrArg Session.running hview
    obtain ⟨htaken, hlast⟩ := ih h.step
    unfold Controller.stepUntilStopped Session.stepUntilStopped
    dsimp only
    -- both layers stop at the flag that the step has left
    rw [h.indexed.step_fst, hrunning, ← hview]
    split
    · exact ⟨congrArg (· + 1) htaken, hlast⟩
    · exact ⟨rfl, rfl⟩

/-- The bound on the number of steps is the same on both sides, so they end alike. -/
theorem Coupled.finish (h : c.Coupled) :
    c.finish.1 = c.view.finish.1 ∧ c.finish.2.view = c.view.finish.2 := h.stepUntilStopped _

/-- **Any commands.** A controller whose fields belong together answers every sequence of commands as its view does, comes
to the session that the view comes to, and its fields still belong together. -/
theorem Coupled.simulates_all (h : c.Coupled) (hview : c.view.Coherent) (commands : List Command) :
    c.replies commands = c.view.replies commands ∧
      (c.afterAll commands).view = c.view.afterAll commands ∧ (c.afterAll commands).Coupled := by
  induction commands generalizing c with
  | nil => exact ⟨rfl, rfl, h⟩
  | cons command commands ih =>
    have hone := h.simulates hview command
    -- the step lemma asks for a coherent image, and the command before has left one
    have hnext : (c.after command).view.Coherent := by
      rw [hone.view]
      exact hview.after command
    obtain ⟨hreplies, hafter, hcoupled⟩ := ih hone.coupled hnext
    refine ⟨?_, ?_, hcoupled⟩
    · unfold replies Session.replies
      rw [hone.reply, hreplies, hone.view]
      rfl
    · rw [hone.view] at hafter
      exact hafter

/-- A controller that commands lead to keeps the session that they lead to. -/
theorem view_afterAll (limits : Limits) (commands : List Command) :
    ((start limits).afterAll commands).view = (Session.start limits).afterAll commands :=
  ((coupled_start limits).simulates_all (Session.coherent_start limits) commands).2.1

/-- The fields of a controller that commands lead to belong together. -/
theorem coupled_afterAll (limits : Limits) (commands : List Command) : ((start limits).afterAll commands).Coupled :=
  ((coupled_start limits).simulates_all (Session.coherent_start limits) commands).2.2

/-- What a controller is asked is answered as by a session. -/
theorem replies_eq (limits : Limits) (commands : List Command) :
    (start limits).replies commands = (Session.start limits).replies commands :=
  ((coupled_start limits).simulates_all (Session.coherent_start limits) commands).1

end Controller

end Y86
