import Y86.Proofs.Session.History

/-!
# Driving a session to the end

A session is driven by taking steps until one leaves it unable to go on, and by leaving the breakpoint if it was one that
stopped it, over and over (`Session.Driven`). From the first entry of a trace this comes to an end, whatever the breakpoint
table is, and breakpoints do not show in the outcome (`Session.drive_from_first_entry`):

* every entry behind the first is shown once, in order, with one snapshot taken of it;
* the session is stopped at just the entries at which the table stops, and each breakpoint has counted its own;
* the machine at the end is the one that a drive without breakpoints leaves.

`Session.Completes` says this of a drive from any entry; `Session.exists_completes` proves it by induction on the
number of entries that are left.
-/

namespace Y86

/-- The indices of a trace, from one on, of the entries with a property. -/
def Trace.indicesFrom (t : Trace) (k : Nat) (stops : TraceEntry → Bool) : List Nat :=
  (List.range' k (t.length - k)).filter fun i => t.entries[i]?.any stops

theorem Trace.indicesFrom_of_le {t : Trace} {k : Nat} (h : t.length ≤ k) (stops : TraceEntry → Bool) :
    t.indicesFrom k stops = [] := by
  unfold indicesFrom
  rw [Nat.sub_eq_zero_of_le h]
  rfl

theorem Trace.range'_of_getElem? {t : Trace} {k : Nat} {e : TraceEntry} (he : t.entries[k]? = some e) :
    List.range' k (t.length - k) = k :: List.range' (k + 1) (t.length - (k + 1)) := by
  have hlt : k < t.length := (Array.getElem?_eq_some_iff.1 he).1
  rw [show t.length - k = t.length - (k + 1) + 1 by omega, List.range'_succ]

/-- The entry at the index comes first, if it has the property. -/
theorem Trace.indicesFrom_of_getElem? {t : Trace} {k : Nat} {e : TraceEntry} (he : t.entries[k]? = some e)
    (stops : TraceEntry → Bool) :
    t.indicesFrom k stops = (if stops e then [k] else []) ++ t.indicesFrom (k + 1) stops := by
  unfold indicesFrom
  rw [range'_of_getElem? he, List.filter_cons, he, Option.any_some]
  split <;> rfl

namespace Session

/-! ### Drives -/

/-- Steps, until one leaves a session that cannot go on. -/
inductive Stepped : Session → Session → Prop where
  /-- The last step. -/
  | last {s : Session} (h : s.step.running = false) : Stepped s s.step
  /-- A step with more of them behind it. -/
  | more {s u : Session} (h : s.step.running = true) (rest : Stepped s.step u) : Stepped s u

/-- The session can go on, or a breakpoint hit is pending. -/
def Live (s : Session) : Prop := s.running = true ∨ s.hit?.isSome = true

/-- A drive of a session, with the hits that stopped it: as long as the session is live, steps are taken until one
leaves a session that cannot go on, and a breakpoint that stopped it is left. -/
inductive Driven : Session → List BreakpointHit → Session → Prop where
  /-- The session cannot go on, and no hit is pending. -/
  | done {s : Session} (hdone : ¬s.Live) : Driven s [] s
  /-- A breakpoint stops the session, and is left. -/
  | hit {s u t : Session} {hit : BreakpointHit} {hits : List BreakpointHit}
      (hlive : s.Live) (steps : Stepped s u) (hhit : u.hit? = some hit)
      (rest : Driven u.resume hits t) : Driven s (hit :: hits) t
  /-- The session stops by itself. -/
  | quiet {s u t : Session} {hits : List BreakpointHit}
      (hlive : s.Live) (steps : Stepped s u) (hhit : u.hit? = none)
      (rest : Driven u hits t) : Driven s hits t

variable {s t u : Session} {p : Playback} {e : TraceEntry}

theorem Stepped.unique (h : Stepped s t) (h' : Stepped s u) : u = t := by
  induction h with
  | last hlast =>
    cases h' with
    | last => rfl
    | more hmore => rw [hlast] at hmore; cases hmore
  | more hmore _ ih =>
    cases h' with
    | last hlast => rw [hlast] at hmore; cases hmore
    | more _ rest => exact ih rest

/-- A session is driven in one way only. -/
theorem Driven.unique {hits hits' : List BreakpointHit} (h : Driven s hits t) (h' : Driven s hits' u) :
    hits' = hits ∧ u = t := by
  induction h generalizing hits' u with
  | done hdone =>
    cases h' with
    | done => exact ⟨rfl, rfl⟩
    | hit hlive => exact absurd hlive hdone
    | quiet hlive => exact absurd hlive hdone
  | hit hlive steps hhit rest ih =>
    -- both drives stop at the same place, as steps that lead to a stop are unique
    cases h' with
    | done hdone => exact absurd hlive hdone
    | hit _ steps' hhit' rest' =>
      obtain rfl := steps.unique steps'
      obtain rfl := Option.some.inj (hhit'.symm.trans hhit)
      obtain ⟨rfl, rfl⟩ := ih rest'
      exact ⟨rfl, rfl⟩
    | quiet _ steps' hnone =>
      obtain rfl := steps.unique steps'
      -- where one drive hits a breakpoint the other cannot be quiet
      rw [hhit] at hnone
      cases hnone
  | quiet hlive steps hnone rest ih =>
    cases h' with
    | done hdone => exact absurd hlive hdone
    | hit _ steps' hhit' =>
      obtain rfl := steps.unique steps'
      rw [hnone] at hhit'
      cases hhit'
    | quiet _ steps' _ rest' =>
      obtain rfl := steps.unique steps'
      exact ih rest'

/-- A step that leaves a session that can go on may be taken first. -/
theorem Driven.of_step {hits : List BreakpointHit} (hrun : s.running = true) (hnext : s.step.running = true)
    (h : Driven s.step hits t) : Driven s hits t := by
  cases h with
  | done hdone => exact absurd (.inl hnext) hdone
  | hit _ steps hhit rest => exact .hit (.inl hrun) (.more hnext steps) hhit rest
  | quiet _ steps hhit rest => exact .quiet (.inl hrun) (.more hnext steps) hhit rest

/-! ### A drive to the end -/

/-- The session is driven from the entry at the cursor to the last one, leaving `t`. -/
structure Completes (s : Session) (p : Playback) (hits : List BreakpointHit) (t : Session) : Prop where
  driven : Driven s hits t
  /-- At the end the last entry is shown, and no hit is pending. -/
  shows : t.Shows (p.seek (p.trace.length - 1))
  limits : t.limits = s.limits
  stop : t.stop = none
  /-- The session is stopped at just the entries ahead at which the table stops, in their order. -/
  hits : hits.map (·.cycle) = (p.trace.indicesFrom (p.cursor + 1) s.breakpoints.stopsAt).map (fun i : Nat => (i : Int))
  /-- Each breakpoint counts the entries ahead at which it stops. -/
  breakpoints : t.breakpoints.all = s.breakpoints.all.map fun b =>
    { b with hits := b.hits + (p.trace.indicesFrom (p.cursor + 1) b.stopsAt).length }
  /-- One snapshot is taken of each entry ahead, in their order. -/
  history : ∃ new, t.history.snapshots.toList = s.history.snapshots.toList ++ new ∧
    new.map (·.machine.cycle)
      = (List.range' (p.cursor + 1) (p.trace.length - (p.cursor + 1))).map (fun i : Nat => (i : Int))

/-- A breakpoint that has come by an entry has counted it if it stops there, and counts on. -/
theorem map_visited (table : BreakpointTable) {t : Trace} {k : Nat} (he : t.entries[k]? = some e) :
    ((table.visited e).all.map fun b => { b with hits := b.hits + (t.indicesFrom (k + 1) b.stopsAt).length })
      = table.all.map fun b => { b with hits := b.hits + (t.indicesFrom k b.stopsAt).length } := by
  unfold BreakpointTable.visited
  rw [List.map_map]
  refine List.map_congr_left fun b _ => ?_
  rw [Trace.indicesFrom_of_getElem? he, List.length_append, Function.comp_apply]
  by_cases hb : b.stopsAt e = true
  · -- one hit for this entry, and the others ahead
    rw [if_pos hb, if_pos hb]
    change { b with hits := b.hits + 1 + (t.indicesFrom (k + 1) b.stopsAt).length } = _
    rw [Nat.add_assoc]
    rfl
  · -- the entry counts for no breakpoint that does not stop at it
    rw [if_neg hb, if_neg hb, List.length_nil, Nat.zero_add]

/-- Nothing is left to do on the last entry. -/
theorem Shows.completes_last (h : s.Shows p) (hstop : s.stop = none) (hlast : p.trace.length ≤ p.cursor + 1) :
    s.Completes p [] s := by
  -- the cursor is at the last entry already
  have hcursor : p.seek (p.trace.length - 1) = p := by
    have hlt : p.cursor < p.trace.length := by
      obtain ⟨e, he, -⟩ := TraceEntry.exists_of_machineAt? h.machine
      exact (List.getElem?_eq_some_iff.1 he).1
    unfold Playback.seek
    rw [show p.trace.length - 1 = p.cursor by omega]
  refine ⟨.done ?_, hcursor.symm ▸ h, rfl, hstop, ?_, ?_, [], ?_, ?_⟩
  · rintro (hrun | hhit)
    · exact absurd (h.ready.1 hrun).2 (by omega)
    · rw [hit?, hstop] at hhit
      cases hhit
  · -- nothing is ahead that could be hit
    rw [Trace.indicesFrom_of_le hlast]
    rfl
  · refine (List.map_id' _).symm.trans (List.map_congr_left fun b _ => ?_)
    rw [Trace.indicesFrom_of_le hlast]
    rfl
  · rw [List.append_nil]
  · rw [Nat.sub_eq_zero_of_le hlast]
    rfl

/-- A drive that completes from the next entry on, with a step before it, completes. -/
theorem Completes.of_step {hits hits' : List BreakpointHit} (h : u.Completes (p.seek (p.cursor + 1)) hits' t)
    (he : p.next? = some e) (hlimits : u.limits = s.limits) (hbreakpoints : u.breakpoints = s.breakpoints.visited e)
    (hhistory : ∃ x, u.history.snapshots = s.history.snapshots.push x ∧ x.machine.cycle = (p.cursor + 1 : Nat))
    (hdriven : Driven s hits t)
    (hhits : hits.map (·.cycle) =
      (if s.breakpoints.stopsAt e then [p.cursor + 1] else []).map (fun i : Nat => (i : Int))
        ++ hits'.map (·.cycle)) :
    s.Completes p hits t where
  driven := hdriven
  shows := h.shows
  limits := h.limits.trans hlimits
  stop := h.stop
  hits := by
    -- having counted a hit, the table still stops at the same entries
    have hstops : u.breakpoints.stopsAt = s.breakpoints.stopsAt := by
      rw [hbreakpoints]
      exact funext (s.breakpoints.stopsAt_visited e)
    rw [hhits, h.hits, Trace.indicesFrom_of_getElem? he, List.map_append, hstops]
    rfl
  breakpoints := by
    rw [h.breakpoints, hbreakpoints]
    exact map_visited s.breakpoints he
  history := by
    obtain ⟨x, hpush, hcycle⟩ := hhistory
    obtain ⟨new, hnew, hcycles⟩ := h.history
    refine ⟨x :: new, ?_, ?_⟩
    · rw [hnew, hpush, Array.toList_push, List.append_assoc]
      rfl
    · rw [Trace.range'_of_getElem? he, List.map_cons, List.map_cons, hcycle, hcycles]
      rfl

/-- Leaving a breakpoint changes nothing but how the session is controlled. -/
theorem Shows.resume (h : s.Shows p) (hp : s.playback = some p) {stop : Stop} (hstop : s.stop = some stop) :
    s.resume.playback = some p ∧ s.resume.Shows p ∧ s.resume.stop = none ∧ s.resume.limits = s.limits ∧
      s.resume.breakpoints = s.breakpoints ∧ s.resume.history = s.history := by
  -- the invariant gives that the session shows its entry; the fields are read off the definition
  have hcoherent : s.resume.Coherent := ((coherent_of_some hp).2 h).resume
  have hresume : s.resume = (s.left stop).log .info "Continuing from breakpoint" := by
    unfold Session.resume
    rw [hstop]
    rfl
  have hplayback : s.resume.playback = some p := by
    rw [hresume]
    exact hp
  refine ⟨hplayback, (coherent_of_some hplayback).1 hcoherent, ?_⟩
  rw [hresume]
  exact ⟨rfl, rfl, rfl, rfl⟩

/-- What a step does to a session that has an entry ahead. -/
theorem Shows.step (h : s.Shows p) (hp : s.playback = some p) (hstop : s.stop = none) (hkeyed : s.breakpoints.Keyed)
    (he : p.next? = some e) :
    s.running = true ∧ s.step.playback = some (p.seek (p.cursor + 1)) ∧ s.step.Shows (p.seek (p.cursor + 1)) ∧
      s.step.limits = s.limits ∧ s.step.breakpoints = s.breakpoints.visited e ∧
      s.step.hit?.isSome = s.breakpoints.stopsAt e ∧
      ∃ x, s.step.history.snapshots = s.history.snapshots.push x ∧ x.machine.cycle = (p.cursor + 1 : Nat) := by
  have hrun : s.running = true := h.ready.2 ⟨hstop, (Array.getElem?_eq_some_iff.1 he).1⟩
  have hlimits : s.step.limits = s.limits := congrArg Prod.fst s.source_step
  have hstep : s.step = s.advance e := by
    unfold Session.step next?
    rw [if_pos hrun, hp, Option.bind_some, he]
  obtain ⟨hplayback, hshows⟩ := h.advance hp hstop he
  rw [hstep] at hlimits ⊢
  -- the snapshot that is taken is of the entry that is shown
  exact ⟨hrun, hplayback, hshows, hlimits, breakpoints_advance hp hkeyed, hit?_advance hp hstop hkeyed,
    _, congrArg History.snapshots (history_advance hp), rfl⟩

/-- **Every drive comes to an end.** From any entry on, a session that is not stopped is driven to the last one. -/
theorem exists_completes (n : Nat) (h : s.Shows p) (hp : s.playback = some p) (hstop : s.stop = none)
    (hkeyed : s.breakpoints.Keyed) (hn : p.trace.length - (p.cursor + 1) = n) : ∃ hits t, s.Completes p hits t := by
  induction n generalizing s p with
  | zero => exact ⟨[], s, h.completes_last hstop (by omega)⟩
  | succ n ih =>
    -- one step shows the next entry, and leaves one entry fewer ahead
    obtain ⟨e, he⟩ : ∃ e, p.next? = some e := ⟨_, Array.getElem?_eq_getElem (by omega : p.cursor + 1 < p.trace.length)⟩
    obtain ⟨hrun, hplayback, hshows, hlimits, hbreakpoints, hhit, hhistory⟩ := h.step hp hstop hkeyed he
    have hkeyed' : s.step.breakpoints.Keyed := hbreakpoints ▸ hkeyed.visited e
    have hn' : p.trace.length - (p.cursor + 1 + 1) = n := by omega
    cases hstopped : s.step.stop with
    | some stop =>
      -- a breakpoint stops the step, and is left
      obtain ⟨hplayback', hshows', hstop', hlimits', hbreakpoints', hhistory'⟩ := hshows.resume hplayback hstopped
      obtain ⟨hits, t, hrest⟩ := ih hshows' hplayback' hstop' (hbreakpoints' ▸ hkeyed') hn'
      have hpending : s.step.hit? = some stop.hit := congrArg (Option.map Stop.hit) hstopped
      have hnot : s.step.running = false := Bool.eq_false_iff.2 fun hgoes => by
        rw [(hshows.ready.1 hgoes).1] at hstopped
        cases hstopped
      have hcycle : stop.hit.cycle = (p.cursor + 1 : Nat) :=
        (hshows.stopped stop hstopped).2.2.1.trans hshows.toPlaced.cycle
      refine ⟨stop.hit :: hits, t, hrest.of_step he (hlimits'.trans hlimits) (hbreakpoints'.trans hbreakpoints)
        (hhistory' ▸ hhistory) (.hit (.inl hrun) (.last hnot) hpending hrest.driven) ?_⟩
      rw [if_pos (by rw [← hhit, hpending]; rfl), List.map_cons, hcycle]
      rfl
    | none =>
      -- the drive goes on with the next step, unless this was the last one
      obtain ⟨hits, t, hrest⟩ := ih hshows hplayback hstopped hkeyed' hn'
      have hnone : s.step.hit? = none := congrArg (Option.map Stop.hit) hstopped
      refine ⟨hits, t, hrest.of_step he hlimits hbreakpoints hhistory ?_ ?_⟩
      · by_cases hgoes : s.step.running = true
        · exact hrest.driven.of_step hrun hgoes
        · exact .quiet (.inl hrun) (.last (Bool.eq_false_iff.2 hgoes)) hnone hrest.driven
      · rw [if_neg (by rw [← hhit, hnone]; exact Bool.false_ne_true)]
        rfl

/-! ### From the first entry -/

/-- A drive goes on until the session can neither run nor be resumed. -/
theorem Driven.not_live {hits : List BreakpointHit} (h : Driven s hits t) : ¬t.Live := by
  induction h with
  | done hdone => exact hdone
  | hit _ _ _ _ ih => exact ih
  | quiet _ _ _ _ ih => exact ih

/-- The machine at the end depends on the trace only. -/
theorem Completes.machine_eq {s' t' : Session} {hits hits' : List BreakpointHit} (h : s.Completes p hits t)
    (h' : s'.Completes p hits' t') (hlimits : s'.limits = s.limits) : t.machine = t'.machine := by
  -- both show what the trace shows at its last entry
  have hshown := h.shows.machine_of_stop_none h.stop
  have hshown' := h'.shows.machine_of_stop_none h'.stop
  rw [h.limits] at hshown
  rw [h'.limits, hlimits] at hshown'
  exact Option.some.inj (hshown.symm.trans hshown')

/-- An empty table does not stop a session. -/
theorem Completes.hits_eq_nil {hits : List BreakpointHit} (h : s.Completes p hits t) (hempty : s.breakpoints = {}) :
    hits = [] := by
  have hnone : p.trace.indicesFrom (p.cursor + 1) s.breakpoints.stopsAt = [] := by
    unfold Trace.indicesFrom
    rw [hempty]
    refine List.filter_eq_nil_iff.2 fun i _ hi => ?_
    obtain ⟨e, -, he⟩ := (Option.any_eq_true _ _).1 hi
    cases he
  have hmap := h.hits
  rw [hnone] at hmap
  exact List.map_eq_nil_iff.1 hmap

/-- A session that has loaded a program has one snapshot, of the first entry. -/
theorem history_load {text : String} (hp : (s.load text).playback = some p) :
    (s.load text).history.snapshots.toList.map (·.machine.cycle) = [0] := by
  rcases s.exists_load text with ⟨e, -, hload⟩ | ⟨program, first, logs, -, -, hload⟩
  · rw [hload] at hp
    cases hp
  · rw [hload]
    rfl

/-- **Breakpoints neither skip nor repeat an entry, nor do they show in the outcome.** A session at the first entry of
its trace, with any table that holds at most one breakpoint for an address, is driven to an end in one way only. The
hits are at just the entries behind the first at which the table stops, in their order, and each breakpoint has counted
its own; one snapshot is taken of each entry; and the machine at the end is the one of the drive with an empty
table. -/
theorem drive_from_first_entry (limits : Limits) (cs : List Command) {p : Playback}
    (hp : ((start limits).afterAll cs).playback = some p) (hzero : p.cursor = 0) {table : BreakpointTable}
    (hkeyed : table.Keyed) :
    ∃ hits t plain,
      Driven { (start limits).afterAll cs with breakpoints := table } hits t ∧
      (∀ hits' t', Driven { (start limits).afterAll cs with breakpoints := table } hits' t' → hits' = hits ∧ t' = t) ∧
      ¬t.Live ∧
      hits.map (·.cycle) = (p.trace.indicesFrom 1 table.stopsAt).map (fun i : Nat => (i : Int)) ∧
      t.breakpoints.all =
        table.all.map (fun b => { b with hits := b.hits + (p.trace.indicesFrom 1 b.stopsAt).length }) ∧
      (∃ new, t.history.snapshots.toList = ((start limits).afterAll cs).history.snapshots.toList ++ new ∧
        new.map (·.machine.cycle) = (List.range' 1 (p.trace.length - 1)).map (fun i : Nat => (i : Int))) ∧
      (∀ before text, cs = before ++ [.load text] →
        t.history.snapshots.toList.map (·.machine.cycle) = (List.range p.trace.length).map (fun i : Nat => (i : Int))) ∧
      Driven { (start limits).afterAll cs with breakpoints := {} } [] plain ∧ t.machine = plain.machine := by
  have hshows := (coherent_of_some hp).1 (coherent_afterAll limits cs)
  generalize hs : (start limits).afterAll cs = s at hp hshows ⊢
  -- a stop would have left the first entry
  have hstop : s.stop = none := Option.eq_none_iff_forall_ne_some.2 fun stop hstop =>
    absurd (hshows.stopped stop hstop).1 (by omega)
  have hwith : ∀ table, Shows { s with breakpoints := table } p := fun table =>
    ⟨⟨hshows.wellShaped, hshows.machine, hshows.stopped, hshows.history⟩, hshows.ready, hshows.active⟩
  obtain ⟨hits, t, hcompletes⟩ :=
    exists_completes (s := { s with breakpoints := table }) _ (hwith table) hp hstop hkeyed rfl
  obtain ⟨hits', plain, hplain⟩ :=
    exists_completes (s := { s with breakpoints := {} }) _ (hwith {}) hp hstop BreakpointTable.keyed_empty rfl
  obtain rfl := hplain.hits_eq_nil rfl
  obtain ⟨new, hnew, hcycles⟩ := hcompletes.history
  have hhits := hcompletes.hits
  have hbreakpoints := hcompletes.breakpoints
  rw [hzero] at hhits hbreakpoints hcycles
  refine ⟨hits, t, plain, hcompletes.driven, fun _ _ h => hcompletes.driven.unique h, hcompletes.driven.not_live, hhits,
    hbreakpoints, ⟨new, hnew, hcycles⟩, ?_, hplain.driven, hcompletes.machine_eq hplain rfl⟩
  -- if the program was just loaded, its first entry has its snapshot too
  rintro before text rfl
  obtain rfl : ((start limits).afterAll before).load text = s := by
    rw [← hs]
    unfold afterAll
    rw [List.foldl_append]
    rfl
  obtain ⟨e, he⟩ : ∃ e, p.trace.entries[0]? = some e :=
    ⟨_, Array.getElem?_eq_getElem (Nat.lt_of_lt_of_le Nat.two_pos hshows.wellShaped.two_le)⟩
  rw [hnew, List.map_append, hcycles, List.range_eq_range', ← Nat.sub_zero p.trace.length, Trace.range'_of_getElem? he]
  exact congrArg (· ++ _) (history_load hp)

/-- Two steps over nothing and a halt, with a breakpoint at the second entry, one without a guard that can be read at
the third, and one with a guard that holds at the last, where the machine has stopped already. -/
theorem drive_from_first_entry_terminal_hit :
    let s := (start { memorySize := 32, maxSteps := 10 }).afterAll
      [.load "0x000: 10 10 00", .addBreakpoint 1 none, .addBreakpoint 2 (some "rax=="),
        .addBreakpoint 3 (some "rax == 0")]
    ∃ hits t, Driven s hits t ∧ hits.map (·.cycle) = [1, 3] ∧ ¬t.Live := by
  intro s
  have hfirst : s.playback.map (fun p => (p.cursor, p.trace.indicesFrom 1 s.breakpoints.stopsAt))
      = some (0, [1, 3]) := by
    decide +kernel
  -- the condition of the second breakpoint does not parse, and the third is at the entry that halts
  obtain ⟨p, hp, hvalues⟩ := Option.map_eq_some_iff.1 hfirst
  obtain ⟨hzero, hindices⟩ := Prod.mk.inj hvalues
  obtain ⟨hits, t, -, hdriven, -, hdone, hhits, -⟩ := drive_from_first_entry _ _ hp hzero (keyed_afterAll _ _)
  rw [hindices] at hhits
  exact ⟨hits, t, hdriven, hhits, hdone⟩

end Session

end Y86
