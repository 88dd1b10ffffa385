import Y86.Proofs.Session.Lockstep

/-!
# A continuous run is stepping

Whoever drives a session, the same entries are shown and the end is the same: steps that are taken until one is
answered no, the ticks of a continuous run, and the time-outs of a clock, each with any number of interruptions
(`Session.DrivenTo`). That there is an end is a fact about steps alone (`Session.exists_runs`), and the others are in
lockstep with them.

The one driver that may come to another end is a clock that goes already when it is started, over a session that is not
driven any more: it stops at its next time-out, unless it is interrupted before (`Clock.Ready`).
`Session.run_eq_steps` puts this together for all sessions that commands lead to.
-/

namespace Y86

/-- Of the passes from `first` on, `k` is the first after which the answer is no. -/
structure StopsAt (answer : Nat → Bool) (first k : Nat) : Prop where
  le : first ≤ k
  no : answer k = false
  yes : ∀ i, first ≤ i → i < k → answer i = true

theorem StopsAt.unique {answer : Nat → Bool} {first k k' : Nat} (h : StopsAt answer first k)
    (h' : StopsAt answer first k') : k = k' := by
  rcases Nat.lt_trichotomy k k' with hlt | heq | hlt
  · exact absurd (h'.yes k h.le hlt) (Bool.eq_false_iff.1 h.no)
  · exact heq
  · exact absurd (h.yes k' h'.le hlt) (Bool.eq_false_iff.1 h'.no)

theorem StopsAt.here {answer : Nat → Bool} {k : Nat} (hno : answer k = false) : StopsAt answer k k where
  le := Nat.le_refl k
  no := hno
  yes _ hi hlt := absurd hi (Nat.not_le.2 hlt)

/-- An answer of yes may be put in front. -/
theorem StopsAt.of_one {answer : Nat → Bool} {k : Nat} (h : StopsAt answer 1 k) (hzero : answer 0 = true) :
    StopsAt answer 0 k := by
  refine ⟨Nat.zero_le k, h.no, fun i _ hi => ?_⟩
  cases i with
  | zero => exact hzero
  | succ i => exact h.yes (i + 1) (Nat.succ_le_succ (Nat.zero_le i)) hi

namespace Session

variable {s t : Session}

/-! ### Steps to the end -/

/-- The session can take `n` steps, and no more. -/
structure Runs (s : Session) (n : Nat) : Prop where
  running : ∀ i, (step^[i] s).running = decide (i < n)
  cursor : ∀ i, (step^[i] s).cursor = s.cursor + min i n
  last : ∀ i, n ≤ i → step^[i] s = step^[n] s

theorem runs_zero (hrun : s.running = false) (hsame : s.step = s) : s.Runs 0 := by
  have hfixed : ∀ i, step^[i] s = s := fun i => Function.iterate_fixed hsame i
  refine ⟨fun i => ?_, fun i => ?_, fun i _ => hfixed i⟩
  · rw [hfixed, hrun]
    rfl
  · rw [hfixed, Nat.min_zero]
    exact (Int.add_zero _).symm

/-- A step in front of them is one step more. -/
theorem Runs.succ {n : Nat} (h : s.step.Runs n) (hrun : s.running = true) (hcursor : s.step.cursor = s.cursor + 1) :
    s.Runs (n + 1) where
  running i := by
    -- the first of the steps is the one in front; the rest is the run that follows it
    cases i with
    | zero => exact hrun
    | succ i =>
      rw [Function.iterate_succ_apply, h.running]
      exact decide_eq_decide.2 Nat.succ_lt_succ_iff.symm
  cursor i := by
    cases i with
    | zero => simp
    | succ i =>
      rw [Function.iterate_succ_apply, h.cursor, hcursor]
      omega
  last i hi := by
    cases i with
    | zero => exact absurd hi (Nat.not_succ_le_zero n)
    | succ i =>
      rw [Function.iterate_succ_apply, Function.iterate_succ_apply]
      exact h.last i (Nat.le_of_succ_le_succ hi)

/-- Every session comes to an end of its steps. -/
theorem exists_runs (h : s.Coherent) : ∃ n, n ≤ s.remaining ∧ s.Runs n := by
  -- on the number of entries left, which a step takes one from
  induction hleft : s.remaining generalizing s with
  | zero =>
    rcases h.step_cases with ⟨-, hadvances⟩ | ⟨hrun, hsame⟩
    · have hremaining := hadvances.remaining
      omega
    · exact ⟨0, Nat.le_refl 0, runs_zero hrun hsame⟩
  | succ m ih =>
    rcases h.step_cases with ⟨hrun, hadvances⟩ | ⟨hrun, hsame⟩
    · have hremaining := hadvances.remaining
      obtain ⟨n, hn, hruns⟩ := ih h.step (by omega)
      exact ⟨n + 1, Nat.succ_le_succ hn, hruns.succ hrun hadvances.cursor⟩
    · exact ⟨0, Nat.zero_le _, runs_zero hrun hsame⟩

end Session

/-! ### To the end -/

/-- A driver shows `n` entries more, one with each pass, and stops after the pass `k`, which leaves what `t` is. -/
structure TakesTo (driven : Nat → Session) (answer : Nat → Bool) (first n : Nat) (t : Session) (k : Nat) : Prop where
  stops : StopsAt answer first k
  core : (driven k).core = t.core
  cursor : ∀ i ≤ k, (driven i).cursor = (driven 0).cursor + min i n

namespace Session

variable {s t : Session} {n : Nat} {driven : Nat → Session} {answer : Nat → Bool}

/-- A driver in lockstep with the steps of a session comes to the same end. -/
theorem Runs.takesTo (h : s.Runs n) (hcore : ∀ i, (driven i).core = (step^[i] s).core) {first : Nat}
    (hanswer : ∀ i, first ≤ i → answer i = (step^[i] s).running) :
    TakesTo driven answer first n (step^[n] s) (max first n) where
  stops :=
    { le := Nat.le_max_left first n
      no := by
        rw [hanswer _ (Nat.le_max_left first n), h.running]
        exact decide_eq_false (Nat.not_lt.2 (Nat.le_max_right first n))
      -- before `n` the session is running still
      yes := fun i hi hlt => by
        rw [hanswer i hi, h.running]
        exact decide_eq_true (by omega) }
  core := by rw [hcore, h.last _ (Nat.le_max_right first n)]
  cursor i _ := by
    rw [cursor_of_core (hcore i), cursor_of_core (hcore 0), h.cursor, Function.iterate_zero, id]

/-- Along its steps the cycle of a session goes with its cursor. -/
theorem Runs.cycle (hruns : s.Runs n) (h : s.Coherent) (hloaded : s.playback ≠ none) (i : Nat) :
    (step^[i] s).machine.cycle = s.machine.cycle + min i n := by
  obtain ⟨p, hp⟩ := Option.ne_none_iff_exists'.1 hloaded
  have hcursor := hruns.cursor i
  rw [cursor_of_playback hp] at hcursor
  -- a session without a trace has no cursor
  obtain ⟨q, hq⟩ : ∃ q, (step^[i] s).playback = some q := by
    cases hnone : (step^[i] s).playback with
    | some q => exact ⟨q, rfl⟩
    | none =>
      unfold Session.cursor at hcursor
      rw [hnone] at hcursor
      dsimp only at hcursor
      omega
  rw [((coherent_of_some hq).1 (h.iterate_step i)).toPlaced.cycle, ((coherent_of_some hp).1 h).toPlaced.cycle,
    ← cursor_of_playback hq, ← cursor_of_playback hp, hruns.cursor]

theorem stepUntilStopped_eq {bound k : Nat} (hk : StopsAt (fun i => (step^[i] s).running) 1 k) (hbound : k ≤ bound) :
    stepUntilStopped bound s = (k, step^[k] s) := by
  -- on the bound, which is there for the definition only: the steps stop before it
  induction bound generalizing s k with
  | zero =>
    have hle := hk.le
    omega
  | succ bound ih =>
    unfold stepUntilStopped
    dsimp only
    by_cases hrun : s.step.running = true
    · -- the steps behind the first one stop one earlier
      obtain ⟨j, rfl⟩ : ∃ j, k = j + 1 := ⟨k - 1, by have := hk.le; omega⟩
      have hlater : StopsAt (fun i => (step^[i] s.step).running) 1 j := by
        refine ⟨?_, hk.no, fun i hi hlt => hk.yes (i + 1) (Nat.le_add_left 1 i) (Nat.succ_lt_succ hlt)⟩
        by_contra hzero
        obtain rfl : j = 0 := by omega
        exact absurd hrun (Bool.eq_false_iff.1 hk.no)
      rw [if_pos hrun, ih hlater (Nat.le_of_succ_le_succ hbound)]
      rfl
    · obtain rfl := hk.unique (.here (Bool.eq_false_iff.2 hrun))
      rw [if_neg hrun]
      rfl

end Session

/-! ### A clock to the end -/

namespace Clock

/-- Whether the clock goes after `i` time-outs. -/
def goes (breaks : Nat → Nat) (x : Clock × Session) (i : Nat) : Bool := (timedOut breaks x i).2.1.active

/-- What its session is then. -/
def shown (breaks : Nat → Nat) (x : Clock × Session) (i : Nat) : Session := (timedOut breaks x i).2.2

variable {c : Clock} {s : Session} {n : Nat} {breaks : Nat → Nat}

/-- A clock that is ready takes the session to the end of its steps. -/
theorem takesTo_of_ready (hready : c.Ready s breaks) (h : s.Coherent) (hruns : s.Runs n) :
    ∃ k ≤ n + 1, TakesTo (shown breaks (c.start s)) (goes breaks (c.start s)) 0 n (Session.step^[n] s) k := by
  by_cases hactive : c.active = true
  · have hcore : ∀ i, (shown breaks (c.start s) i).core = (Session.step^[i] s).core := by
      intro i
      cases i with
      | zero => exact core_start c s
      | succ i => exact (hready.timedOut h i).core
    have hlater : TakesTo (shown breaks (c.start s)) (goes breaks (c.start s)) 1 n (Session.step^[n] s) (max 1 n) := by
      refine hruns.takesTo hcore fun i hi => ?_
      obtain ⟨j, rfl⟩ : ∃ j, i = j + 1 := ⟨i - 1, by omega⟩
      exact (hready.timedOut h j).clock
    -- the clock went in front of the first time-out already
    have hgoes : (c.start s).1.active = true := by
      rw [start_of_active hactive]
      exact hactive
    exact ⟨max 1 n, by omega, hlater.stops.of_one hgoes, hlater.core, hlater.cursor⟩
  · have hlock := (lockstep_start h (Bool.eq_false_iff.2 hactive)).timedOut h breaks
    exact ⟨max 0 n, by omega, hruns.takesTo (fun i => (hlock i).core) fun i _ => (hlock i).clock⟩

/-- A clock that is not ready stops at its first time-out, and the session stays where it is. -/
theorem stopsAt_of_not_ready (hready : ¬c.Ready s breaks) :
    s.running = true ∧ shown breaks (c.start s) 1 = s ∧ StopsAt (goes breaks (c.start s)) 0 1 := by
  unfold Ready at hready
  simp only [Classical.not_imp, not_or] at hready
  obtain ⟨hactive, hrun, hidle, hbreaks⟩ := hready
  -- the session is not driven, and the clock finds that out
  have htick : s.tick = s := by
    unfold Session.tick
    rw [if_neg hidle]
  have hfirst : timedOut breaks (c.start s) 1 = c.timeout s := by
    show Clock.timeout (interrupted^[breaks 0] (c.start s)).1 _ = _
    rw [Nat.eq_zero_of_not_pos hbreaks, start_of_active hactive]
    rfl
  refine ⟨hrun, ?_, .of_one (.here ?_) ?_⟩
  · show (timedOut breaks (c.start s) 1).2.2 = s
    rw [hfirst, session_timeout hactive, htick]
  · show (timedOut breaks (c.start s) 1).2.1.active = false
    rw [hfirst, active_timeout, htick, Bool.eq_false_iff.2 hidle, Bool.and_false]
  · show (c.start s).1.active = true
    rw [start_of_active hactive]
    exact hactive

/-- What the time-out `i` of `n` reports: the cycle after it and, if it is the last one, that the clock has stopped. -/
def reports (s : Session) (n i : Nat) : List ClockEvent :=
  .stepped (s.machine.cycle + (i + 1 : Nat)) :: if i + 1 = n then [.finished] else []

/-- A clock at rest, started over the session, reports each of `n` entries once, and once that it has stopped. -/
structure Signals (c : Clock) (s : Session) (breaks : Nat → Nat) (n : Nat) : Prop where
  /-- It is started exactly if there are entries to show. -/
  start : (c.start s).1.active = true ↔ 0 < n
  stops : StopsAt (goes breaks (c.start s)) 0 n
  events : ∀ i < n, (timedOut breaks (c.start s) (i + 1)).1 = reports s n i

theorem signals (h : s.Coherent) (hloaded : s.playback ≠ none) (hruns : s.Runs n) (hrest : c.active = false) :
    c.Signals s breaks n := by
  have hlock := (lockstep_start h hrest).timedOut h breaks
  refine ⟨?_, ?_, fun i hi => ?_⟩
  · have hstart : (c.start s).1.active = decide (0 < n) := (hlock 0).clock.trans (hruns.running 0)
    rw [hstart, decide_eq_true_iff]
  · have htakes : TakesTo (shown breaks (c.start s)) (goes breaks (c.start s)) 0 n (Session.step^[n] s) (max 0 n) :=
      hruns.takesTo (fun i => (hlock i).core) fun i _ => (hlock i).clock
    rw [Nat.zero_max] at htakes
    exact htakes.stops
  · have hgoes : (Session.step^[i] s).running = true := by
      rw [hruns.running]
      exact decide_eq_true hi
    have hevents := ((hlock i).interrupted (breaks i)).events (h.iterate_step i) hgoes
    rw [← Function.iterate_succ_apply' Session.step, hruns.cycle h hloaded, hruns.running,
      Nat.min_eq_left (Nat.succ_le_of_lt hi)] at hevents
    refine hevents.trans (congrArg (List.cons _) ?_)
    -- the session cannot go on after the last of the entries
    by_cases hlast : i + 1 = n
    · rw [if_pos hlast, if_neg (by simp [hlast])]
    · rw [if_neg hlast, if_pos (decide_eq_true (by omega))]

theorem timedOut_succ (x : Clock × Session) (i : Nat) :
    (timedOut (fun _ => 0) x (i + 1)).2 = (timedOut (fun _ => 0) (x.1.timeout x.2).2 i).2 := by
  induction i with
  | zero => rfl
  | succ i ih => exact congrArg (fun y : Clock × Session => (y.1.timeout y.2).2) ih

theorem timeouts_eq {x : Clock × Session} {bound k : Nat}
    (hk : StopsAt (goes (fun _ => 0) x) 0 k) (hbound : k ≤ bound) :
    timeouts bound x.1 x.2 =
      ((List.range k).flatMap fun i => (timedOut (fun _ => 0) x (i + 1)).1, (timedOut (fun _ => 0) x k).2) := by
  induction bound generalizing x k with
  | zero =>
    obtain rfl := Nat.le_zero.1 hbound
    rfl
  | succ bound ih =>
    unfold timeouts
    by_cases hactive : x.1.active = true
    · cases k with
      | zero => exact absurd hactive (Bool.eq_false_iff.1 hk.no)
      | succ k =>
        -- behind the first time-out the same clock stops one earlier
        have hgoes : ∀ i, goes (fun _ => 0) x (i + 1) = goes (fun _ => 0) (x.1.timeout x.2).2 i := fun i =>
          congrArg (fun y : Clock × Session => y.1.active) (timedOut_succ x i)
        have hlater : StopsAt (goes (fun _ => 0) (x.1.timeout x.2).2) 0 k := by
          refine ⟨Nat.zero_le k, ?_, fun i _ hi => ?_⟩
          · rw [← hgoes]
            exact hk.no
          · rw [← hgoes]
            exact hk.yes (i + 1) (Nat.zero_le _) (Nat.succ_lt_succ hi)
        have hevents : ∀ i, (timedOut (fun _ => 0) x (i + 1 + 1)).1
            = (timedOut (fun _ => 0) (x.1.timeout x.2).2 (i + 1)).1 := fun i =>
          congrArg (fun y : Clock × Session => (y.1.timeout y.2).1) (timedOut_succ x i)
        rw [if_pos hactive, List.range_succ_eq_map, List.flatMap_cons, List.flatMap_map, timedOut_succ]
        dsimp only
        rw [ih hlater (Nat.le_of_succ_le_succ hbound)]
        simp only [Nat.succ_eq_add_one, hevents]
        rfl
    · obtain rfl := hk.unique (.here (Bool.eq_false_iff.2 hactive))
      rw [if_neg hactive]
      rfl

/-- The loop of a clock at rest that is started shows the entries and stops. -/
theorem loop_eq (h : s.Coherent) (hloaded : s.playback ≠ none) (hruns : s.Runs n) (hn : n ≤ s.remaining)
    (hrest : c.active = false) :
    ((c.start s).1.loop (c.start s).2).1 = (List.range n).flatMap (reports s n) ∧
      ((c.start s).1.loop (c.start s).2).2 = (timedOut (fun _ => 0) (c.start s) n).2 := by
  have hsignals : c.Signals s (fun _ => 0) n := signals h hloaded hruns hrest
  have hremaining : (c.start s).2.remaining = s.remaining := Session.remaining_of_core (core_start c s)
  unfold loop
  rw [timeouts_eq hsignals.stops (by omega)]
  refine ⟨?_, rfl⟩
  exact List.flatMap_congr fun i hi => hsignals.events i (List.mem_range.1 hi)

end Clock

namespace Session

variable {s : Session} {n : Nat}

/-- All that can drive the session leads to what `t` is, `n` entries further on. -/
structure DrivenTo (s : Session) (n : Nat) (t : Session) : Prop where
  cursor : t.cursor = s.cursor + n
  /-- Steps are taken until one is answered no. -/
  steps : ∃ k, TakesTo (fun i => step^[i] s) (fun i => (step^[i] s).running) 1 n t k
  finish : s.finish = (max 1 n, t)
  /-- A continuous run, interrupted in whatever places, takes ticks until one is answered no. -/
  ticks : ∀ breaks, ∃ k, TakesTo (s.ticked breaks) (fun i => (s.ticked breaks i).active) 1 n t k
  /-- A clock that is started, and interrupted in whatever places, comes to a stop. -/
  stops : ∀ (c : Clock) breaks,
    ∃ k ≤ n + 1, StopsAt (Clock.goes breaks (c.start s)) 0 k
  /-- It stops where the steps end, unless it goes already when it is started and does not drive the session. -/
  clock : ∀ (c : Clock) breaks,
    (∃ k, TakesTo (Clock.shown breaks (c.start s)) (Clock.goes breaks (c.start s)) 0 n t k) ↔ c.Ready s breaks
  signals : ∀ (c : Clock) breaks, c.active = false → c.Signals s breaks n
  loop : ∀ c : Clock, c.active = false →
    ((c.start s).1.loop (c.start s).2).1 = (List.range n).flatMap (Clock.reports s n) ∧
      ((c.start s).1.loop (c.start s).2).2.1.active = false ∧ ((c.start s).1.loop (c.start s).2).2.2.core = t.core

/-- A session that runs for a number of steps is driven as far in each of the three ways. -/
theorem Runs.drivenTo (hruns : s.Runs n) (h : s.Coherent) (hloaded : s.playback ≠ none) (hn : n ≤ s.remaining) :
    s.DrivenTo n (step^[n] s) := by
  have hend : (step^[n] s).cursor = s.cursor + n := by rw [hruns.cursor, Nat.min_self]
  have hsteps : TakesTo (fun i => step^[i] s) (fun i => (step^[i] s).running) 1 n (step^[n] s) (max 1 n) :=
    hruns.takesTo (fun _ => rfl) fun _ _ => rfl
  refine ⟨hend, ⟨_, hsteps⟩, ?_, fun breaks => ?_, fun c breaks => ?_, fun c breaks => ⟨?_, fun hready => ?_⟩,
    fun c breaks => Clock.signals h hloaded hruns, fun c hrest => ?_⟩
  · -- `finish` takes one step at least
    unfold finish
    have hlast := hruns.last (max 1 n) (Nat.le_max_right 1 n)
    rw [stepUntilStopped_eq hsteps.stops (by omega), hlast]
  · have hlock := h.lockstep_ticked breaks
    exact ⟨_, hruns.takesTo (fun i => (hlock i).core) fun i _ => (hlock i).active⟩
  · by_cases hready : c.Ready s breaks
    · obtain ⟨k, hk, htakes⟩ := Clock.takesTo_of_ready hready h hruns
      exact ⟨k, hk, htakes.stops⟩
    · exact ⟨1, Nat.le_add_left 1 n, (Clock.stopsAt_of_not_ready hready).2.2⟩
  · rintro ⟨k, htakes⟩
    by_contra hready
    obtain ⟨hrun, hsame, hone⟩ := Clock.stopsAt_of_not_ready hready
    obtain rfl := htakes.stops.unique hone
    -- the session has not moved, and a step would have moved it
    have hcursor := cursor_of_core htakes.core
    rw [hsame, hend] at hcursor
    have hpos : s.running = decide (0 < n) := hruns.running 0
    rw [hrun, eq_comm, decide_eq_true_iff] at hpos
    omega
  · obtain ⟨k, -, htakes⟩ := Clock.takesTo_of_ready hready h hruns
    exact ⟨k, htakes⟩
  · obtain ⟨hevents, hstate⟩ := Clock.loop_eq h hloaded hruns hn hrest
    have hlock := (Clock.lockstep_start h hrest).timedOut h (fun _ => 0) n
    rw [hstate]
    refine ⟨hevents, ?_, hlock.core⟩
    rw [hlock.clock, hruns.running]
    exact decide_eq_false (Nat.lt_irrefl n)

/-- **A continuous run is stepping.** After any commands, and with any breakpoint table, a session with a trace is
driven to one end: by steps, by the ticks of a run, and by the time-outs of a clock, however often they are interrupted.
No more entries are shown on the way than are left, and a clock that was at rest reports each of them. Only a clock that
goes already when it is started, without driving the session, and is not interrupted before its first time-out does not
come to that end. -/
theorem run_eq_steps (limits : Limits) (cs : List Command) {p : Playback}
    (hp : ((start limits).afterAll cs).playback = some p) (table : BreakpointTable) :
    ∃ n t, n ≤ p.trace.length - 1 - p.cursor ∧
      DrivenTo { (start limits).afterAll cs with breakpoints := table } n t := by
  have hcoherent := coherent_afterAll limits cs
  generalize (start limits).afterAll cs = s at hp hcoherent ⊢
  -- the invariant of sessions says nothing of the table
  have hwith := hcoherent.aside table s.added s.logs
  obtain ⟨n, hn, hruns⟩ := exists_runs hwith
  have hremaining : Session.remaining { s with breakpoints := table } = p.trace.length - (p.cursor + 1) :=
    remaining_of_playback (s := { s with breakpoints := table }) hp
  exact ⟨n, _, by omega, hruns.drivenTo hwith (by rw [hp]; exact Option.some_ne_none p) hn⟩

/-- Two steps over nothing and a halt behind them, with a breakpoint at the second entry: there everything that drives
the session stops, and so does a clock that is interrupted twice before its only time-out. -/
theorem run_eq_steps_breakpoint :
    let s := (start { memorySize := 32, maxSteps := 10 }).afterAll [.load "0x000: 10 10 00", .addBreakpoint 1 none]
    s.DrivenTo 1 s.finish.2 := by
  intro s
  have hsome : s.playback.isSome = true := by decide +kernel
  obtain ⟨p, hp⟩ := Option.isSome_iff_exists.1 hsome
  obtain ⟨n, t, -, hdriven⟩ := run_eq_steps _ _ hp s.breakpoints
  -- its end is that of `finish`, one entry further on
  obtain rfl : t = s.finish.2 := (congrArg Prod.snd hdriven.finish).symm
  have hend : s.finish.2.cursor = s.cursor + n := hdriven.cursor
  have hone : s.finish.2.cursor = s.cursor + 1 := by decide +kernel
  obtain rfl : n = 1 := by omega
  exact hdriven

/-- A session with two entries left was paused while its clock went. Started again, the clock stops at once and shows
neither of them. -/
theorem clock_stops_before_end :
    let x := Clock.afterAll ({}, .start { memorySize := 64 })
      [.session (.load "0x000: 10\n0x001: 00"), .start, .session .pause]
    let y := x.1.start x.2
    x.2.finish.2.cursor = 2 ∧ (y.1.loop y.2).2.1.active = false ∧ (y.1.loop y.2).2.2.cursor = 0 := by
  refine ⟨?_, ?_, ?_⟩ <;> decide +kernel

end Session

end Y86
