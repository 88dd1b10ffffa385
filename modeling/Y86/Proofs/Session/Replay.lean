import Y86.Proofs.Session.Inversion

/-!
# Replay is execution

A session never carries out an instruction after it has loaded a program: it lays recorded words over the memory that
it shows, or over that of a snapshot. All the same its machine is the one that plain execution reaches in as many steps
as the cursor says (`Session.replay_eq_execution`), whichever commands have moved the cursor there.

* Commands other than loading and resetting leave the trace alone, so it is that of the text that was loaded last
  (`Session.trace?_afterAll`).
* The invariant of sessions says that the machine is what the trace shows at the cursor, and the trace shows an
  execution.
-/

namespace Y86

namespace Session

/-! ### The text that is loaded -/

/-- The text that is loaded after a command, given the one before it. -/
def textAfter (before : Option String) : Command → Option String
  | .load text => some text
  | .reset => none
  | _ => before

/-- The text that was loaded last, unless the session was reset since. -/
def lastText (cs : List Command) : Option String := cs.foldl textAfter none

/-- The trace of a text, unless the text does not load. -/
def traceOf (limits : Limits) (text : String) : Option Trace :=
  (Program.load limits.memory text).toOption.map (.build limits.maxSteps)

theorem exists_of_traceOf {limits : Limits} {text : String} {t : Trace} (h : traceOf limits text = some t) :
    ∃ program, Program.load limits.memory text = .ok program ∧ t = .build limits.maxSteps program := by
  obtain ⟨program, hload, ht⟩ := Option.map_eq_some_iff.1 h
  exact ⟨program, eq_ok_of_toOption hload, ht.symm⟩

/-- What only loading and resetting can change. -/
def source (s : Session) : Limits × Option Trace := (s.limits, s.trace?)

variable (s : Session)

theorem Aside.source {s t : Session} (h : s.Aside t) : t.source = s.source := Prod.ext h.limits h.trace

theorem source_advance (e : TraceEntry) : (s.advance e).source = s.source := by
  have hsettle : ∀ s : Session, s.settle.source = s.source := by
    intro s
    unfold settle
    split <;> rfl
  have hcheck : ∀ s : Session, s.checkBreakpoints.source = s.source := by
    intro s
    obtain ⟨logs, hcheck⟩ := s.exists_checkBreakpoints
    rw [hcheck]
    unfold checked
    cases s.breakpoints.stopping? s.machine.pc s.machine.registers <;> rfl
  rw [advance_eq, hsettle, hcheck]
  -- to move on is to move the place in the trace
  show (s.moved e).source = s.source
  unfold moved
  cases hp : s.playback with
  | none => rfl
  | some p =>
    unfold source trace?
    rw [hp]
    rfl

theorem source_step : s.step.source = s.source := by
  rcases s.step_cases with haside | ⟨e, -, hstep⟩
  · exact haside.source
  · rw [hstep]
    exact s.source_advance e

/-- A loaded text replaces the trace, or leaves none behind. -/
theorem source_load (text : String) : (s.load text).source = (s.limits, traceOf s.limits text) := by
  unfold traceOf
  rcases s.exists_load text with ⟨e, herror, hload⟩ | ⟨program, first, logs, hok, -, hload⟩
  · rw [herror, hload]
    rfl
  · rw [hok, hload]
    rfl

/-- Of all commands only loading and resetting change the trace. -/
theorem source_after (c : Command) :
    (s.after c).source =
      match c with
      | .load text => (s.limits, traceOf s.limits text)
      | .reset => (s.limits, none)
      | _ => s.source := by
  by_cases hnew : (∀ text, c ≠ .load text) ∧ c ≠ .reset
  · -- neither an aside nor an advance changes the trace
    have hsame : (s.after c).source = s.source := by
      rcases s.after_cases hnew.1 hnew.2 with haside | ⟨e, -, hafter⟩
      · exact haside.source
      · rw [hafter]
        exact s.source_advance e
    rw [hsame]
    cases c with
    | load text => exact absurd rfl (hnew.1 text)
    | reset => exact absurd rfl hnew.2
    | _ => rfl
  · cases c with
    | load text => exact s.source_load text
    | reset => rfl
    | _ => exact absurd ⟨fun _ e => (nomatch e), fun e => (nomatch e)⟩ hnew

/-- The trace of a session is that of the text that was loaded last. -/
theorem source_afterAll (limits : Limits) (cs : List Command) :
    ((start limits).afterAll cs).source = (limits, (lastText cs).bind (traceOf limits)) := by
  -- the text that is loaded is followed from command to command, whatever came before
  have hgeneral : ∀ (cs : List Command) (s : Session) (before : Option String),
      s.source = (limits, before.bind (traceOf limits)) →
        (s.afterAll cs).source = (limits, (cs.foldl textAfter before).bind (traceOf limits)) := by
    intro cs
    induction cs with
    | nil => exact fun s before h => h
    | cons c cs ih =>
      intro s before h
      refine ih (s.after c) (textAfter before c) ?_
      have hlimits : s.limits = limits := congrArg Prod.fst h
      rw [source_after]
      cases c with
      | load text => rw [hlimits]; rfl
      | reset => rw [hlimits]; rfl
      | _ => exact h
  exact hgeneral cs (start limits) none rfl

/-- A session keeps the limits that it was started with. -/
theorem limits_afterAll (limits : Limits) (cs : List Command) : ((start limits).afterAll cs).limits = limits :=
  congrArg Prod.fst (source_afterAll limits cs)

/-- The trace of a session is built of the program that was loaded last. -/
theorem exists_build (limits : Limits) (cs : List Command) {p : Playback}
    (hp : ((start limits).afterAll cs).playback = some p) :
    ∃ text program, lastText cs = some text ∧ Program.load limits.memory text = .ok program ∧
      p.trace = .build limits.maxSteps program := by
  have htrace : ((start limits).afterAll cs).trace? = (lastText cs).bind (traceOf limits) :=
    congrArg Prod.snd (source_afterAll limits cs)
  unfold trace? at htrace
  rw [hp] at htrace
  obtain ⟨text, htext, hof⟩ := Option.bind_eq_some_iff.1 htrace.symm
  obtain ⟨program, hload, hbuild⟩ := exists_of_traceOf hof
  exact ⟨text, program, htext, hload, hbuild⟩

/-! ### Execution -/

/-- Behind a stop stands the same machine, but for its status. -/
theorem own_agrees (s : Session) : s.machine.Agrees s.own ∧ s.machine.cycle = s.own.cycle := by
  rw [s.own_eq]
  exact ⟨⟨rfl, rfl, rfl, rfl⟩, rfl⟩

theorem Placed.cycle {s : Session} {p : Playback} (h : s.Placed p) : s.machine.cycle = p.cursor :=
  s.own_agrees.2.trans (Trace.cycle_of_machineAt? h.machine)

/-- **Replay is execution.** After any commands, a session with a trace shows the trace of the text that was loaded
last; its cycle is its cursor; and its program counter, registers, flags and memory are those that plain execution of
the program reaches in as many steps as the cursor says, or in all that were attempted if that is fewer. A step that
fails counts, with what it had changed by then. -/
theorem replay_eq_execution (limits : Limits) (cs : List Command) {p : Playback}
    (hp : ((start limits).afterAll cs).playback = some p) :
    ∃ text program, lastText cs = some text ∧ Program.load limits.memory text = .ok program ∧
      p.trace = .build limits.maxSteps program ∧
      ((start limits).afterAll cs).cursor = p.cursor ∧
      ((start limits).afterAll cs).machine.cycle = p.cursor ∧
      ((start limits).afterAll cs).machine.Agrees
        (Machine.stepped^[min p.cursor (Recording.attempts limits.maxSteps (.start program))]
          (.initial program.memory program.entry)) := by
  have hshows := (coherent_of_some hp).1 (coherent_afterAll limits cs)
  have hlimits := limits_afterAll limits cs
  obtain ⟨text, program, htext, hload, hbuild⟩ := exists_build limits cs hp
  generalize (start limits).afterAll cs = s at hp hshows hlimits
  -- the machine is what the trace shows at the cursor
  have hmachine := hshows.machine
  rw [hlimits, hbuild] at hmachine
  have hlt : p.cursor < (Trace.build limits.maxSteps program).length := by
    obtain ⟨e, he, -⟩ := TraceEntry.exists_of_machineAt? hmachine
    exact (List.getElem?_eq_some_iff.1 he).1
  obtain ⟨m, hm, hexecuted, -⟩ := Trace.exists_machineAt?_build hload rfl hlt
  obtain rfl : s.own = m := Option.some.inj (hmachine.symm.trans hm)
  refine ⟨text, program, htext, hload, hbuild, ?_, hshows.cycle, ?_⟩
  · unfold cursor
    rw [hp]
  · exact (s.own_agrees.1.trans hexecuted).trans (Recording.iterate_advance_agrees _ (Recording.start_agrees program) _)

/-- A push that moves the stack pointer below zero and then fails, shown, left for a snapshot and shown again at a
breakpoint. -/
theorem replay_eq_execution_failed_push :
    let limits : Limits := { memorySize := 32, maxSteps := 10 }
    let text := "0x000: 30 f4 04 00 00 00 00 00 00 00\n0x00a: a0 0f"
    let s := (start limits).afterAll
      [.load text, .step, .addBreakpoint 10 none, .step, .restore (.id ⟨1⟩), .step]
    s.machine.rsp = -4 ∧ s.machine.cycle = 2 ∧
      ∃ program, Program.load limits.memory text = .ok program ∧
        s.machine.Agrees (Machine.stepped^[min 2 (Recording.attempts limits.maxSteps (.start program))]
          (.initial program.memory program.entry)) := by
  intro limits text s
  have hcursor : s.playback.map (·.cursor) = some 2 := by decide +kernel
  have hrsp : s.machine.rsp = -4 := by decide +kernel
  obtain ⟨p, hp, hp2⟩ := Option.map_eq_some_iff.1 hcursor
  -- after the failed push the cursor is 2, and as many attempts are all there are
  obtain ⟨_, program, htext, hload, -, -, hcycle, hagrees⟩ := replay_eq_execution limits _ hp
  rw [hp2] at hcycle hagrees
  cases htext
  exact ⟨hrsp, hcycle, program, hload, hagrees⟩

end Session

end Y86
