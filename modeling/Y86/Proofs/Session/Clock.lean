import Y86.Proofs.Session.History
import Y86.Session.Clock

/-!
# What a clock answers

A clock has a flag of its own beside the flags of its session, and asks the session only when it is started at rest
and when its time is up. So the two can drift apart: a session that is paused, reset or moved by its own commands is no
longer driven, while the clock goes on until its next time-out. In between, a start finds the clock going and is
answered yes without a look at the session.

`Clock.StartTruthful` is what the answer should mean. After any commands to clock and session it holds exactly if the
two have not drifted apart (`Clock.startTruthful_iff`), and a time-out or a pause brings them together again.
-/

namespace Y86

def Session.CanAdvance (s : Session) : Prop := s.Advances s.step

theorem Session.Coherent.canAdvance_iff {s : Session} (h : s.Coherent) : s.CanAdvance ↔ s.running = true := by
  rcases h.step_cases with ⟨hrun, hadvances⟩ | ⟨hrun, hsame⟩
  · exact iff_of_true hadvances hrun
  · refine iff_of_false ?_ (Bool.eq_false_iff.1 hrun)
    intro hadvances
    have hcursor := hadvances.cursor
    rw [hsame] at hcursor
    omega

namespace Clock

/-- A clock and its session after a sequence of commands. -/
def afterAll (x : Clock × Session) (cs : List ClockCommand) : Clock × Session := cs.foldl after x

/-- A clock that goes drives its session. -/
def Synced (c : Clock) (s : Session) : Prop := c.active = true → s.active = true

/-- A start is answered truthfully. -/
structure StartTruthful (c : Clock) (s : Session) : Prop where
  /-- With a yes only if the session is driven and can advance, so that the next time-out shows one entry more. -/
  yes : (c.start s).1.active = true →
    (c.start s).2.active = true ∧ (c.start s).2.CanAdvance ∧
      (c.start s).2.Advances ((c.start s).1.timeout (c.start s).2).2.2
  /-- With a no whenever the session cannot advance. -/
  no : ¬s.CanAdvance → (c.start s).1.active = false

variable {c : Clock} {s : Session}

/-! ### What a clock does to its session -/

theorem start_of_active (h : c.active = true) : c.start s = (c, s) := if_pos h

theorem start_of_inactive (h : c.active = false) : c.start s = ({ c with active := s.running }, s.run) := by
  unfold start
  rw [h]
  rfl

theorem session_timeout (h : c.active = true) : (c.timeout s).2.2 = s.tick := by
  unfold timeout
  rw [if_pos h]
  dsimp only
  split <;> rfl

/-- Whatever is asked of a clock, its session is left alone or given one command. -/
theorem session_after (x : Clock × Session) (d : ClockCommand) :
    (after x d).2 = x.2 ∨ ∃ command, (after x d).2 = x.2.after command := by
  obtain ⟨c, s⟩ := x
  cases d with
  | start =>
    show (c.start s).2 = s ∨ ∃ command, (c.start s).2 = s.after command
    unfold start
    split
    · -- an active clock does not look at the session
      exact Or.inl rfl
    · exact Or.inr ⟨.run, rfl⟩
  | pause => exact Or.inr ⟨.pause, rfl⟩
  | timeout =>
    show (c.timeout s).2.2 = s ∨ ∃ command, (c.timeout s).2.2 = s.after command
    by_cases hactive : c.active = true
    · exact Or.inr ⟨.tick, session_timeout hactive⟩
    · -- a clock at rest is not told anything
      left
      unfold timeout
      rw [if_neg hactive]
  | session command => exact Or.inr ⟨command, rfl⟩

/-- What a clock does to a session amounts to commands of the session. -/
theorem exists_commands (x : Clock × Session) (cs : List ClockCommand) :
    ∃ commands, (afterAll x cs).2 = x.2.afterAll commands := by
  -- what is asked of the clock comes to one command to its session, or to none
  induction cs generalizing x with
  | nil => exact ⟨[], rfl⟩
  | cons d cs ih =>
    obtain ⟨commands, hcommands⟩ := ih (after x d)
    rcases session_after x d with hsame | ⟨command, hafter⟩
    · exact ⟨commands, hcommands.trans (by rw [hsame])⟩
    · refine ⟨command :: commands, hcommands.trans ?_⟩
      rw [hafter]
      rfl

/-- A clock keeps a session coherent. -/
theorem coherent_afterAll {x : Clock × Session} (h : x.2.Coherent) (cs : List ClockCommand) :
    (afterAll x cs).2.Coherent := by
  obtain ⟨commands, hcommands⟩ := exists_commands x cs
  rw [hcommands]
  exact Session.afterAll_induction (fun _ command h => h.after command) h commands

/-! ### Clock and session together -/

theorem synced_timeout (c : Clock) (s : Session) : Synced (c.timeout s).2.1 (c.timeout s).2.2 := by
  unfold timeout
  split
  · dsimp only
    -- it goes on only where the session is found to be driven still
    split
    case isTrue hnext => exact fun _ => hnext
    case isFalse => exact fun e => nomatch e
  case isFalse hactive => exact fun e => absurd e hactive

theorem synced_pause (c : Clock) (s : Session) : Synced (c.pause s).1 (c.pause s).2 := fun e => nomatch e

/-- A start is answered truthfully exactly if the clock drives the session whenever it goes. -/
theorem startTruthful_iff_synced (h : s.Coherent) : c.StartTruthful s ↔ Synced c s := by
  constructor
  · intro htruthful hactive
    -- a clock that goes is left alone and answers yes
    have hyes := htruthful.yes
    rw [start_of_active hactive] at hyes
    exact (hyes hactive).1
  · intro hsynced
    refine ⟨fun hanswer => ?_, fun hstuck => ?_⟩
    · -- whichever way the clock came to go, it drives a session that can go on
      have hdriven : (c.start s).2.active = true ∧ (c.start s).2.running = true := by
        by_cases hactive : c.active = true
        · rw [start_of_active hactive]
          exact ⟨hsynced hactive, h.controlled.active (hsynced hactive)⟩
        · rw [start_of_inactive (Bool.eq_false_iff.2 hactive)] at hanswer ⊢
          have hrun : s.running = true := hanswer
          show s.run.active = true ∧ s.run.running = true
          unfold Session.run
          rw [if_pos hrun]
          exact ⟨rfl, hrun⟩
      -- so the time-out ticks the session, and the tick is a step
      have hcoherent : (c.start s).2.Coherent := coherent_afterAll (x := (c, s)) h [.start]
      have hadvances := hcoherent.canAdvance_iff.2 hdriven.2
      refine ⟨hdriven.1, hadvances, ?_⟩
      rw [session_timeout hanswer, Session.tick_eq_of_active (fun _ => hdriven.2), if_pos hdriven.1]
      exact hadvances
    · have hrun : s.running = false := Bool.eq_false_iff.2 fun e => hstuck (h.canAdvance_iff.2 e)
      -- a clock that goes would drive the session, and only one that can go on is driven
      have hrest : c.active = false := by
        refine Bool.eq_false_iff.2 fun hactive => ?_
        rw [h.controlled.active (hsynced hactive)] at hrun
        cases hrun
      rw [start_of_inactive hrest]
      exact hrun

/-- **When the answer to a start is true.** However commands to a clock at rest and to its session are interleaved, the
answer to a start is true exactly if the clock does not go, or still drives the session. Every time-out and every pause
of the clock leads back to that. -/
theorem startTruthful_iff (limits : Limits) (interval : Int) (cs : List ClockCommand) :
    let x := afterAll ({ interval }, .start limits) cs
    (x.1.StartTruthful x.2 ↔ (x.1.active = true → x.2.active = true)) ∧
      (x.1.timeout x.2).2.1.StartTruthful (x.1.timeout x.2).2.2 ∧
      (x.1.pause x.2).1.StartTruthful (x.1.pause x.2).2 := by
  intro x
  have hcoherent : x.2.Coherent := coherent_afterAll (Session.coherent_start limits) cs
  refine ⟨startTruthful_iff_synced hcoherent, ?_, ?_⟩
  · exact (startTruthful_iff_synced (coherent_afterAll hcoherent [.timeout])).2 (synced_timeout x.1 x.2)
  · exact (startTruthful_iff_synced (coherent_afterAll hcoherent [.pause])).2 (synced_pause x.1 x.2)

/-- The session was reset while the clock went. It has no trace to show, and still a start is answered yes. -/
theorem start_answers_after_reset :
    let x := afterAll ({}, .start { memorySize := 64 })
      [.session (.load "0x000: 10\n0x001: 00"), .start, .session .reset]
    ¬x.2.CanAdvance ∧ (x.1.start x.2).1.active = true ∧ ¬x.1.StartTruthful x.2 := by
  intro x
  have hanswer : (x.1.start x.2).1.active = true := by decide +kernel
  have hstuck : ¬x.2.CanAdvance := fun hadvances => absurd hadvances.cursor (by decide +kernel)
  refine ⟨hstuck, hanswer, fun htruthful => ?_⟩
  rw [htruthful.no hstuck] at hanswer
  cases hanswer

end Clock

end Y86
