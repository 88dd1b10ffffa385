import Y86.Proofs.Session.Coherence
import Y86.Proofs.Session.Naming

/-!
# Sessions that differ in names

Two sessions match if they are the same but for the identifiers of snapshots and breakpoints (`Session.Matches`): they
show the same entry of the same trace on the same machine, they can both go on or not, and their stops, breakpoints,
snapshots and logs match. What is to come has to match as well, so the identifiers that either will hand out next stand
for each other.

Commands that match lead from matching sessions to matching sessions (`Session.Matches.after`) and are answered alike
(`Session.Matches.reply`). By induction a sequence of such commands cannot tell the two apart
(`Session.Matches.afterAll`, `Session.Matches.replies`).
-/

namespace Y86

open Text

structure Stop.Matches (N : Naming) (a b : Stop) : Prop where
  hit : a.hit.Matches N b.hit
  status : a.status = b.status

structure LogEntry.Matches (N : Naming) (a b : LogEntry) : Prop where
  cycle : a.cycle = b.cycle
  level : a.level = b.level
  message : N.Says a.message b.message

/-- Sessions that are the same but for identifiers, now and in what they will hand out. -/
structure Session.Matches (N : Naming) (s t : Session) : Prop where
  limits : s.limits = t.limits
  machine : s.machine = t.machine
  playback : s.playback = t.playback
  running : s.running = t.running
  active : s.active = t.active
  stop : Option.Rel (Stop.Matches N) s.stop t.stop
  breakpoints : s.breakpoints.Matches N t.breakpoints
  added : ∀ address n, N.breakpoint ⟨address, s.added + n⟩ ⟨address, t.added + n⟩
  history : s.history.Matches N t.history
  logs : List.Forall₂ (LogEntry.Matches N) s.logs.toList t.logs.toList

/-- Commands without references to snapshots and breakpoints. -/
def Command.Plain : Command → Prop
  | .restore _ | .compare _ _ | .removeReferred _ => False
  | _ => True

/-- Commands that are the same but for identifiers. -/
inductive Command.Matches (N : Naming) : Command → Command → Prop
  | plain {c : Command} (h : c.Plain) : Matches N c c
  | restore {r r' : Reference SnapshotId} (h : r.Matches N.snapshot r') : Matches N (.restore r) (.restore r')
  | compare {r r' q q' : Reference SnapshotId} (h : r.Matches N.snapshot r') (h' : q.Matches N.snapshot q') :
      Matches N (.compare r q) (.compare r' q')
  | removeReferred {r r' : Reference BreakpointId} (h : r.Matches N.breakpoint r') :
      Matches N (.removeReferred r) (.removeReferred r')

/-- Only an answer that shows a breakpoint has an identifier in it. -/
inductive Reply.Matches (N : Naming) : Reply → Reply → Prop
  | same (r : Reply) : Matches N r r
  | breakpoint {b c : Breakpoint} (h : b.Matches N c) : Matches N (.breakpoint b) (.breakpoint c)

variable {N : Naming}

/-- A text that mentions no identifier is said alike. -/
theorem Naming.Says.of_eq {a b : String} (h : a = b) : N.Says a b := h ▸ .text a

namespace Session

/-- The session after it has said what is to be said of the breakpoint that it looks at. -/
def warned (s : Session) : Session :=
  match s.breakpoints.checkWarning? s.machine.pc with
  | some message => s.log .warning message
  | none => s

/-- What is said of the table comes first; then the session is stopped, or left as it is. -/
theorem checkBreakpoints_eq (s : Session) :
    s.checkBreakpoints =
      match s.breakpoints.stopping? s.machine.pc s.machine.registers with
      | some b => (s.warned.stoppedAt b).log .warning ("Breakpoint hit at " ++ Hex.address s.machine.pc)
      | none => s.warned := by
  unfold checkBreakpoints BreakpointTable.check warned
  dsimp only
  -- what is said in front of the check changes neither the machine nor the table
  cases s.breakpoints.checkWarning? s.machine.pc <;> dsimp only [Session.log] <;>
    cases s.breakpoints.stopping? s.machine.pc s.machine.registers <;> rfl

variable {s t : Session}

/-- Sessions that are told apart by equal flags match if they match on either side. -/
theorem matches_ite {s' t' : Session} {a b : Bool} (hab : a = b) (h : s.Matches N t) (h' : s'.Matches N t') :
    (if a then s else s').Matches N (if b then t else t') := by
  subst hab
  split
  · exact h
  · exact h'

namespace Matches

variable (h : s.Matches N t)

include h

/-! ### Parts of the operations -/

/-- A log entry bears the cycle, which matching sessions share. -/
theorem log (level : LogLevel) {a b : String} (hab : N.Says a b) : (s.log level a).Matches N (t.log level b) :=
  { h with
    logs := by
      unfold Session.log
      rw [Array.toList_push, Array.toList_push]
      exact List.rel_append h.logs (.cons ⟨congrArg Machine.cycle h.machine, rfl, hab⟩ .nil) }

/-- Each session numbers its own snapshots, and the new ones match. -/
theorem capture (e : TraceEntry) : (s.capture e).Matches N (t.capture e) :=
  { h with
    history := by
      unfold Session.capture
      rw [h.machine]
      exact h.history.capture _ _ }

/-- Matching sessions have the same entries left. -/
theorem remaining_eq : s.remaining = t.remaining := by
  unfold remaining
  rw [h.playback]

theorem refresh : s.refresh.Matches N t.refresh :=
  { h with
    running := by
      unfold Session.refresh
      rw [h.machine, h.remaining_eq] }

theorem moved (e : TraceEntry) : (s.moved e).Matches N (t.moved e) := by
  unfold Session.moved
  rw [h.playback]
  split
  · exact h
  · exact { h with playback := rfl, machine := congrArg (fun m => e.replay m.memory _) h.machine }

/-- A warning mentions a condition and no identifier. -/
theorem warned : s.warned.Matches N t.warned := by
  unfold Session.warned
  rw [h.machine, h.breakpoints.checkWarning?_eq]
  split
  · exact h.log _ (.text _)
  · exact h

/-- Matching breakpoints stop matching sessions alike. -/
theorem stoppedAt {b c : Breakpoint} (hbc : b.Matches N c) : (s.stoppedAt b).Matches N (t.stoppedAt c) :=
  { h with
    machine := congrArg (fun m : Machine => { m with status := .hlt }) h.machine
    running := rfl
    stop := .some ⟨⟨hbc.counted, congrArg Machine.cycle h.machine, congrArg Machine.pc h.machine⟩,
      congrArg Machine.status h.machine⟩
    breakpoints := h.breakpoints.insert hbc.counted }

/-- A table stops its session where a matching one does. -/
theorem checkBreakpoints : s.checkBreakpoints.Matches N t.checkBreakpoints := by
  rw [checkBreakpoints_eq, checkBreakpoints_eq, h.machine]
  rcases cases_of_rel (h.breakpoints.stopping? t.machine.pc t.machine.registers) with
    ⟨hs, ht⟩ | ⟨b, c, hs, ht, hbc⟩
  · rw [hs, ht]
    exact h.warned
  · rw [hs, ht]
    exact (h.warned.stoppedAt hbc).log _ (.text _)

theorem settle : s.settle.Matches N t.settle := matches_ite h.running h { h with active := rfl }

/-- Showing the same entry, matching sessions match again. -/
theorem advance (e : TraceEntry) : (s.advance e).Matches N (t.advance e) := by
  have hshown := (h.moved e).capture e
  unfold Session.advance
  dsimp only
  rw [hshown.machine]
  exact (hshown.log _ (.text _)).refresh.checkBreakpoints.settle

/-- Matching sessions have the same next entry. -/
theorem next?_eq : s.next? = t.next? := by
  unfold Session.next?
  rw [h.running, h.playback]

/-! ### Moving on and looking back -/

theorem step : s.step.Matches N t.step := by
  unfold Session.step
  rw [h.next?_eq]
  split
  · exact h.advance _
  · exact { h with running := rfl }

/-- Leaving a stop gives back the status, which matching sessions share. -/
theorem resume : s.resume.Matches N t.resume := by
  unfold Session.resume
  rcases cases_of_rel h.stop with ⟨hs, ht⟩ | ⟨a, b, hs, ht, hab⟩
  · rw [hs, ht]
    exact h
  · rw [hs, ht]
    dsimp only
    rw [h.machine, hab.status]
    -- the stop is left with the status that it hid
    have hleft : Session.Matches N { s with machine := { t.machine with status := b.status }, stop := none }
        { t with machine := { t.machine with status := b.status }, stop := none } :=
      { h with machine := rfl, stop := .none }
    exact hleft.refresh.log _ (.text _)

theorem run : s.run.Matches N t.run := by
  have hactive : Session.Matches N { s with active := true } { t with active := true } := { h with active := rfl }
  exact matches_ite h.running (hactive.log _ (.text _)) h

/-- A tick is taken by both, or ends both runs. -/
theorem tick : s.tick.Matches N t.tick :=
  matches_ite h.active (matches_ite h.running h.step { h with active := rfl }) h

theorem pause : s.pause.Matches N t.pause := by
  have hinactive : Session.Matches N { s with active := false } { t with active := false } := { h with active := rfl }
  exact matches_ite h.active (hinactive.log _ (.of_eq (by rw [h.machine]))) h

/-- Matching references find matching snapshots, or none on either side. -/
theorem restore (hN : N.Unique) {r r' : Reference SnapshotId} (hr : r.Matches N.snapshot r') :
    (s.restore r).Matches N (t.restore r') := by
  unfold Session.restore
  rcases cases_of_rel (h.history.find? hN hr) with ⟨hs, ht⟩ | ⟨x, y, hs, ht, hxy⟩
  · rw [hs, ht]
    exact h.log _ (.append (.text _) (.snapshot hr))
  · rw [hs, ht]
    dsimp only
    rw [hxy.machine]
    -- what a restore sets is set to the same on both sides
    have hback : Session.Matches N
        { s with machine := y.machine, playback := s.playback.map (·.seek y.machine.cycle.toNat), stop := none,
                 active := false }
        { t with machine := y.machine, playback := t.playback.map (·.seek y.machine.cycle.toNat), stop := none,
                 active := false } :=
      { h with machine := rfl, playback := congrArg (Option.map _) h.playback, stop := .none, active := rfl }
    exact hback.refresh.log _ (.text _)

/-- A comparison that fails names the references, which are said alike. -/
theorem compare (hN : N.Unique) {r r' q q' : Reference SnapshotId} (hr : r.Matches N.snapshot r')
    (hq : q.Matches N.snapshot q') : (s.compare r q).Matches N (t.compare r' q') := by
  unfold Session.compare
  rw [h.history.compare? hN hr hq]
  split
  · exact h
  · exact h.log _ (.append (.append (.append (.text _) (.snapshot hr)) (.text _)) (.snapshot hq))

/-! ### Breakpoints -/

/-- New breakpoints match, although their identifiers differ. -/
theorem newBreakpoint (address : Int) (condition : Option String) :
    (s.newBreakpoint address condition).Matches N (t.newBreakpoint address condition) :=
  ⟨h.added address 0, rfl, rfl, rfl, rfl⟩

/-- An identifier can be written on both sides or on neither, as it is the address that may be too long. -/
theorem addBreakpoint (address : Int) (condition : Option String) :
    (s.addBreakpoint address condition).Matches N (t.addBreakpoint address condition) := by
  have hnew := h.newBreakpoint address condition
  have hwarned : Session.Matches N
      (match (s.newBreakpoint address condition).addWarning? with
        | some message => s.log .warning message
        | none => s)
      (match (t.newBreakpoint address condition).addWarning? with
        | some message => t.log .warning message
        | none => t) := by
    rw [hnew.addWarning?_eq]
    split
    · exact h.log _ (.text _)
    · exact h
  -- one identifier is used up, and those behind it still stand for each other
  have hadded : ∀ a n, N.breakpoint ⟨a, s.added + 1 + n⟩ ⟨a, t.added + 1 + n⟩ := by
    intro a n
    rw [Nat.add_assoc, Nat.add_assoc, Nat.add_comm 1 n]
    exact h.added a (n + 1)
  -- both identifiers are for one address, so that both can be written or none
  refine matches_ite hnew.isWritable_eq (Matches.log ?_ _ (.text _)) hwarned
  exact { hwarned with breakpoints := h.breakpoints.insert hnew, added := hadded }

/-- A breakpoint is removed by its address, which matching ones share. -/
theorem removeBreakpoint (address : Int) : (s.removeBreakpoint address).Matches N (t.removeBreakpoint address) := by
  have hremoved : Session.Matches N { s with breakpoints := s.breakpoints.erase address }
      { t with breakpoints := t.breakpoints.erase address } :=
    { h with breakpoints := h.breakpoints.erase address }
  exact matches_ite (h.breakpoints.has_eq address) (hremoved.log _ (.text _)) (h.log _ (.text _))

/-- Matching references remove matching breakpoints, and are said alike. -/
theorem removeReferred (hN : N.Unique) {r r' : Reference BreakpointId} (hr : r.Matches N.breakpoint r') :
    (s.removeReferred r).Matches N (t.removeReferred r') := by
  have hremoved : Session.Matches N { s with breakpoints := s.breakpoints.eraseReferred r }
      { t with breakpoints := t.breakpoints.eraseReferred r' } :=
    { h with breakpoints := h.breakpoints.eraseReferred hN hr }
  exact matches_ite (isSome_of_rel (h.breakpoints.find? hN hr))
    (hremoved.log _ (.append (.text _) (.breakpoint hr))) (h.log _ (.append (.text _) (.breakpoint hr)))

/-- A breakpoint is enabled if a matching one is. -/
theorem isEnabled_eq (address : Int) : s.isEnabled address = t.isEnabled address := by
  unfold isEnabled
  rcases cases_of_rel (h.breakpoints.get? address) with ⟨hs, ht⟩ | ⟨b, c, hs, ht, hbc⟩
  · rw [hs, ht]
  · rw [hs, ht]
    exact hbc.enabled

theorem toggleBreakpoint (address : Int) : (s.toggleBreakpoint address).Matches N (t.toggleBreakpoint address) := by
  have htoggled : Session.Matches N { s with breakpoints := s.breakpoints.toggle address }
      { t with breakpoints := t.breakpoints.toggle address } :=
    { h with breakpoints := h.breakpoints.toggle address }
  exact matches_ite (h.breakpoints.has_eq address) (htoggled.log _ (.of_eq (by rw [htoggled.isEnabled_eq])))
    (h.log _ (.text _))

theorem clearBreakpoints : s.clearBreakpoints.Matches N t.clearBreakpoints := by
  have hcleared : Session.Matches N { s with breakpoints := {} } { t with breakpoints := {} } :=
    { h with breakpoints := .nil }
  exact hcleared.log _ (.text _)

/-- An export shows no identifier. -/
theorem exported_eq (format : String) : s.exported format = t.exported format := by
  unfold exported
  split
  · exact congrArg Except.ok (h.history.written_eq _ _)
  · rfl

end Matches

/-! ### Loading -/

/-- The same trace is opened on matching sessions. -/
theorem Matches.openTrace (h : s.Matches N t) (u : Trace) : (s.openTrace u).Matches N (t.openTrace u) := by
  have hwarned := matches_ite (rfl : u.looksReversed = u.looksReversed)
    (h.log .warning (.text "Trace order looks reversed; keeping execution order")) h
  unfold Session.openTrace
  dsimp only
  generalize (if u.looksReversed = true then s.log .warning _ else s) = s' at hwarned ⊢
  generalize (if u.looksReversed = true then t.log .warning _ else t) = t' at hwarned ⊢
  split
  · exact hwarned
  · rename_i first _
    -- the first entry is laid over the memory of either, which is the same
    have hshown : Session.Matches N
        { s' with playback := some { trace := u }, machine := first.replay s'.machine.memory 0 }
        { t' with playback := some { trace := u }, machine := first.replay t'.machine.memory 0 } :=
      { hwarned with playback := rfl, machine := congrArg (fun m => first.replay m.memory 0) hwarned.machine }
    exact (hshown.refresh.log _ (.text _)).capture first

/-- Sessions that match in what a reset keeps: the limits, the breakpoints, and what will be handed out. -/
structure Kept (N : Naming) (s t : Session) : Prop where
  limits : s.limits = t.limits
  breakpoints : s.breakpoints.Matches N t.breakpoints
  added : ∀ address n, N.breakpoint ⟨address, s.added + n⟩ ⟨address, t.added + n⟩
  taken : ∀ n, N.snapshot ⟨s.history.taken + n⟩ ⟨t.history.taken + n⟩

/-- What a reset keeps of matching sessions matches. -/
theorem Matches.kept (h : s.Matches N t) : s.Kept N t := ⟨h.limits, h.breakpoints, h.added, h.history.next⟩

/-- Whatever else tells two sessions apart is gone after a reset. -/
theorem Kept.reset (h : s.Kept N t) : s.reset.Matches N t.reset := by
  -- a reset keeps the breakpoints and the numbers, and nothing else of either session
  have hfresh : Session.Matches N
      { start s.limits with breakpoints := s.breakpoints, added := s.added, history := s.history.clear }
      { start t.limits with breakpoints := t.breakpoints, added := t.added, history := t.history.clear } :=
    { limits := h.limits
      machine := congrArg Limits.machine h.limits
      playback := rfl
      running := rfl
      active := rfl
      stop := .none
      breakpoints := h.breakpoints
      added := h.added
      history := ⟨.nil, h.taken⟩
      logs := .nil }
  exact hfresh.log _ (.text _)

/-- A load looks at nothing but what a reset keeps. -/
theorem Kept.load (h : s.Kept N t) (text : String) : (s.load text).Matches N (t.load text) := by
  have hreset := h.reset
  unfold Session.load
  dsimp only
  rw [hreset.limits]
  split
  · exact hreset.log _ (.text _)
  · exact hreset.openTrace _

/-! ### Commands -/

/-- Matching commands keep sessions matching. -/
theorem Matches.after (h : s.Matches N t) (hN : N.Unique) {c c' : Command} (hc : c.Matches N c') :
    (s.after c).Matches N (t.after c') := by
  cases hc with
  | restore hr => exact h.restore hN hr
  | compare hr hq => exact h.compare hN hr hq
  | removeReferred hr => exact h.removeReferred hN hr
  | plain hplain =>
    -- the same command on both sides
    cases c with
    | load text => exact h.kept.load text
    | reset => exact h.kept.reset
    | step => exact h.step
    | resume => exact h.resume
    | run => exact h.run
    | tick => exact h.tick
    | pause => exact h.pause
    | exportHistory format => exact h
    | addBreakpoint address condition => exact h.addBreakpoint address condition
    | removeBreakpoint address => exact h.removeBreakpoint address
    | toggleBreakpoint address => exact h.toggleBreakpoint address
    | clearBreakpoints => exact h.clearBreakpoints
    | disassemble start length => exact h
    | restore _ => exact hplain.elim
    | compare _ _ => exact hplain.elim
    | removeReferred _ => exact hplain.elim

/-- Matching commands are answered alike. -/
theorem Matches.reply (h : s.Matches N t) (hN : N.Unique) {c c' : Command} (hc : c.Matches N c') :
    Reply.Matches N (s.reply (s.after c) c) (t.reply (t.after c') c') := by
  have hnext := h.after hN hc
  have of_eq : ∀ {r r' : Reply}, r = r' → r.Matches N r' := fun e => e ▸ .same _
  -- only an identifier of a new breakpoint may differ; every other reply is the same
  cases hc with
  | restore hr => exact of_eq (congrArg Reply.flag (isSome_of_rel (h.history.find? hN hr)))
  | compare hr hq => exact of_eq (congrArg Reply.comparison (h.history.compare? hN hr hq))
  | removeReferred hr => exact of_eq (congrArg Reply.flag (isSome_of_rel (h.breakpoints.find? hN hr)))
  | plain hplain =>
    cases c with
    | load text => exact of_eq (congrArg (fun p : Option Playback => Reply.flag p.isSome) hnext.playback)
    | reset => exact .same _
    | step => exact of_eq (congrArg Reply.flag hnext.running)
    | resume =>
      refine of_eq ?_
      change Reply.flag (s.stop.isSome && _) = Reply.flag (t.stop.isSome && _)
      rw [isSome_of_rel h.stop, hnext.running]
    | run => exact of_eq (congrArg Reply.flag h.running)
    | tick => exact of_eq (congrArg Reply.flag hnext.active)
    | pause => exact .same _
    | exportHistory format => exact of_eq (congrArg Reply.document (h.exported_eq format))
    | addBreakpoint address condition =>
      unfold Session.reply
      dsimp only
      -- whether the identifier can be written depends on the address alone
      have hnew := h.newBreakpoint address condition
      rw [hnew.isWritable_eq]
      split
      · exact .breakpoint hnew
      · exact .same _
    | removeBreakpoint address => exact of_eq (congrArg Reply.flag (h.breakpoints.has_eq address))
    | toggleBreakpoint address => exact of_eq (congrArg Reply.flag (hnext.isEnabled_eq address))
    | clearBreakpoints => exact .same _
    | disassemble start length =>
      exact of_eq (congrArg (fun m : Machine => Reply.rows (m.memory.listing start length)) h.machine)
    | restore _ => exact hplain.elim
    | compare _ _ => exact hplain.elim
    | removeReferred _ => exact hplain.elim

/-! ### Sequences of commands -/

section Sequences

variable {cs cs' : List Command}

/-- **Matching commands** lead matching sessions to matching ones. -/
theorem Matches.afterAll (h : s.Matches N t) (hN : N.Unique) (hcs : List.Forall₂ (Command.Matches N) cs cs') :
    (s.afterAll cs).Matches N (t.afterAll cs') := by
  unfold Session.afterAll
  induction hcs generalizing s t with
  | nil => exact h
  | cons hc _ ih => exact ih (h.after hN hc)

/-- And they are answered alike. -/
theorem Matches.replies (h : s.Matches N t) (hN : N.Unique) (hcs : List.Forall₂ (Command.Matches N) cs cs') :
    List.Forall₂ (Reply.Matches N) (s.replies cs) (t.replies cs') := by
  induction hcs generalizing s t with
  | nil => exact .nil
  | cons hc _ ih => exact .cons (h.reply hN hc) (ih (h.after hN hc))

end Sequences

end Session

end Y86
