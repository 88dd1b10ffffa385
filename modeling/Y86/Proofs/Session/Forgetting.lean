import Y86.Proofs.Machine.Fault
import Y86.Proofs.Session.Matching
import Y86.Proofs.Session.Replay
import Y86.Proofs.Session.Table

/-!
# Loading forgets

Of all that a session has done before, loading a program leaves nothing behind but the breakpoints. Two sessions with
the same limits and the same breakpoints cannot be told apart once they have loaded the same text
(`Session.load_forgets`): neither by what they show then, nor by any commands that follow, though one of them may have
been in the middle of a run, stopped at a breakpoint, or have failed to load a program.

They do call things by different names, since identifiers are not used again. What they hand out from now on stands for
each other by the order in which it comes, and the breakpoints that they have by their addresses
(`Session.namesSince`). This naming is unique after any commands (`Session.unique_namesSince`): an address has at most
one breakpoint, and none of those that a session has bears an identifier that is still to come.
-/

namespace Y86

/-- A breakpoint without what sets it apart from others that its address has had. -/
def Breakpoint.unstamped (b : Breakpoint) : Breakpoint := { b with stamp := 0 }

namespace Session

/-- How two sessions call what they will hand out, and the breakpoints that they have. Snapshots stand for each other by
their number from now on, and breakpoints by their address and, if they are still to come, by their number. -/
def namesSince (s t : Session) : Naming where
  snapshot x y := ∃ n, x.number = s.history.taken + n ∧ y.number = t.history.taken + n
  breakpoint x y := x.address = y.address ∧
    ((∃ b ∈ s.breakpoints.all, ∃ c ∈ t.breakpoints.all, b.id = x ∧ c.id = y) ∨
      ∃ n, x.stamp = s.added + n ∧ y.stamp = t.added + n)

variable {s t : Session}

/-! ### The naming -/

theorem unique_snapshot (s t : Session) : Relator.BiUnique (namesSince s t).snapshot := by
  constructor
  · rintro ⟨x⟩ ⟨x'⟩ ⟨y⟩ ⟨n, hx, hy⟩ ⟨n', hx', hy'⟩
    dsimp only at hx hy hx' hy'
    congr 1
    omega
  · rintro ⟨x⟩ ⟨y⟩ ⟨y'⟩ ⟨n, hx, hy⟩ ⟨n', hx', hy'⟩
    dsimp only at hx hy hx' hy'
    congr 1
    omega

/-- One session cannot call a breakpoint of the other by two names. -/
theorem leftUnique_breakpoint (hs : s.breakpoints.Keyed) (ht : Stamped t.breakpoints t.added) :
    Relator.LeftUnique (namesSince s t).breakpoint := by
  rintro x x' y ⟨haddress, hxy⟩ ⟨haddress', hxy'⟩
  have hsame : x.address = x'.address := haddress.trans haddress'.symm
  rcases hxy with ⟨b, hb, c, hc, rfl, rfl⟩ | ⟨n, hx, hy⟩
  · rcases hxy' with ⟨b', hb', c', hc', rfl, -⟩ | ⟨n', hx', hy'⟩
    · -- the session has one breakpoint at the address
      rw [hs.eq_of_address hb hb' (show b.address = b'.address from hsame)]
    · -- what is still to come has none of the names of what is there
      have hlt : c.id.stamp < t.added := ht c hc
      omega
  · rcases hxy' with ⟨b', hb', c', hc', rfl, rfl⟩ | ⟨n', hx', hy'⟩
    · -- the same, with the two names in the other order
      have hlt : c'.id.stamp < t.added := ht c' hc'
      omega
    · -- both are still to come and have the same number
      obtain ⟨a, k⟩ := x
      obtain ⟨a', k'⟩ := x'
      obtain rfl : a = a' := hsame
      dsimp only at hx hx'
      congr 1
      omega

/-- The naming the other way round. -/
theorem breakpoint_swap {x y : BreakpointId} (h : (namesSince s t).breakpoint x y) :
    (namesSince t s).breakpoint y x := by
  obtain ⟨haddress, hxy⟩ := h
  refine ⟨haddress.symm, hxy.imp ?_ ?_⟩
  · rintro ⟨b, hb, c, hc, hx, hy⟩
    exact ⟨c, hc, b, hb, hy, hx⟩
  · rintro ⟨n, hx, hy⟩
    exact ⟨n, hy, hx⟩

/-- The names that two sessions give to what they share are told apart on both sides. -/
theorem unique_namesSince (limits : Limits) (cs cs' : List Command) :
    (namesSince ((start limits).afterAll cs) ((start limits).afterAll cs')).Unique where
  snapshot := unique_snapshot _ _
  breakpoint :=
    ⟨leftUnique_breakpoint (keyed_afterAll limits cs) (stamped_afterAll limits cs'), fun _ _ _ h h' =>
      leftUnique_breakpoint (keyed_afterAll limits cs') (stamped_afterAll limits cs)
        (breakpoint_swap h) (breakpoint_swap h')⟩

/-- Breakpoints that are the same but for their stamps match. -/
theorem matches_of_unstamped
    (h : s.breakpoints.all.map Breakpoint.unstamped = t.breakpoints.all.map Breakpoint.unstamped) :
    s.breakpoints.Matches (namesSince s t) t.breakpoints := by
  -- the naming speaks of the whole tables, so the induction is over parts of them
  have hall : ∀ {bs cs : List Breakpoint}, bs ⊆ s.breakpoints.all → cs ⊆ t.breakpoints.all →
      bs.map Breakpoint.unstamped = cs.map Breakpoint.unstamped →
        List.Forall₂ (Breakpoint.Matches (namesSince s t)) bs cs := by
    intro bs cs hbs hcs heq
    induction bs generalizing cs with
    | nil =>
      rw [List.map_nil] at heq
      rw [List.map_eq_nil_iff.1 heq.symm]
      exact .nil
    | cons b bs ih =>
      cases cs with
      | nil => cases heq
      | cons c cs =>
        rw [List.map_cons, List.map_cons] at heq
        obtain ⟨hbc, hrest⟩ := List.cons.inj heq
        obtain ⟨hb, hbs⟩ := List.cons_subset.1 hbs
        obtain ⟨hc, hcs⟩ := List.cons_subset.1 hcs
        refine .cons ?_ (ih hbs hcs hrest)
        -- breakpoints that are equal without their stamps agree in all the rest
        obtain ⟨address, stamp, trigger, enabled, hits⟩ := b
        obtain ⟨address', stamp', trigger', enabled', hits'⟩ := c
        cases hbc
        exact ⟨⟨rfl, Or.inl ⟨_, hb, _, hc, rfl, rfl⟩⟩, rfl, rfl, rfl, rfl⟩
  exact hall (List.Subset.refl _) (List.Subset.refl _) h

/-- Two sessions with the same breakpoints keep the same through a reset, up to the names. -/
theorem kept_namesSince (hlimits : s.limits = t.limits)
    (h : s.breakpoints.all.map Breakpoint.unstamped = t.breakpoints.all.map Breakpoint.unstamped) :
    s.Kept (namesSince s t) t where
  limits := hlimits
  breakpoints := matches_of_unstamped h
  added := fun _ n => ⟨rfl, Or.inr ⟨n, rfl, rfl⟩⟩
  taken := fun n => ⟨n, rfl, rfl⟩

/-! ### Loading -/

/-- A text is answered by whether it loads. -/
theorem reply_load (s : Session) (text : String) :
    (s.perform (.load text)).1 = .flag (Program.load s.limits.memory text).toBool := by
  have htrace : (s.load text).trace? = traceOf s.limits text := congrArg Prod.snd (s.source_load text)
  have hsome : (s.load text).playback.isSome = (s.load text).trace?.isSome := Option.isSome_map.symm
  change Reply.flag (s.load text).playback.isSome = _
  rw [hsome, htrace]
  unfold traceOf
  rw [Option.isSome_map]
  cases Program.load s.limits.memory text <;> rfl

/-- A text that does not load leaves a session reset, and one entry in its log. -/
theorem load_of_error {e : LoadError} {text : String} (h : Program.load s.limits.memory text = .error e) :
    s.load text = s.reset.log .error ("Program load failed: " ++ e.message) := by
  unfold Session.load
  dsimp only
  rw [show s.reset.limits = s.limits from rfl, h]

/-- What is said of a load does not depend on what was before. -/
theorem logs_load (s : Session) (text : String) : (s.load text).logs = ((start s.limits).load text).logs := by
  unfold Session.load Session.openTrace
  dsimp only
  rw [show s.reset.limits = s.limits from rfl, show (start s.limits).reset.limits = s.limits from rfl]
  split
  · rfl
  · split <;> split <;> rfl

/-- **Loading forgets.** Take two sessions with the same limits after any commands, and let their breakpoints be the
same but for identifiers. A text is then answered alike by both, by whether it loads, and leaves them the same but for
identifiers. Commands that are given to both and call things by their own names each, snapshots by their order since the
load, are answered alike, and leave the sessions the same but for identifiers again. Building the trace fails with
nothing that it does not record: a step that fails does so with a status.

A text that does not load leaves the session as a reset does, with one more entry in its log: no trace, no snapshots,
and all its breakpoints. -/
theorem load_forgets (limits : Limits) (before before' : List Command) (text : String)
    (hbreakpoints : ((start limits).afterAll before).breakpoints.all.map Breakpoint.unstamped
      = ((start limits).afterAll before').breakpoints.all.map Breakpoint.unstamped) :
    let s := (start limits).afterAll before
    let t := (start limits).afterAll before'
    let N := namesSince s t
    let loads := (Program.load limits.memory text).toBool
    N.Unique ∧
      (s.perform (.load text)).1 = .flag loads ∧ (t.perform (.load text)).1 = .flag loads ∧
      (s.load text).Matches N (t.load text) ∧ (s.load text).logs = (t.load text).logs ∧
      (∀ cs cs', List.Forall₂ (Command.Matches N) cs cs' →
        List.Forall₂ (Reply.Matches N) ((s.load text).replies cs) ((t.load text).replies cs') ∧
          ((s.load text).afterAll cs).Matches N ((t.load text).afterAll cs')) ∧
      (∀ program k failure, Program.load limits.memory text = .ok program →
        (Recording.advance^[k] (.start program)).machine.step = .error failure →
          failure.fault.status?.isSome = true) ∧
      (∀ e, Program.load limits.memory text = .error e →
        s.load text = s.reset.log .error ("Program load failed: " ++ e.message) ∧
          (s.load text).playback = none ∧ (s.load text).history.snapshots = #[] ∧
          (s.load text).breakpoints = s.breakpoints) := by
  intro s t N loads
  have hs : s.limits = limits := limits_afterAll limits before
  have ht : t.limits = limits := limits_afterAll limits before'
  have hN : N.Unique := unique_namesSince limits before before'
  have hkept : s.Kept N t := kept_namesSince (hs.trans ht.symm) hbreakpoints
  have hloaded : (s.load text).Matches N (t.load text) := hkept.load text
  -- the sessions match after the load, and matching sessions stay so whatever is done to both
  refine ⟨hN, ?_, ?_, hloaded, ?_, fun cs cs' hcs => ⟨hloaded.replies hN hcs, hloaded.afterAll hN hcs⟩, ?_, ?_⟩
  · rw [reply_load, hs]
  · rw [reply_load, ht]
  · rw [s.logs_load, t.logs_load, hs, ht]
  · -- address and instruction faults are all that a step can fail with
    intro program k failure _ hstep
    rcases (Machine.fails_of_step hstep).status with hstatus | hstatus <;> rw [hstatus] <;> rfl
  · intro e he
    have hload : s.load text = s.reset.log .error ("Program load failed: " ++ e.message) :=
      load_of_error (by rwa [hs])
    rw [hload]
    exact ⟨rfl, rfl, rfl, rfl⟩

/-- A session that is stopped at its second breakpoint, and one that has gone on from its only breakpoint and then failed
to load: both have come to it once. After a load, a jump to the first snapshot and the removal of the breakpoint do the
same to both. -/
theorem load_forgets_stop_and_failure :
    let limits : Limits := { memorySize := 32, maxSteps := 10 }
    let text := "0x000: 30 f4 20 00 00 00 00 00 00 00\n0x00a: 00"
    let s := (start limits).afterAll
      [.addBreakpoint 10 none, .removeBreakpoint 10, .addBreakpoint 10 none, .load text, .step]
    let t := (start limits).afterAll
      [.addBreakpoint 10 none, .load text, .step, .resume, .step, .load "0xfff: 00"]
    s.phase = .paused ∧ t.phase = .unloaded ∧ (s.load text).Matches (namesSince s t) (t.load text) ∧
      List.Forall₂ (Reply.Matches (namesSince s t))
        ((s.load text).replies [.step, .restore (.id ⟨2⟩), .removeReferred (.id ⟨10, 1⟩)])
        ((t.load text).replies [.step, .restore (.id ⟨3⟩), .removeReferred (.id ⟨10, 0⟩)]) := by
  intro limits text s t
  -- the breakpoint was added twice in one session and once in the other
  have hbreakpoints : s.breakpoints.all.map Breakpoint.unstamped = t.breakpoints.all.map Breakpoint.unstamped := by
    decide +kernel
  have hsnapshot : (namesSince s t).snapshot ⟨2⟩ ⟨3⟩ :=
    ⟨0, by decide +kernel, by decide +kernel⟩
  have hbreakpoint : (namesSince s t).breakpoint ⟨10, 1⟩ ⟨10, 0⟩ := ⟨rfl, Or.inl (by decide +kernel)⟩
  obtain ⟨-, -, -, hloaded, -, hcommands, -⟩ := load_forgets limits _ _ text hbreakpoints
  have hcs : List.Forall₂ (Command.Matches (namesSince s t))
      [.step, .restore (.id ⟨2⟩), .removeReferred (.id ⟨10, 1⟩)]
      [.step, .restore (.id ⟨3⟩), .removeReferred (.id ⟨10, 0⟩)] :=
    .cons (.plain trivial) (.cons (.restore (.id hsnapshot)) (.cons (.removeReferred (.id hbreakpoint)) .nil))
  exact ⟨by decide +kernel, by decide +kernel, hloaded, (hcommands _ _ hcs).1⟩

end Session

end Y86
