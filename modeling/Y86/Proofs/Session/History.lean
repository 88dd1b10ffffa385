import Y86.Proofs.Session.Control
import Y86.Proofs.Session.Replay
import Y86.Proofs.Session.Table
import Y86.Proofs.Snapshot.Comparison
import Y86.Proofs.Trace.Shape

/-!
# The history of a session is faithful and append-only

A session takes a snapshot of each entry that it shows, before it looks whether a breakpoint stops it there. So a
snapshot shows what the trace shows at its cycle (`Snapshot.OfEntry`), with the true status of the entry, also where the
session went on to report a halt; and since jumps come back to the same entries, snapshots of one cycle differ in
nothing but their identifiers.

What a command can do to a history is said once (`Session.historyStep_after`): it takes one snapshot of an entry, or
forgets all snapshots, which only loading and resetting do. Two invariants follow by cases on it, that snapshots bear
the title of their entry (`Session.titled_afterAll`) and that identifiers are not used twice
(`Session.numbered_afterAll`); the machines of snapshots are part of the invariant of sessions.
`Session.history_faithful` puts them together.
-/

namespace Y86

open Text

/-- What a snapshot of an entry is labelled with: its instruction, or else its program counter. -/
def TraceEntry.title (e : TraceEntry) : String := e.label.getD ("PC=0x" ++ Hex.field 4 e.pc)

/-- The snapshot shows the entry `e` of a trace over a blank memory, and `i` is the index of `e`. -/
structure Snapshot.OfEntry (x : Snapshot) (t : Trace) (blank : Memory) (i : Nat) (e : TraceEntry) : Prop where
  entry : t.entries[i]? = some e
  cycle : x.machine.cycle = i
  pc : x.machine.pc = e.pc
  status : x.machine.status = e.status
  registers : x.machine.registers.toList = e.registers
  flags : x.machine.flags = e.flags
  /-- The memory is the full one that the entries `0, …, i` give. -/
  memory : x.machine.memory = t.memoryAt blank i
  label : x.label = some e.title

namespace Session

/-- The session `t` shows one entry more than `s`, and has taken one snapshot more. -/
structure Advances (s t : Session) : Prop where
  cursor : t.cursor = s.cursor + 1
  remaining : t.remaining + 1 = s.remaining
  history : ∃ x, t.history.snapshots = s.history.snapshots.push x

variable {s : Session} {p : Playback} {e : TraceEntry}

/-! ### What a command does to the history -/

/-- What one command can do to a history, and to the trace. -/
inductive HistoryStep (h : History) (t : Option Trace) : History → Option Trace → Prop
  | same : HistoryStep h t h t
  /-- A snapshot of an entry of the trace is added. -/
  | shown {u : Trace} {i : Nat} {e : TraceEntry} {m : Machine} (ht : t = some u) (he : u.entries[i]? = some e)
      (hm : m.cycle = i) : HistoryStep h t (h.capture m (some e.title)) t
  | cleared : HistoryStep h t h.clear none
  /-- A new trace begins with a snapshot of its first entry. -/
  | opened {u : Trace} {e : TraceEntry} {m : Machine} (he : u.entries[0]? = some e) (hm : m.cycle = 0) :
      HistoryStep h t (h.clear.capture m (some e.title)) (some u)

/-- A snapshot is titled as the entry that it shows. -/
theorem history_capture (hpc : s.machine.pc = e.pc) :
    (s.capture e).history = s.history.capture s.machine (some e.title) := by
  -- the session titles by its own program counter, which is that of the entry
  have htitle : e.label.getD ("PC=" ++ Hex.address s.machine.pc) = e.title := by
    rw [hpc, TraceEntry.title, Hex.address, ← String.append_assoc]
    rfl
  unfold capture
  rw [htitle]

/-- To show the next entry is to take a snapshot of it; a stop at a breakpoint comes afterwards. -/
theorem history_advance (hp : s.playback = some p) :
    (s.advance e).history
      = s.history.capture (e.replay s.machine.memory (p.cursor + 1 : Nat)) (some e.title) := by
  obtain ⟨logs, active, hadvance⟩ := s.exists_advance e
  have harrived : (s.arrived e).history = ((s.moved e).capture e).history := rfl
  have hchecked : (s.arrived e).checked.history = (s.arrived e).history := by
    unfold checked
    cases (s.arrived e).breakpoints.stopping? (s.arrived e).machine.pc (s.arrived e).machine.registers <;> rfl
  rw [hadvance]
  -- the check comes after the snapshot and takes none
  refine (hchecked.trans harrived).trans ?_
  rw [moved_eq hp]
  exact history_capture rfl

/-- Showing the next entry, a session takes the snapshot that belongs to it. -/
theorem historyStep_advance (hp : s.playback = some p) (he : p.next? = some e) :
    HistoryStep s.history s.trace? (s.advance e).history (s.advance e).trace? := by
  have htrace : s.trace? = some p.trace := congrArg (Option.map Playback.trace) hp
  rw [history_advance hp, show (s.advance e).trace? = s.trace? from congrArg Prod.snd (s.source_advance e)]
  exact .shown htrace he rfl

/-- A load begins a history with the first entry, or leaves it empty. -/
theorem historyStep_load (s : Session) (text : String) :
    HistoryStep s.history s.trace? (s.load text).history (s.load text).trace? := by
  rcases s.exists_load text with ⟨e, -, hload⟩ | ⟨program, first, logs, -, hfirst, hload⟩
  · rw [hload]
    exact .cleared
  · rw [hload]
    show HistoryStep s.history s.trace? ((s.reset.opened _ first).capture first).history (some _)
    rw [history_capture rfl]
    exact .opened hfirst rfl

/-- A command adds a snapshot, forgets them all, or leaves the history as it is. -/
theorem historyStep_after (s : Session) (c : Command) :
    HistoryStep s.history s.trace? (s.after c).history (s.after c).trace? := by
  -- a load and a reset clear the history; of the others only an advance adds to it
  by_cases hload : ∃ text, c = .load text
  · obtain ⟨text, rfl⟩ := hload
    exact s.historyStep_load text
  · by_cases hreset : c = .reset
    · subst hreset
      exact .cleared
    · rcases s.after_cases (fun text h => hload ⟨text, h⟩) hreset with haside | ⟨e, hnext, hafter⟩
      · rw [haside.history, haside.trace]
        exact .same
      · obtain ⟨p, hp, he⟩ := exists_next_of_next? hnext
        rw [hafter]
        exact historyStep_advance hp he

/-! ### Titles -/

/-- All snapshots are of entries, under their titles. -/
def Titled (h : History) (t : Option Trace) : Prop :=
  ∀ x ∈ h.snapshots, ∃ (u : Trace) (i : Nat) (e : TraceEntry),
    t = some u ∧ u.entries[i]? = some e ∧ x.machine.cycle = i ∧ x.label = some e.title

/-- There is nothing to title in an empty history. -/
theorem titled_clear (h : History) (t : Option Trace) : Titled h.clear t :=
  fun _ hx => absurd hx (Array.not_mem_empty _)

/-- A snapshot of an entry that is titled as the entry keeps the titles right. -/
theorem Titled.capture {h : History} {u : Trace} {m : Machine} {i : Nat} (htitled : Titled h (some u))
    (he : u.entries[i]? = some e) (hm : m.cycle = i) : Titled (h.capture m (some e.title)) (some u) := by
  intro x hx
  rcases Array.mem_push.1 hx with hx | rfl
  · exact htitled x hx
  · exact ⟨u, i, e, rfl, he, hm, rfl⟩

/-- Whatever happens to a history, its snapshots are titled as the entries at their cycles. -/
theorem HistoryStep.titled {h h' : History} {t t' : Option Trace} (hstep : HistoryStep h t h' t')
    (htitled : Titled h t) : Titled h' t' := by
  cases hstep with
  | same => exact htitled
  | shown ht he hm =>
    subst ht
    exact htitled.capture he hm
  | cleared => exact titled_clear h none
  -- the old snapshots are gone, so that none of them has to be of the new trace
  | opened he hm => exact (titled_clear h _).capture he hm

/-- **Titles.** After any commands every snapshot is titled as the entry at its cycle. -/
theorem titled_afterAll (limits : Limits) (cs : List Command) :
    Titled ((start limits).afterAll cs).history ((start limits).afterAll cs).trace? :=
  afterAll_induction (motive := fun s => Titled s.history s.trace?) (fun s c h => (s.historyStep_after c).titled h)
    (titled_clear {} none) cs

/-! ### Identifiers -/

/-- No two snapshots share an identifier, and all identifiers are among those that were handed out. -/
structure Numbered (h : History) : Prop where
  nodup : (h.snapshots.toList.map (·.id)).Nodup
  lt : ∀ x ∈ h.snapshots, x.id.number < h.taken

theorem numbered_clear (h : History) : Numbered h.clear :=
  ⟨List.nodup_nil, fun _ hx => absurd hx (Array.not_mem_empty _)⟩

/-- A new snapshot bears a number that was not given before. -/
theorem Numbered.capture {h : History} (hnumbered : Numbered h) (m : Machine) (label : Option String) :
    Numbered (h.capture m label) where
  nodup := by
    unfold History.capture
    rw [Array.toList_push, List.map_append]
    refine hnumbered.nodup.append (List.nodup_singleton _) ?_
    -- the new identifier is the next number, and all others are smaller
    rintro id hid hnew
    obtain ⟨x, hx, rfl⟩ := List.mem_map.1 hid
    have hlt := hnumbered.lt x (Array.mem_toList_iff.1 hx)
    obtain hsame : x.id = ⟨h.taken⟩ := List.mem_singleton.1 hnew
    rw [hsame] at hlt
    exact Nat.lt_irrefl _ hlt
  lt := by
    intro x hx
    rcases Array.mem_push.1 hx with hx | rfl
    · exact Nat.lt_succ_of_lt (hnumbered.lt x hx)
    · exact Nat.lt_succ_self h.taken

/-- Whatever happens to a history, its snapshots are numbered through. -/
theorem HistoryStep.numbered {h h' : History} {t t' : Option Trace} (hstep : HistoryStep h t h' t')
    (hnumbered : Numbered h) : Numbered h' := by
  cases hstep with
  | same => exact hnumbered
  | shown _ _ _ => exact hnumbered.capture _ _
  | cleared => exact numbered_clear h
  | opened _ _ => exact (numbered_clear h).capture _ _

/-- **Numbers.** After any commands no two snapshots bear the same number. -/
theorem numbered_afterAll (limits : Limits) (cs : List Command) : Numbered ((start limits).afterAll cs).history :=
  afterAll_induction (motive := fun s => Numbered s.history) (fun s c h => (s.historyStep_after c).numbered h)
    (numbered_clear {}) cs

/-- So a snapshot is found by its own number. -/
theorem Numbered.find?_eq {h : History} (hnumbered : Numbered h) {x : Snapshot} (hx : x ∈ h.snapshots) :
    h.find? (.id x.id) = some x :=
  History.find?_of_nodup hnumbered.nodup hx

/-! ### Snapshots show what the trace shows -/

/-- The registers of an entry of a built trace are words already, and are restored as they are. -/
theorem toList_ofList_registers {program : Program} {n i : Nat}
    (he : (Trace.build n program).entries[i]? = some e) : (RegisterFile.ofList e.registers).toList = e.registers := by
  -- every entry was written down from a register file
  obtain ⟨f, hf⟩ : ∃ f : RegisterFile, e.registers = f.toList := by
    cases Trace.recorded_of_getElem? he <;> exact ⟨_, rfl⟩
  rw [hf, RegisterFile.ofList_toList]

/-- The machine that a trace shows at the cycle of a snapshot is that of the snapshot. -/
theorem Placed.machineAt?_of_mem (h : s.Placed p) {x : Snapshot} (hx : x ∈ s.history.snapshots) {i : Nat}
    (hcycle : x.machine.cycle = i) : p.trace.machineAt? s.limits.memory i = some x.machine := by
  obtain ⟨j, hj⟩ := h.history x hx
  have hij : (j : Int) = i := (Trace.cycle_of_machineAt? hj).symm.trans hcycle
  rwa [Int.ofNat_inj.1 hij] at hj

/-- A snapshot is of the entry at its cycle, with its status and with all of memory. -/
theorem Placed.ofEntry (h : s.Placed p) (hp : s.playback = some p) (htitled : Titled s.history s.trace?)
    {program : Program} {n : Nat} (hbuild : p.trace = .build n program) {x : Snapshot}
    (hx : x ∈ s.history.snapshots) : ∃ i e, x.OfEntry p.trace s.limits.memory i e := by
  obtain ⟨u, i, e, htrace, he, hcycle, hlabel⟩ := htitled x hx
  obtain rfl : p.trace = u := Option.some.inj ((congrArg (Option.map Playback.trace) hp).symm.trans htrace)
  -- the title is of an entry with the cycle of the snapshot, and so is the machine
  have hm := h.machineAt?_of_mem hx hcycle
  have hmemory := TraceEntry.memory_of_machineAt? rfl hm
  obtain ⟨e', he', hreplay⟩ := TraceEntry.exists_of_machineAt? hm
  rw [Array.getElem?_toList, he] at he'
  obtain rfl : e = e' := Option.some.inj he'
  refine ⟨i, e, ?_⟩
  exact
    { entry := he
      cycle := hcycle
      pc := by rw [hreplay]; rfl
      status := by rw [hreplay]; rfl
      registers := by
        rw [hreplay]
        exact toList_ofList_registers (hbuild ▸ he)
      flags := by rw [hreplay]; rfl
      memory := hmemory
      label := hlabel }

/-- Snapshots of one cycle are the same but for their identifiers. -/
theorem Placed.eq_of_cycle (h : s.Placed p) (htitled : Titled s.history s.trace?) {x y : Snapshot}
    (hx : x ∈ s.history.snapshots) (hy : y ∈ s.history.snapshots) (hcycle : x.machine.cycle = y.machine.cycle) :
    { x with id := y.id } = y := by
  obtain ⟨u, i, e, htrace, he, hi, hlabel⟩ := htitled x hx
  obtain ⟨u', j, e', htrace', he', hj, hlabel'⟩ := htitled y hy
  -- both are of the current trace, and the cycle is the place of the entry in it
  obtain rfl : u = u' := Option.some.inj (htrace.symm.trans htrace')
  obtain rfl : i = j := Int.ofNat_inj.1 ((hi.symm.trans hcycle).trans hj)
  obtain rfl : e = e' := Option.some.inj (he.symm.trans he')
  have hmachine : x.machine = y.machine :=
    Option.some.inj ((h.machineAt?_of_mem hx hi).symm.trans (h.machineAt?_of_mem hy hj))
  cases x
  cases y
  cases hmachine
  cases hlabel
  cases hlabel'
  rfl

/-! ### Steps -/

/-- A session that can go on advances by a step, and any other is left as it is. -/
theorem Coherent.step_cases (h : s.Coherent) :
    s.running = true ∧ s.Advances s.step ∨ s.running = false ∧ s.step = s := by
  cases hnext : s.next? with
  | none =>
    have hrun := h.running_of_next?_eq_none hnext
    refine Or.inr ⟨hrun, ?_⟩
    -- all it does is to take back that the session could go on, which it could not
    unfold Session.step
    rw [hnext]
    cases s
    cases hrun
    rfl
  | some e =>
    obtain ⟨p, hp, hshows, hstop, he⟩ := h.exists_of_next? hnext
    have hrun : s.running = true := hshows.ready.2 ⟨hstop, (Array.getElem?_eq_some_iff.1 he).1⟩
    have hstep : s.step = s.advance e := by
      unfold Session.step
      rw [hnext]
    have hplayback := (hshows.advance hp hstop he).1
    have hleft := remaining_of_playback hplayback
    have hbefore := (hshows.ready.1 hrun).2
    rw [hstep]
    refine Or.inl ⟨hrun, ?_, ?_, _, congrArg History.snapshots (history_advance hp)⟩
    · rw [cursor_of_playback hplayback, cursor_of_playback hp]
      exact Int.natCast_succ p.cursor
    · rw [hleft, remaining_of_playback hp]
      show p.trace.length - (p.cursor + 1 + 1) + 1 = p.trace.length - (p.cursor + 1)
      omega

/-- A step takes a snapshot exactly if it moves the cursor. -/
theorem Coherent.exists_push_iff (h : s.Coherent) :
    (∃ x, s.step.history.snapshots = s.history.snapshots.push x) ↔ s.step.cursor = s.cursor + 1 := by
  rcases h.step_cases with ⟨-, hadvances⟩ | ⟨-, hsame⟩
  · exact iff_of_true hadvances.history hadvances.cursor
  · rw [hsame]
    refine iff_of_false ?_ (by omega)
    -- no array is what it was with one element more
    rintro ⟨x, hx⟩
    have hsize := congrArg Array.size hx
    rw [Array.size_push] at hsize
    omega

/-- Snapshots stay as they are, in their places. -/
theorem prefix_after (s : Session) {c : Command} (hload : ∀ text, c ≠ .load text) (hreset : c ≠ .reset) :
    s.history.snapshots.toList <+: (s.after c).history.snapshots.toList := by
  rcases s.after_cases hload hreset with haside | ⟨e, hnext, hafter⟩
  · exact haside.history ▸ List.prefix_rfl
  · obtain ⟨p, hp, -⟩ := exists_next_of_next? hnext
    rw [hafter, history_advance hp]
    unfold History.capture
    rw [Array.toList_push]
    exact List.prefix_append _ _

/-! ### Jumps -/

/-- A snapshot that is found is jumped to. -/
theorem restore_of_find? {r : Reference SnapshotId} {x : Snapshot} (hfind : s.history.find? r = some x) :
    s.restore r =
      ({ s with
          machine := x.machine
          playback := s.playback.map (·.seek x.machine.cycle.toNat)
          stop := none
          active := false } : Session).refresh.log .info ("Restored to cycle " ++ toString x.machine.cycle) := by
  unfold restore
  rw [hfind]

/-- A reference to no snapshot leaves a session as it is, and an entry in its log. -/
theorem restore_of_forall_not {r : Reference SnapshotId} (hnone : ∀ x ∈ s.history.snapshots, r.isTo x.id = false) :
    s.restore r = s.log .error ("Snapshot not found: " ++ r.named SnapshotId.text) := by
  have hfind : s.history.find? r = none := by
    unfold History.find?
    rw [Array.find?_eq_none]
    intro x hx
    rw [hnone x hx]
    exact Bool.false_ne_true
  unfold restore
  rw [hfind]

/-- What a jump to a snapshot makes of a session. -/
structure Restored (s : Session) (x : Snapshot) (t : Session) : Prop where
  machine : t.machine = x.machine
  cursor : t.cursor = x.machine.cycle
  hit : t.hit? = none
  active : t.active = false
  /-- The session can go on if there are entries left. -/
  running_iff : t.running = true ↔ 0 < t.remaining
  aside : s.Aside t
  breakpoints : t.breakpoints = s.breakpoints

/-- **Jumping.** The session shows the entry of the snapshot, and can go on from there. -/
theorem Coherent.restored (h : s.Coherent) (hp : s.playback = some p) (hnumbered : Numbered s.history) {x : Snapshot}
    (hx : x ∈ s.history.snapshots) : s.Restored x (s.restore (.id x.id)) := by
  have hshows := (coherent_of_some hp).1 h
  obtain ⟨i, hi⟩ := hshows.history x hx
  have hcycle : x.machine.cycle = i := Trace.cycle_of_machineAt? hi
  -- identifiers are numbered, so the one asked for finds this snapshot and no other
  have hrestore := restore_of_find? (hnumbered.find?_eq hx)
  have hplayback : (s.restore (.id x.id)).playback = some (p.seek i) := by
    rw [hrestore]
    show s.playback.map (·.seek x.machine.cycle.toNat) = some (p.seek i)
    rw [hp, hcycle]
    rfl
  -- a restore leaves the stop, so the session can go on unless it is at the last entry
  have hstop : (s.restore (.id x.id)).stop = none := by
    rw [hrestore]
    rfl
  have hshows' := (coherent_of_some hplayback).1 (h.restore (.id x.id))
  exact
    { machine := by rw [hrestore]; rfl
      cursor := (cursor_of_playback hplayback).trans hcycle.symm
      hit := hit?_eq_none_iff.2 hstop
      active := by rw [hrestore]; rfl
      running_iff := by
        refine hshows'.ready.trans ?_
        rw [remaining_of_playback hplayback]
        exact ⟨fun hready => by have := hready.2; omega, fun hlt => ⟨hstop, by omega⟩⟩
      aside := s.aside_restore (.id x.id)
      breakpoints := by rw [hrestore]; rfl }

/-! ### The history of a session -/

/-- The history of a session that shows a trace is faithful to it, and append-only. -/
structure Faithful (s : Session) (p : Playback) : Prop where
  /-- Every snapshot shows an entry of the trace, and the index of the entry is its cycle. -/
  ofEntry : ∀ x ∈ s.history.snapshots, ∃ i e, x.OfEntry p.trace s.limits.memory i e
  /-- Snapshots of one cycle are the same but for their identifiers. -/
  eq_of_cycle : ∀ x ∈ s.history.snapshots, ∀ y ∈ s.history.snapshots,
    x.machine.cycle = y.machine.cycle → { x with id := y.id } = y
  /-- A step takes one snapshot exactly if it moves the cursor on. -/
  step_iff : (∃ x, s.step.history.snapshots = s.history.snapshots.push x) ↔ s.step.cursor = s.cursor + 1
  /-- A step that does not move the cursor does nothing. -/
  step_eq : s.step.cursor ≠ s.cursor + 1 → s.step = s
  /-- Only loading and resetting remove snapshots, and none is changed. -/
  appendOnly : ∀ c : Command, (∀ text, c ≠ .load text) → c ≠ .reset →
    s.history.snapshots.toList <+: (s.after c).history.snapshots.toList
  ids : (s.history.snapshots.toList.map (·.id)).Nodup
  restored : ∀ x ∈ s.history.snapshots, s.Restored x (s.restore (.id x.id))
  /-- A reference to no snapshot changes nothing but the log. -/
  restore_unknown : ∀ r : Reference SnapshotId, (∀ x ∈ s.history.snapshots, r.isTo x.id = false) →
    s.restore r = s.log .error ("Snapshot not found: " ++ r.named SnapshotId.text)

/-- **The history is faithful and append-only.** After any commands, every snapshot of a session with a trace shows what
the trace shows at its cycle, with the status of the entry and all of memory, under the title of the entry. Steps add
snapshots as they move the cursor, no command but loading and resetting takes one away, and a jump to a snapshot leads
back to it. -/
theorem history_faithful (limits : Limits) (cs : List Command) {p : Playback}
    (hp : ((start limits).afterAll cs).playback = some p) : ((start limits).afterAll cs).Faithful p := by
  have hcoherent := coherent_afterAll limits cs
  have htitled := titled_afterAll limits cs
  have hnumbered := numbered_afterAll limits cs
  obtain ⟨-, program, -, -, hbuild⟩ := exists_build limits cs hp
  -- what was done before matters no more, only that it left these invariants
  generalize (start limits).afterAll cs = s at hp hcoherent htitled hnumbered ⊢
  have hplaced := ((coherent_of_some hp).1 hcoherent).toPlaced
  exact
    { ofEntry := fun x hx => hplaced.ofEntry hp htitled hbuild hx
      eq_of_cycle := fun x hx y hy => hplaced.eq_of_cycle htitled hx hy
      step_iff := hcoherent.exists_push_iff
      step_eq := by
        intro hne
        -- a step that does not move the cursor has changed nothing
        rcases hcoherent.step_cases with ⟨-, hadvances⟩ | ⟨-, hsame⟩
        · exact absurd hadvances.cursor hne
        · exact hsame
      appendOnly := fun c => s.prefix_after
      ids := hnumbered.nodup
      restored := fun x hx => hcoherent.restored hp hnumbered hx
      restore_unknown := fun r => restore_of_forall_not }

/-- A breakpoint at the second of two `nop`s, come to twice: the machine reports a halt there, and both snapshots have
the status of a running machine. Jumping to one of them, the session can go on. -/
theorem history_faithful_breakpoint_twice :
    let s := (start { memorySize := 32, maxSteps := 10 }).afterAll
      [.load "0x000: 10 10 00", .addBreakpoint 1 none, .step, .restore (.id ⟨0⟩), .step]
    s.machine.status = .hlt ∧ ∃ p x y, s.playback = some p ∧ s.Faithful p ∧
      x ∈ s.history.snapshots ∧ y ∈ s.history.snapshots ∧ x.id ≠ y.id ∧ { x with id := y.id } = y ∧
      x.machine.status = .aok ∧ x.label = some "nop" ∧ s.Restored x (s.restore (.id x.id)) := by
  intro s
  have hstatus : s.machine.status = .hlt := by decide +kernel
  have hsome : s.playback.isSome = true := by decide +kernel
  have hlist : (s.history.snapshots.toList.map fun x => (x.id.number, x.machine.cycle, x.machine.status, x.label))
      = [(0, (0 : Int), Status.aok, some "PC=0x0000"), (1, 1, .aok, some "nop"), (2, 1, .aok, some "nop")] := by
    decide +kernel
  obtain ⟨p, hp⟩ := Option.isSome_iff_exists.1 hsome
  have hfaithful : s.Faithful p := history_faithful _ _ hp
  -- the last two of the three snapshots are of the breakpoint
  obtain ⟨w, x, y, hwxy, hx, hy⟩ : ∃ w x y, s.history.snapshots.toList = [w, x, y] ∧
      (x.id.number, x.machine.cycle, x.machine.status, x.label) = (1, 1, .aok, some "nop") ∧
      (y.id.number, y.machine.cycle, y.machine.status, y.label) = (2, 1, .aok, some "nop") := by
    obtain ⟨w, ws, hws, -, htail⟩ := List.map_eq_cons_iff.1 hlist
    obtain ⟨x, xs, rfl, hx, htail⟩ := List.map_eq_cons_iff.1 htail
    obtain ⟨y, ys, rfl, hy, htail⟩ := List.map_eq_cons_iff.1 htail
    rw [List.map_eq_nil_iff.1 htail] at hws
    exact ⟨w, x, y, hws, hx, hy⟩
  simp only [Prod.mk.injEq] at hx hy
  have hmemx : x ∈ s.history.snapshots := Array.mem_toList_iff.1 (by simp [hwxy])
  have hmemy : y ∈ s.history.snapshots := Array.mem_toList_iff.1 (by simp [hwxy])
  refine ⟨hstatus, p, x, y, hp, hfaithful, hmemx, hmemy, ?_, ?_, hx.2.2.1, hx.2.2.2, hfaithful.restored x hmemx⟩
  · intro hid
    have hnumber := congrArg SnapshotId.number hid
    rw [hx.1, hy.1] at hnumber
    cases hnumber
  · exact hfaithful.eq_of_cycle x hmemx y hmemy (hx.2.1.trans hy.2.1.symm)

end Session

end Y86
