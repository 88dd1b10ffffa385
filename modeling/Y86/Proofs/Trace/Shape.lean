import Y86.Proofs.Machine.Fault
import Y86.Proofs.Trace.Entry

/-!
# The shape of every trace

Whatever a program does, its trace has one shape (`Trace.Shape`): its length is bounded, its entries count their steps,
only the last one shows a machine that does not run, an entry has the text of an instruction exactly if its step was
carried out, and the words of an entry are aligned, ascending, and few. A run ends in one of three ways, with a halt, with
a fault, or at the bound, and the last entry tells which: only the bound leaves a halted machine without an instruction.

The clauses are proved by cases on what an entry was taken down for (`Trace.Recorded`), and they are put together in
`Trace.shape_build`.
-/

namespace Y86

namespace Machine

/-- Machines that agree both take a step, or neither does. -/
theorem Agrees.exists_step {a b next : Machine} (h : a.Agrees b) {op : Operation} (ha : a.step = .ok (op, next)) :
    ∃ next', b.step = .ok (op, next') := by
  have hstep := step_alike h
  rw [ha] at hstep
  cases hb : b.step with
  | ok y =>
    rw [hb] at hstep
    obtain ⟨hop, -⟩ : op = y.1 ∧ next.Agrees y.2 := hstep
    exact ⟨y.2, by rw [hop]⟩
  | error e => rw [hb] at hstep; exact False.elim hstep

theorem Agrees.symm {a b : Machine} (h : a.Agrees b) : b.Agrees a :=
  ⟨h.pc.symm, h.registers.symm, h.flags.symm, h.bytes.symm⟩

end Machine

namespace Trace

/-- What is true of the trace of `p` with the bound `n`, whatever `p` does. -/
structure Shape (t : Trace) (p : Program) (n : Nat) : Prop where
  /-- There is an entry behind the first. -/
  two_le : 2 ≤ t.length
  /-- There are the first entry, one for each step, and one more if the bound was reached. -/
  length_le : t.length ≤ n + 2
  /-- An entry counts the entries in front of it. -/
  cycle : ∀ (i : Nat) (e : TraceEntry), t.entries[i]? = some e → e.cycle = i
  /-- The first entry is at the entry point. -/
  entry : ∀ e : TraceEntry, t.entries[0]? = some e → e.pc = p.entry
  /-- The machine runs exactly in front of the last entry. -/
  status_iff : ∀ (i : Nat) (e : TraceEntry), t.entries[i]? = some e → (e.status = .aok ↔ i + 1 < t.length)
  /-- An entry has the text of an instruction exactly if it is that of a step, and plain execution carries out that
  instruction as its step. -/
  label_iff : ∀ (i : Nat) (e : TraceEntry) (text : String), t.entries[i + 1]? = some e →
    (e.label = some text ↔ ¬(t.limitReached = true ∧ i + 2 = t.length) ∧
      ∃ op next, (Machine.stepped^[i] (.initial p.memory p.entry)).step = .ok (op, next) ∧ op.text = text)
  /-- Behind the first entry, only the last one may have no text. -/
  unlabelled : ∀ (i : Nat) (e : TraceEntry), t.entries[i + 1]? = some e → e.label = none → i + 2 = t.length
  /-- The bound was reached exactly if the trace is as long as it can be. -/
  limit_iff_length : t.limitReached = true ↔ t.length = n + 2
  /-- The bound was reached exactly if the last entry shows a halted machine and no instruction. -/
  limit_iff_last : t.limitReached = true ↔
    ∃ last, t.entries.back? = some last ∧ last.status = .hlt ∧ last.label = none
  /-- If the bound was reached, the last entry repeats the one before it. -/
  limit_repeats : t.limitReached = true → ∃ i before last, i + 2 = t.length ∧ t.entries[i]? = some before ∧
    t.entries[i + 1]? = some last ∧ last.pc = before.pc ∧ last.registers = before.registers ∧
    last.flags = before.flags ∧ last.words = []
  /-- The program counter is inside memory or right behind it. -/
  pc_range : ∀ (i : Nat) (e : TraceEntry), t.entries[i]? = some e → 0 ≤ e.pc ∧ e.pc ≤ p.memory.size
  /-- There are fifteen registers, and they hold signed words. -/
  registers : ∀ (i : Nat) (e : TraceEntry), t.entries[i]? = some e →
    e.registers.length = 15 ∧ ∀ v ∈ e.registers, Word.InRange v
  /-- The words of an entry are ascending and aligned, and begin inside memory. -/
  words : ∀ (i : Nat) (e : TraceEntry), t.entries[i]? = some e →
    (e.words.map (·.1)).Pairwise (· < ·) ∧ ∀ w ∈ e.words, w.1 % 8 = 0 ∧ w.1 < p.memory.size
  /-- A step writes two words at most. -/
  few_words : ∀ (i : Nat) (e : TraceEntry), t.entries[i + 1]? = some e → e.words.length ≤ 2
  /-- The order of the entries is right. -/
  looksReversed : t.looksReversed = false

variable {p : Program} {n i : Nat} {e : TraceEntry}

/-! ### Each entry for itself -/

/-- Every entry is that of a sound machine that has made as many steps as there are entries in front of it. -/
theorem Recorded.sound (h : Recorded p n i e) (hentry : p.entry < p.memory.size) :
    ∃ m touched label, Recording.Sound p i m ∧ e = .ofMachine m touched label := by
  cases h with
  | start => exact ⟨_, _, _, Recording.sound_start hentry, rfl⟩
  | @step k attempted =>
    have hsound := Recording.sound_iterate_advance hentry (k + 1)
    rw [Function.iterate_succ_apply'] at hsound
    exact ⟨_, _, _, hsound, rfl⟩
  | halt running =>
    -- being halted counts as a step, and changes neither memory nor program counter
    have hsound := Recording.sound_iterate_advance hentry (Recording.attempts n (.start p))
    rw [← Recording.run_eq_iterate] at hsound
    exact ⟨(Recording.run n (.start p)).halted, [], none,
      ⟨congrArg (· + 1) hsound.cycle, hsound.size_eq, hsound.pc_range⟩, rfl⟩

/-- The values of registers are signed words. -/
theorem inRange_of_mem_toList {f : RegisterFile} {v : Int} (h : v ∈ f.toList) : Word.InRange v := by
  obtain ⟨r, -, rfl⟩ := List.mem_map.1 h
  exact f.get_inRange r

/-- The entry of a step has a text, or the status of a fault. -/
theorem status_of_label_eq_none {r : Recording} (h : r.nextEntry.label = none) :
    r.nextEntry.status = .adr ∨ r.nextEntry.status = .ins := by
  cases hstep : r.machine.step with
  | ok x =>
    obtain ⟨op, next⟩ := x
    -- an instruction that is executed is shown by its text
    rw [Recording.nextEntry_of_step hstep] at h
    cases h
  | error failure =>
    have hstatus : r.nextEntry.status = failure.fault.status?.getD .ins := by
      rw [Recording.nextEntry_of_failure hstep]
      rfl
    rw [hstatus]
    rcases (Machine.fails_of_step hstep).status with hadr | hins
    · rw [hadr]
      exact Or.inl rfl
    · rw [hins]
      exact Or.inr rfl

/-- The text of an entry is that of the instruction that was carried out. -/
theorem label_nextEntry_iff {r : Recording} {text : String} :
    r.nextEntry.label = some text ↔ ∃ op next, r.machine.step = .ok (op, next) ∧ op.text = text := by
  cases hstep : r.machine.step with
  | ok x =>
    obtain ⟨op, next⟩ := x
    rw [Recording.nextEntry_of_step hstep]
    -- the step is a function, so the operation is the one whose text is shown
    constructor
    · intro h
      exact ⟨op, next, rfl, Option.some.inj h⟩
    · rintro ⟨op', next', h, rfl⟩
      cases h
      rfl
  | error failure =>
    rw [Recording.nextEntry_of_failure hstep]
    exact ⟨fun h => (nomatch h), fun ⟨_, _, h, _⟩ => (nomatch h)⟩

/-- The words that a list of touched words gives to an entry. -/
theorem words_ofMachine {m : Machine} {touched : List Nat} (label : Option String)
    (haligned : ∀ b ∈ touched, b % 8 = 0) (hsize : m.memory.size = p.memory.size) :
    ((TraceEntry.ofMachine m touched label).words.map (·.1)).Pairwise (· < ·) ∧
      ∀ w ∈ (TraceEntry.ofMachine m touched label).words, w.1 % 8 = 0 ∧ w.1 < p.memory.size := by
  refine ⟨TraceEntry.pairwise_wordsOf m.memory touched, fun w hw => ?_⟩
  obtain ⟨hmem, hlt⟩ := TraceEntry.mem_wordsOf hw
  rw [hsize] at hlt
  exact ⟨haligned _ hmem, hlt⟩

/-- The words of an entry are aligned, inside memory, and in ascending order. -/
theorem words_nextEntry {r : Recording} (hclear : r.machine.memory.touched = [])
    (hsize : r.machine.memory.size = p.memory.size) :
    (r.nextEntry.words.map (·.1)).Pairwise (· < ·) ∧ ∀ w ∈ r.nextEntry.words, w.1 % 8 = 0 ∧ w.1 < p.memory.size := by
  have htracks := Recording.attempt_tracks hclear
  refine words_ofMachine _ (fun b hb => ?_) (htracks.size_eq.trans hsize)
  exact (htracks.aligned b hb).1

/-! ### The bound -/

/-- The limit was reached exactly if the machine still runs after the last step. -/
theorem limitReached_build_iff :
    (build n p).limitReached = true ↔ (Recording.run n (.start p)).machine.status = .aok :=
  beq_iff_eq

/-- A machine that still runs at the end has attempted as many steps as it might. -/
theorem attempts_of_running (running : (Recording.run n (.start p)).machine.status = .aok) :
    Recording.attempts n (.start p) = n := by
  by_contra hne
  have hlt : Recording.attempts n (.start p) < n := Nat.lt_of_le_of_ne (Recording.attempts_le n _) hne
  exact Recording.status_of_attempts_lt hlt running

section Build

variable {blank : Memory} {text : String} (h : Program.load blank text = .ok p) (hblank : blank.touched = [])

include h hblank

/-- Then there is one entry for each attempt, the first one, and the one for the halt. -/
theorem length_of_running (running : (Recording.run n (.start p)).machine.status = .aok) :
    (build n p).length = Recording.attempts n (.start p) + 2 := by
  rw [length_build h hblank, if_pos running]

/-- Otherwise there is none for a halt. -/
theorem length_of_not_running (stopped : (Recording.run n (.start p)).machine.status ≠ .aok) :
    (build n p).length = Recording.attempts n (.start p) + 1 := by
  rw [length_build h hblank, if_neg stopped, Nat.add_zero]

/-- **Length.** Only a trace that was cut off has two entries more than there may be steps. -/
theorem limit_iff_length_build : (build n p).limitReached = true ↔ (build n p).length = n + 2 := by
  rw [limitReached_build_iff]
  constructor
  · intro running
    rw [length_of_running h hblank running, attempts_of_running running]
  · intro hlength
    by_contra stopped
    rw [length_of_not_running h hblank stopped] at hlength
    have hle := Recording.attempts_le n (.start p)
    omega

/-- Behind the last step there is an entry only for a machine that was halted. -/
theorem getElem?_build_halted (running : (Recording.run n (.start p)).machine.status = .aok) :
    (build n p).entries[Recording.attempts n (.start p) + 1]?
      = some (.ofMachine (Recording.run n (.start p)).halted []) := by
  have hlt : Recording.attempts n (.start p) + 1 < (build n p).length := by
    rw [length_of_running h hblank running]
    exact Nat.lt_succ_self _
  obtain ⟨last, hlast⟩ : ∃ last, (build n p).entries[Recording.attempts n (.start p) + 1]? = some last :=
    ⟨_, Array.getElem?_eq_getElem hlt⟩
  rcases (recorded_of_getElem? hlast).step_or_halt with ⟨attempted, -⟩ | ⟨-, -, rfl⟩
  · exact absurd attempted (Nat.lt_irrefl _)
  · exact hlast

/-- **The last entry** of a trace that was cut off repeats the one before it, but for the status. -/
theorem limit_repeats_build (hlimit : (build n p).limitReached = true) :
    ∃ i before last, i + 2 = (build n p).length ∧ (build n p).entries[i]? = some before ∧
      (build n p).entries[i + 1]? = some last ∧ last.pc = before.pc ∧ last.registers = before.registers ∧
      last.flags = before.flags ∧ last.words = [] := by
  have running := limitReached_build_iff.1 hlimit
  have hlength := length_of_running h hblank running
  have hhalted := getElem?_build_halted h hblank running
  obtain ⟨before, hbefore⟩ : ∃ before, (build n p).entries[Recording.attempts n (.start p)]? = some before :=
    ⟨_, Array.getElem?_eq_getElem (by change _ < (build n p).length; omega)⟩
  refine ⟨_, before, _, hlength.symm, hbefore, hhalted, ?_⟩
  -- the entry before shows the machine that was halted
  obtain ⟨touched, label, rfl⟩ := (recorded_of_getElem? hbefore).shows (Nat.le_refl _)
  rw [← Recording.run_eq_iterate]
  exact ⟨rfl, rfl, rfl, rfl⟩

/-- And it is told by being halted without an instruction. -/
theorem limit_iff_last_build :
    (build n p).limitReached = true ↔
      ∃ last, (build n p).entries.back? = some last ∧ last.status = .hlt ∧ last.label = none := by
  constructor
  · intro hlimit
    have running := limitReached_build_iff.1 hlimit
    have hlength : (build n p).entries.size = Recording.attempts n (.start p) + 2 := length_of_running h hblank running
    refine ⟨.ofMachine (Recording.run n (.start p)).halted [], ?_, rfl, rfl⟩
    rw [Array.back?_eq_getElem?, hlength]
    exact getElem?_build_halted h hblank running
  · rintro ⟨last, hlast, hstatus, hlabel⟩
    rw [Array.back?_eq_getElem?] at hlast
    rw [limitReached_build_iff]
    generalize (build n p).entries.size - 1 = i at hlast
    cases recorded_of_getElem? hlast with
    | start => cases hstatus
    | step attempted =>
      -- a step without a text has failed
      rcases status_of_label_eq_none hlabel with hfault | hfault <;> rw [hfault] at hstatus <;> cases hstatus
    | halt running => exact running

/-! ### Texts -/

/-- **Texts.** An entry has the text of the instruction that was carried out, and only then. -/
theorem label_build_iff {label : String} (he : (build n p).entries[i + 1]? = some e) :
    e.label = some label ↔ ¬((build n p).limitReached = true ∧ i + 2 = (build n p).length) ∧
      ∃ op next, (Machine.stepped^[i] (.initial p.memory p.entry)).step = .ok (op, next) ∧ op.text = label := by
  rcases (recorded_of_getElem? he).step_or_halt with ⟨attempted, rfl⟩ | ⟨hi, running, rfl⟩
  · have hstep : ¬((build n p).limitReached = true ∧ i + 2 = (build n p).length) := by
      rintro ⟨hlimit, hlength⟩
      rw [length_of_running h hblank (limitReached_build_iff.1 hlimit)] at hlength
      omega
    -- plain execution agrees with the recording in front of the step
    have hagrees := Recording.iterate_advance_agrees _ (Recording.start_agrees p) i
    rw [label_nextEntry_iff]
    constructor
    · rintro ⟨op, next, hok, htext⟩
      obtain ⟨next', hok'⟩ := hagrees.exists_step hok
      exact ⟨hstep, op, next', hok', htext⟩
    · rintro ⟨-, op, next, hok, htext⟩
      obtain ⟨next', hok'⟩ := hagrees.symm.exists_step hok
      exact ⟨op, next', hok', htext⟩
  · -- the entry for a halt is the last one, and the bound was reached
    have hlength : i + 2 = (build n p).length := by rw [length_of_running h hblank running, hi]
    exact ⟨fun hnone => (nomatch hnone), fun ⟨hstep, _⟩ => absurd ⟨limitReached_build_iff.2 running, hlength⟩ hstep⟩

/-- Only the last entry may come without a text. -/
theorem unlabelled_build (hn : 0 < n) (he : (build n p).entries[i + 1]? = some e) (hlabel : e.label = none) :
    i + 2 = (build n p).length := by
  have hlt : i + 1 < (build n p).length := (Array.getElem?_eq_some_iff.1 he).1
  -- the machine has stopped, so no entry follows
  have hstopped : e.status ≠ .aok := by
    rcases (recorded_of_getElem? he).step_or_halt with ⟨-, rfl⟩ | ⟨-, -, rfl⟩
    · rcases status_of_label_eq_none hlabel with hfault | hfault <;> rw [hfault] <;> decide
    · exact fun hrun => (nomatch hrun)
  have hlast := mt ((wellShaped_build h hblank hn).status_iff (i + 1) e he).2 hstopped
  omega

/-! ### Words -/

/-- **Words.** They are aligned, inside memory, and in ascending order. -/
theorem words_build (he : (build n p).entries[i]? = some e) :
    (e.words.map (·.1)).Pairwise (· < ·) ∧ ∀ w ∈ e.words, w.1 % 8 = 0 ∧ w.1 < p.memory.size := by
  cases recorded_of_getElem? he with
  | start =>
    have htracks := Program.load_tracks hblank h
    exact words_ofMachine none (fun b hb => (htracks.aligned b hb).1) rfl
  | @step k attempted =>
    have hsound := Recording.sound_iterate_advance (Program.entry_lt_size h) k
    exact words_nextEntry (Recording.touched_iterate_advance p k) hsound.size_eq
  | halt running => exact ⟨List.Pairwise.nil, fun w hw => (nomatch hw)⟩

end Build

/-- There are two of them at most, as a step makes one store at most. -/
theorem length_words_build (he : (build n p).entries[i + 1]? = some e) : e.words.length ≤ 2 := by
  rcases (recorded_of_getElem? he).step_or_halt with ⟨-, rfl⟩ | ⟨-, -, rfl⟩
  · calc (Recording.advance^[i] (.start p)).nextEntry.words.length
      _ ≤ (Recording.attempt (Recording.advance^[i] (.start p)).machine).1.memory.touched.length :=
        TraceEntry.length_wordsOf_le _ _
      _ ≤ 2 := Recording.length_touched_attempt (Recording.touched_iterate_advance p i)
  · exact Nat.zero_le 2

/-! ### The order of the entries -/

/-- A trace whose first entry shows a running machine does not look reversed. -/
theorem looksReversed_eq_false {t : Trace} (hfirst : ∀ first, t.entries[0]? = some first → first.status = .aok) :
    t.looksReversed = false := by
  unfold Trace.looksReversed
  split
  case h_1 first last hget _ =>
    rw [hfirst first hget, bne_self_eq_false, Bool.and_false, Bool.false_and]
  case h_2 => rfl

/-- **The shape of a trace.** Whatever a loaded program does, and whatever the bound on its steps is, its trace has the
shape that every trace has. -/
theorem shape_build (size : Nat) (hsize : 0 < size) (text : String) {p : Program}
    (hload : Program.load (.zeros size hsize) text = .ok p) {n : Nat} (hn : 0 < n) :
    p.memory.size = size ∧ (build n p).Shape p n := by
  have hentry := Program.entry_lt_size hload
  have hshape := wellShaped_build hload rfl hn
  -- every entry is of a machine for which the clauses hold
  have hsound : ∀ {i e}, (build n p).entries[i]? = some e →
      ∃ m touched label, Recording.Sound p i m ∧ e = .ofMachine m touched label :=
    fun he => (recorded_of_getElem? he).sound hentry
  refine ⟨(Program.size_load hload).trans (Memory.size_zeros size hsize), ?_⟩
  exact
    { two_le := hshape.two_le
      length_le := by
        -- one entry is the start, and at most one more stands behind the attempts
        have hle := Recording.attempts_le n (.start p)
        have hlength := length_build hload rfl n
        split at hlength <;> omega
      cycle := by
        intro i e he
        obtain ⟨m, touched, label, hm, rfl⟩ := hsound he
        exact hm.cycle
      entry := by
        intro e he
        cases recorded_of_getElem? he
        rfl
      status_iff := hshape.status_iff
      label_iff := fun i e label he => label_build_iff hload rfl he
      unlabelled := fun i e he hlabel => unlabelled_build hload rfl hn he hlabel
      limit_iff_length := limit_iff_length_build hload rfl
      limit_iff_last := limit_iff_last_build hload rfl
      limit_repeats := limit_repeats_build hload rfl
      pc_range := by
        intro i e he
        obtain ⟨m, touched, label, hm, rfl⟩ := hsound he
        exact hm.pc_range
      registers := by
        intro i e he
        obtain ⟨m, touched, label, hm, rfl⟩ := hsound he
        exact ⟨rfl, fun v hv => inRange_of_mem_toList hv⟩
      words := fun i e he => words_build hload rfl he
      few_words := fun i e he => length_words_build he
      looksReversed := looksReversed_eq_false fun first hfirst => (hshape.status_iff 0 first hfirst).2 hshape.two_le }

/-- A halt that falls on the last step that is allowed, and the same program with one step less. -/
theorem shape_build_halt_at_bound :
    ∃ p, Program.load (.zeros 12 (by decide)) "0x00a: 10 00" = .ok p ∧
      (build 2 p).length = 3 ∧ (build 2 p).limitReached = false ∧ (build 2 p).Shape p 2 ∧
      (build 1 p).length = 3 ∧ (build 1 p).limitReached = true ∧ (build 1 p).Shape p 1 := by
  have hvalues : ((Program.load (.zeros 12 (by decide)) "0x00a: 10 00").toOption.map fun p =>
      ((build 2 p).length, (build 2 p).limitReached, (build 1 p).length, (build 1 p).limitReached))
        = some (3, false, 3, true) := by
    decide +kernel
  obtain ⟨p, hp, hpair⟩ := Option.map_eq_some_iff.1 hvalues
  have hload := eq_ok_of_toOption hp
  simp only [Prod.mk.injEq] at hpair
  -- the lengths agree; what tells the two traces apart is whether the last entry was forced
  obtain ⟨hlength, hlimit, hlength', hlimit'⟩ := hpair
  exact ⟨p, hload, hlength, hlimit, (shape_build 12 (by decide) _ hload (by decide)).2, hlength', hlimit',
    (shape_build 12 (by decide) _ hload (by decide)).2⟩

end Trace

end Y86
