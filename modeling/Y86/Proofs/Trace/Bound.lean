import Y86.Proofs.Trace.Shape

/-!
# A larger bound on steps

The bound on steps decides where a run is cut off, and nothing else. A run with the bound `m + d` is a run with the bound
`m` that goes on for `d` steps at most (`Recording.run_add`), so a machine that has stopped by itself within the smaller
bound leaves the same trace under every larger one, and one that was cut off goes on from the entry in front of the one
for its halt (`Trace.build_continues`).

What goes on only adds: entries come behind those that are there (`Recording.entries_prefix_iterate`), and counts of
instructions grow (`Recording.count_le_iterate`).
-/

namespace Y86

namespace Statistics

/-- Counting an instruction adds one to the count of its class. -/
theorem count_add (s : Statistics) (j k : InstructionClass) :
    (s.add j).count k = s.count k + if j = k then 1 else 0 := by
  obtain ⟨counts⟩ := s
  unfold add count
  dsimp only
  induction counts with
  | nil => by_cases hjk : j = k <;> simp [bump, hjk]
  | cons c cs ih =>
    unfold bump
    by_cases hcj : c.1 = j
    · -- the class has a count, and the others are behind it
      subst hcj
      by_cases hck : c.1 = k <;> simp [hck]
    · rw [if_neg hcj]
      -- another class is counted further behind
      by_cases hck : c.1 = k
      · have hjk : j ≠ k := fun e => hcj (hck.trans e.symm)
        simp [hck, hjk]
      · simpa [hck] using ih

end Statistics

namespace Recording

variable {r : Recording}

/-! ### What advancing adds -/

theorem entries_prefix_iterate (r : Recording) (d : Nat) : r.entries.toList <+: (advance^[d] r).entries.toList := by
  induction d with
  | zero => exact List.prefix_refl _
  | succ d ih =>
    rw [Function.iterate_succ_apply', entries_advance, Array.toList_push]
    exact ih.trans (List.prefix_append _ _)

theorem count_le_advance (r : Recording) (k : InstructionClass) :
    r.statistics.count k ≤ r.advance.statistics.count k := by
  unfold advance
  dsimp only
  cases (attempt r.machine).2 with
  | none => exact Nat.le_refl _
  | some op =>
    dsimp only
    rw [Statistics.count_add]
    exact Nat.le_add_right _ _

theorem count_le_iterate (r : Recording) (k : InstructionClass) (d : Nat) :
    r.statistics.count k ≤ (advance^[d] r).statistics.count k := by
  induction d with
  | zero => exact Nat.le_refl _
  | succ d ih =>
    rw [Function.iterate_succ_apply']
    exact Nat.le_trans ih (count_le_advance _ k)

/-- The entry for a halt comes behind all others. -/
theorem entries_prefix_finish (r : Recording) : r.entries.toList <+: r.finish.entries.toList := by
  rw [entries_finish]
  split
  · rw [Array.toList_push]
    exact List.prefix_append _ _
  · exact List.prefix_refl _

/-! ### Going on with a run -/

theorem run_of_stopped (h : r.machine.status ≠ .aok) (d : Nat) : run d r = r := by
  cases d with
  | zero => rfl
  | succ d => exact if_neg h

/-- A larger bound lets a run go on from where a smaller one cuts it off. -/
theorem run_add (m d : Nat) (r : Recording) : run (m + d) r = run d (run m r) := by
  induction m generalizing r with
  | zero => rw [Nat.zero_add]; rfl
  | succ m ih =>
    rw [Nat.succ_add]
    change (if r.machine.status = .aok then run (m + d) r.advance else r)
      = run d (if r.machine.status = .aok then run m r.advance else r)
    split
    case isTrue => exact ih r.advance
    case isFalse hstopped => exact (run_of_stopped hstopped d).symm

/-- A machine that still runs takes at least one more entry, for a step or for its halt. -/
theorem size_lt_finish_run (h : r.machine.status = .aok) (d : Nat) :
    r.entries.size < (run d r).finish.entries.size := by
  cases d with
  | zero =>
    change r.entries.size < r.finish.entries.size
    -- without a step the forced entry is the one more
    rw [entries_finish, if_pos h, Array.size_push]
    exact Nat.lt_succ_self _
  | succ d =>
    -- with a step the entries up to it stay a prefix of what the run leaves
    have hprefix : r.advance.entries.toList <+: (run d r.advance).finish.entries.toList := by
      refine .trans ?_ (entries_prefix_finish _)
      rw [run_eq_iterate]
      exact entries_prefix_iterate _ _
    have hle := hprefix.length_le
    rw [Array.length_toList, Array.length_toList, entries_advance, Array.size_push] at hle
    change r.entries.size < (if r.machine.status = .aok then run d r.advance else r).finish.entries.size
    rw [if_pos h]
    exact hle

end Recording

namespace Trace

variable {p : Program} {m n : Nat}

/-- `u` goes on where the bound `m` has cut `t` off. -/
structure CutOff (t u : Trace) (m : Nat) : Prop where
  /-- The entries of the start and of the first `m` steps are the same. -/
  entries : u.entries.toList.take (m + 1) = t.entries.toList.take (m + 1)
  /-- Behind them there is another one, in `u` as in `t`. -/
  length : m + 2 ≤ u.length
  /-- The last entry of `t` is for a halt, and shows the machine of the entry in front of it. -/
  halted : t.length = m + 2 ∧ ∃ before last, t.entries[m]? = some before ∧ t.entries[m + 1]? = some last ∧
    last.status = .hlt ∧ last.label = none ∧ last.cycle = m + 1 ∧
    last.pc = before.pc ∧ last.registers = before.registers ∧ last.flags = before.flags
  /-- Of no class are there fewer instructions in `u`. -/
  count_le : ∀ k, t.statistics.count k ≤ u.statistics.count k

/-- A machine that stops by itself within a bound leaves the same trace under every larger one. -/
theorem build_of_stopped (h : m ≤ n) (hstopped : (Recording.run m (.start p)).machine.status ≠ .aok) :
    build n p = build m p := by
  obtain ⟨d, rfl⟩ := Nat.exists_eq_add_of_le h
  unfold build
  rw [Recording.run_add, Recording.run_of_stopped hstopped]

/-- With a larger bound no class is counted less often. -/
theorem count_le_build (h : m ≤ n) (k : InstructionClass) :
    (build m p).statistics.count k ≤ (build n p).statistics.count k := by
  obtain ⟨d, rfl⟩ := Nat.exists_eq_add_of_le h
  change (Recording.run m (.start p)).statistics.count k ≤ (Recording.run (m + d) (.start p)).statistics.count k
  rw [Recording.run_add, Recording.run_eq_iterate d]
  exact Recording.count_le_iterate _ k _

section Running

variable (running : (Recording.run m (.start p)).machine.status = .aok)

include running

/-- A run that the bound has cut off has an entry for the start and one for each step that was allowed. -/
theorem size_entries_run : (Recording.run m (.start p)).entries.size = m + 1 := by
  rw [Recording.run_eq_iterate, Recording.size_iterate_advance, attempts_of_running running, Nat.add_comm]
  rfl

/-- These entries are the first ones of its trace, however many steps more are allowed. -/
theorem take_entries_build (h : m ≤ n) :
    (build n p).entries.toList.take (m + 1) = (Recording.run m (.start p)).entries.toList := by
  obtain ⟨d, rfl⟩ := Nat.exists_eq_add_of_le h
  have hprefix : (Recording.run m (.start p)).entries.toList <+: (build (m + d) p).entries.toList := by
    refine .trans ?_ (Recording.entries_prefix_finish _)
    rw [Recording.run_add, Recording.run_eq_iterate d]
    exact Recording.entries_prefix_iterate _ _
  rw [← size_entries_run running, ← Array.length_toList]
  exact (List.prefix_iff_eq_take.1 hprefix).symm

theorem length_build_of_running (h : m ≤ n) : m + 2 ≤ (build n p).length := by
  obtain ⟨d, rfl⟩ := Nat.exists_eq_add_of_le h
  have hlt := Recording.size_lt_finish_run running d
  rw [← Recording.run_add, size_entries_run running] at hlt
  exact hlt

end Running

/-- The last entry of a run that was cut off shows the machine of the entry in front of it, halted. -/
theorem halted_build {blank : Memory} {text : String} (hload : Program.load blank text = .ok p)
    (hblank : blank.touched = []) (running : (Recording.run m (.start p)).machine.status = .aok) :
    (build m p).length = m + 2 ∧ ∃ before last, (build m p).entries[m]? = some before ∧
      (build m p).entries[m + 1]? = some last ∧ last.status = .hlt ∧ last.label = none ∧ last.cycle = m + 1 ∧
      last.pc = before.pc ∧ last.registers = before.registers ∧ last.flags = before.flags := by
  have hattempts := attempts_of_running running
  have hlength := length_of_running hload hblank running
  have hlast := getElem?_build_halted hload hblank running
  rw [hattempts] at hlength hlast
  refine ⟨hlength, ?_⟩
  obtain ⟨before, hbefore⟩ : ∃ before, (build m p).entries[m]? = some before :=
    ⟨_, Array.getElem?_eq_getElem (by change m < (build m p).length; omega)⟩
  -- the entry in front shows the machine with which the run was cut off
  obtain ⟨touched, label, hshows⟩ := (recorded_of_getElem? hbefore).shows (Nat.le_of_eq hattempts.symm)
  have hmachine : (Recording.advance^[m] (.start p)).machine = (Recording.run m (.start p)).machine := by
    rw [Recording.run_eq_iterate, hattempts]
  have hcycle := (Recording.sound_iterate_advance (Program.entry_lt_size hload) m).cycle
  rw [hmachine] at hshows hcycle
  subst hshows
  exact ⟨_, _, hbefore, hlast, rfl, rfl, congrArg (· + 1) hcycle, rfl, rfl, rfl⟩

/-- **A larger bound only extends a trace.** A run that has stopped by itself leaves the same trace under every larger
bound, with the same statistics; one that the bound has cut off goes on under a larger one, from the machine that its
last entry shows halted. -/
theorem build_continues (size : Nat) (hsize : 0 < size) (text : String) {p : Program}
    (hload : Program.load (.zeros size hsize) text = .ok p) {m n : Nat} (h : m ≤ n) :
    ((build m p).limitReached = false → build n p = build m p) ∧
      ((build m p).limitReached = true → (build m p).CutOff (build n p) m) := by
  refine ⟨fun hlimit => ?_, fun hlimit => ?_⟩
  · -- a limit that was not reached means that the machine has stopped
    refine build_of_stopped h fun running => ?_
    rw [limitReached_build_iff.2 running] at hlimit
    cases hlimit
  · have running := limitReached_build_iff.1 hlimit
    exact
      { entries := (take_entries_build running h).trans (take_entries_build running (Nat.le_refl m)).symm
        length := length_build_of_running running h
        halted := halted_build hload rfl running
        count_le := count_le_build h }

/-- A program that halts with its second step, under a bound of one step, of two, and of nine: the entry that the smallest
bound forces takes the place of the one for the executed halt. -/
theorem build_continues_halt_behind_bound :
    ∃ p, Program.load (.zeros 12 (by decide)) "0x00a: 10 00" = .ok p ∧
      (build 1 p).limitReached = true ∧ (build 1 p).CutOff (build 2 p) 1 ∧ (build 2 p).length = 3 ∧
      (build 2 p).limitReached = false ∧ build 9 p = build 2 p := by
  have hvalues : ((Program.load (.zeros 12 (by decide)) "0x00a: 10 00").toOption.map fun p =>
      ((build 1 p).limitReached, (build 2 p).length, (build 2 p).limitReached)) = some (true, 3, false) := by
    decide +kernel
  obtain ⟨p, hp, hvalues⟩ := Option.map_eq_some_iff.1 hvalues
  have hload := eq_ok_of_toOption hp
  simp only [Prod.mk.injEq] at hvalues
  -- two steps are enough for this program and one is not
  obtain ⟨hlimit, hlength, hstopped⟩ := hvalues
  exact ⟨p, hload, hlimit, (build_continues 12 (by decide) _ hload (by decide)).2 hlimit, hlength, hstopped,
    (build_continues 12 (by decide) _ hload (by decide)).1 hstopped⟩

end Trace

end Y86
