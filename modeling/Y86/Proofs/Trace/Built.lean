import Y86.Proofs.Trace.Recording

/-!
# The trace of a program

The trace of a loaded program shows, at every index, what plain execution reaches in as many steps
(`Trace.exists_machineAt?_build`). One entry is not a step: a run that the bound has stopped ends with an entry for the
machine being halted, which shows the same program counter, registers, flags and memory as the entry before it.

The entries are the machine's statuses in order, so only the last one can show a machine that does not run
(`Trace.WellShaped`).
-/

namespace Y86

/-- Every entry but the last one shows a running machine, and the last one is not the first. -/
structure Trace.WellShaped (t : Trace) : Prop where
  /-- There is an entry behind the first. -/
  two_le : 2 ≤ t.length
  /-- The machine runs exactly in front of the last entry. -/
  status_iff : ∀ i e, t.entries[i]? = some e → (e.status = .aok ↔ i + 1 < t.length)

namespace Recording

/-- The first entry shows the machine at the start. -/
theorem machineAt?_start {blank : Memory} (hblank : blank.touched = []) {text : String} {p : Program}
    (h : Program.load blank text = .ok p) :
    TraceEntry.machineAt? (start p).entries.toList blank 0 = some (start p).machine :=
  congrArg some (TraceEntry.replay_ofMachine (m := (start p).machine) (Program.load_tracks hblank h) hblank none 0)

theorem start_agrees (p : Program) : (start p).machine.Agrees (.initial p.memory p.entry) := ⟨rfl, rfl, rfl, rfl⟩

/-- The machine of a recording whose bound was reached, halted. -/
def halted (r : Recording) : Machine := { r.machine with status := .hlt, cycle := r.machine.cycle + 1 }

theorem entries_finish (r : Recording) :
    r.finish.entries = if r.machine.status = .aok then r.entries.push (.ofMachine r.halted []) else r.entries := by
  unfold finish
  split <;> rfl

variable {r : Recording} {blank : Memory} {i k : Nat}

/-- Finishing a recording does not change what its entries show. -/
theorem machineAt?_finish (hi : i < r.entries.size) :
    TraceEntry.machineAt? r.finish.entries.toList blank i = TraceEntry.machineAt? r.entries.toList blank i := by
  rw [entries_finish]
  split
  · rw [Array.toList_push, TraceEntry.machineAt?_append _ hi]
  · rfl

/-- The entry for a halt shows the machine as it was. -/
theorem machineAt?_finish_halted (hblank : blank.touched = []) (hsize : r.entries.size = k + 1)
    (hlast : TraceEntry.machineAt? r.entries.toList blank k = some r.machine) (hrun : r.machine.status = .aok) :
    TraceEntry.machineAt? r.finish.entries.toList blank (k + 1) = some r.halted := by
  -- laying the words of an entry clears the record of changes
  have hclear : r.machine.memory.touched = [] := by
    rw [TraceEntry.memory_of_machineAt? hblank hlast, TraceEntry.touched_layAll, hblank]
  have hcycle : r.machine.cycle = k := by
    obtain ⟨e, -, hm⟩ := TraceEntry.exists_of_machineAt? hlast
    rw [hm]
    rfl
  -- the forced entry has no words of its own, so it shows the memory of the last one
  rw [entries_finish, if_pos hrun, Array.toList_push, TraceEntry.machineAt?_concat hblank hlast hsize]
  refine congrArg some ((TraceEntry.replay_ofMachine_nil r.halted none _).trans ?_)
  change Machine.mk r.halted.pc _ _ _ r.machine.memory.clearTouched (k + 1) = r.halted
  rw [TraceEntry.clearTouched_eq hclear, ← hcycle]
  rfl

end Recording

namespace Trace

variable {blank : Memory} {text : String} {p : Program} {t : Trace} {n i : Nat} {m : Machine}

theorem cycle_of_machineAt? (h : t.machineAt? blank i = some m) : m.cycle = i := by
  obtain ⟨e, -, rfl⟩ := TraceEntry.exists_of_machineAt? h
  rfl

/-- The status of the machine at an index is that of the entry. -/
theorem status_of_machineAt? (h : t.machineAt? blank i = some m) {e : TraceEntry} (he : t.entries[i]? = some e) :
    e.status = m.status := by
  obtain ⟨e', he', rfl⟩ := TraceEntry.exists_of_machineAt? h
  rw [Array.getElem?_toList, he] at he'
  cases he'
  rfl

/-- A text whose trace has a length is one that loads. -/
theorem exists_of_length_build (blank : Memory) (text : String) (n : Nat) {k : Nat}
    (h : ((Program.load blank text).toOption.map fun p => (build n p).length) = some k) :
    ∃ p, Program.load blank text = .ok p ∧ (build n p).length = k := by
  obtain ⟨p, hload, hlength⟩ := Option.map_eq_some_iff.1 h
  exact ⟨p, eq_ok_of_toOption hload, hlength⟩

section Build

variable (h : Program.load blank text = .ok p) (hblank : blank.touched = [])

include h hblank

/-- The recording of a program after its last step: how many entries it has, and what they show. -/
theorem run_start (n : Nat) :
    (Recording.run n (.start p)).entries.size = Recording.attempts n (.start p) + 1 ∧
      ∀ i ≤ Recording.attempts n (.start p),
        TraceEntry.machineAt? (Recording.run n (.start p)).entries.toList blank i
          = some (Recording.advance^[i] (.start p)).machine := by
  rw [Recording.run_eq_iterate]
  constructor
  · exact (Recording.size_iterate_advance _ _).trans (Nat.add_comm 1 _)
  · exact Recording.machineAt?_iterate_advance hblank (Recording.machineAt?_start hblank h) rfl _

/-- A trace has an entry for the start, one for each step, and one more if the bound has stopped the run. -/
theorem length_build (n : Nat) :
    (build n p).length = Recording.attempts n (.start p) + 1
      + if (Recording.run n (.start p)).machine.status = .aok then 1 else 0 := by
  change (Recording.run n (.start p)).finish.entries.size = _
  rw [Recording.entries_finish, ← (run_start h hblank n).1]
  split
  · exact Array.size_push _
  · rfl

/-- Up to the last step, a trace shows the machine of the recording. -/
theorem machineAt?_build (hi : i ≤ Recording.attempts n (.start p)) :
    (build n p).machineAt? blank i = some (Recording.advance^[i] (.start p)).machine := by
  obtain ⟨hsize, hshown⟩ := run_start h hblank n
  rw [← hshown i hi]
  exact Recording.machineAt?_finish (by omega)

/-- Behind the last step, a trace shows the machine being halted. -/
theorem machineAt?_build_halted (hrun : (Recording.run n (.start p)).machine.status = .aok) :
    (build n p).machineAt? blank (Recording.attempts n (.start p) + 1)
      = some (Recording.run n (.start p)).halted := by
  obtain ⟨hsize, hshown⟩ := run_start h hblank n
  refine Recording.machineAt?_finish_halted hblank hsize ?_ hrun
  rw [hshown _ (Nat.le_refl _), ← Recording.run_eq_iterate]

/-- **A trace shows an execution.** At every index it shows the machine of the recording after as many steps, which
plain execution cannot tell apart from its own; the machine runs exactly in front of the last entry. -/
theorem exists_machineAt?_build (hi : i < (build n p).length) :
    ∃ m, (build n p).machineAt? blank i = some m ∧
      m.Agrees (Recording.advance^[min i (Recording.attempts n (.start p))] (.start p)).machine ∧
      (m.status = .aok ↔ i + 1 < (build n p).length) := by
  have hlength := length_build h hblank n
  by_cases hle : i ≤ Recording.attempts n (.start p)
  · refine ⟨_, machineAt?_build h hblank hle, ?_, ?_⟩
    · rw [Nat.min_eq_left hle]
      exact .refl _
    · by_cases hlt : i < Recording.attempts n (.start p)
      · exact iff_of_true (Recording.status_of_lt_attempts hlt) (by omega)
      · -- the last step: what comes behind it depends on whether the machine has stopped
        obtain rfl : i = Recording.attempts n (.start p) := by omega
        rw [← Recording.run_eq_iterate]
        split at hlength
        case isTrue hrun => exact iff_of_true hrun (by omega)
        case isFalse hstop => exact iff_of_false hstop (by omega)
  · -- only a run that the bound has stopped has an entry behind its last step
    split at hlength
    case isTrue hrun =>
      obtain rfl : i = Recording.attempts n (.start p) + 1 := by omega
      refine ⟨_, machineAt?_build_halted h hblank hrun, ?_, iff_of_false (fun e => nomatch e) (by omega)⟩
      rw [Nat.min_eq_right (Nat.le_succ _), ← Recording.run_eq_iterate]
      exact ⟨rfl, rfl, rfl, rfl⟩
    case isFalse => omega

/-- The trace of a run of at least one step has two entries at least, and all but the last are of a machine that runs. -/
theorem wellShaped_build (hn : 0 < n) : (build n p).WellShaped where
  two_le := by
    obtain ⟨k, rfl⟩ : ∃ k, n = k + 1 := ⟨n - 1, by omega⟩
    -- the machine runs at the start, so there is a step
    have hattempts : 1 ≤ Recording.attempts (k + 1) (.start p) := Nat.le_add_left 1 _
    have hlength := length_build h hblank (k + 1)
    omega
  status_iff := by
    intro i e he
    have hi : i < (build n p).length := (Array.getElem?_eq_some_iff.1 he).1
    obtain ⟨m, hm, -, hstatus⟩ := exists_machineAt?_build h hblank hi
    rw [status_of_machineAt? hm he]
    exact hstatus

end Build

end Trace

end Y86
