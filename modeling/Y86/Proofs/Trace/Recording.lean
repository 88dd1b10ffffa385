import Mathlib.Logic.Function.Iterate
import Y86.Proofs.Machine.Effect
import Y86.Proofs.Machine.Step
import Y86.Proofs.ObjectCode.Program
import Y86.Proofs.Trace.Shown
import Y86.Trace.Build

/-!
# What a recording takes down

A recording advances until the machine stops or the bound is reached, so after a bounded run it has advanced
`Recording.attempts` times (`Recording.run_eq_iterate`). Two invariants hold after every advance, also after one whose
step fails:

* its machine is the one that plain execution reaches in as many steps (`Recording.iterate_advance_agrees`);
* its entries show, at each index, the machine that it had after as many advances
  (`Recording.machineAt?_iterate_advance`). This needs that a step changes memory only where it records so.
-/

namespace Y86

namespace Recording

/-! ### One advance -/

theorem attempt_agrees (m : Machine) : (attempt m).1.Agrees m.stepped := by
  unfold attempt Machine.stepped
  cases m.step with
  | ok x => exact .refl _
  | error failure => exact ⟨rfl, rfl, rfl, rfl⟩

/-- An attempted step stores at most one word, whether it succeeds or not. -/
theorem attempt_stores (m : Machine) : m.Stores (attempt m).1 := by
  have hstores := m.step_stores
  unfold attempt
  cases hstep : m.step with
  | ok x => rw [hstep] at hstores; exact hstores
  | error failure => rw [hstep] at hstores; exact Or.inl hstores

/-- An attempted step records what it changes. -/
theorem attempt_tracks {m : Machine} (h : m.memory.touched = []) : (attempt m).1.memory.Tracks m.memory := by
  rcases attempt_stores m with hsame | ⟨address, value, hquad⟩
  · rw [hsame]
    exact .refl h
  · exact (Memory.Tracks.refl h).writeQuad hquad

theorem advance_agrees (r : Recording) : r.advance.machine.Agrees r.machine.stepped :=
  have h := attempt_agrees r.machine
  ⟨h.pc, h.registers, h.flags, h.bytes⟩

/-- A recording shows the machine that the attempts alone lead to. -/
theorem iterate_advance_agrees (r : Recording) {m : Machine} (h : r.machine.Agrees m) (k : Nat) :
    (advance^[k] r).machine.Agrees (Machine.stepped^[k] m) := by
  induction k with
  | zero => exact h
  | succ k ih =>
    rw [Function.iterate_succ_apply', Function.iterate_succ_apply']
    exact (advance_agrees _).trans (Machine.stepped_agrees ih)

/-- The machine after one more step, with its record of the words that the step has written. -/
def next (r : Recording) : Machine := { (attempt r.machine).1 with cycle := r.machine.cycle + 1 }

/-- The entry for one more step. -/
def nextEntry (r : Recording) : TraceEntry :=
  .ofMachine r.next r.next.memory.touched ((attempt r.machine).2.map Operation.text)

theorem entries_advance (r : Recording) : r.advance.entries = r.entries.push r.nextEntry := rfl

/-- The entry that an advance takes down, replayed over the memory before it, is the machine after it. -/
theorem replay_nextEntry {r : Recording} (h : r.machine.memory.touched = []) :
    r.nextEntry.replay r.machine.memory (r.machine.cycle + 1) = r.advance.machine :=
  TraceEntry.replay_ofMachine (m := r.next) (attempt_tracks h) h _ _

/-! ### Many advances -/

theorem size_iterate_advance (r : Recording) (k : Nat) : (advance^[k] r).entries.size = r.entries.size + k := by
  induction k with
  | zero => rfl
  | succ k ih => rw [Function.iterate_succ_apply', entries_advance, Array.size_push, ih, Nat.add_assoc]

/-- The entries of a recording show, at each index, the machine after as many advances. -/
theorem machineAt?_iterate_advance {r : Recording} {blank : Memory} (hblank : blank.touched = [])
    (hstart : TraceEntry.machineAt? r.entries.toList blank 0 = some r.machine) (hlen : r.entries.size = 1) (k : Nat) :
    ∀ i ≤ k, TraceEntry.machineAt? (advance^[k] r).entries.toList blank i = some (advance^[i] r).machine := by
  induction k with
  | zero =>
    intro i hi
    obtain rfl := Nat.le_zero.1 hi
    exact hstart
  | succ k ih =>
    -- the machine was shown last, so it has nothing recorded and its cycle is `k`
    have hlast := ih k (Nat.le_refl k)
    obtain ⟨last, -, hm⟩ := TraceEntry.exists_of_machineAt? hlast
    have hclear : (advance^[k] r).machine.memory.touched = [] := by
      rw [TraceEntry.memory_of_machineAt? hblank hlast, TraceEntry.touched_layAll, hblank]
    have hcycle : (advance^[k] r).machine.cycle = k := by rw [hm]; rfl
    have hreplay := replay_nextEntry hclear
    rw [hcycle] at hreplay
    have hlength : (advance^[k] r).entries.toList.length = k + 1 := by
      rw [Array.length_toList, size_iterate_advance, hlen, Nat.add_comm]
    intro i hi
    rw [Function.iterate_succ_apply' advance k, entries_advance, Array.toList_push]
    by_cases hik : i ≤ k
    · -- a new entry does not change what is shown before it
      rw [TraceEntry.machineAt?_append _ (by omega), ih i hik]
    · obtain rfl : i = k + 1 := by omega
      rw [TraceEntry.machineAt?_concat hblank hlast hlength, Function.iterate_succ_apply', ← hreplay]
      rfl

/-! ### A bounded run -/

/-- The number of steps that a recording attempts, of at most a number. -/
def attempts : Nat → Recording → Nat
  | 0, _ => 0
  | steps + 1, r => if r.machine.status = .aok then attempts steps r.advance + 1 else 0

theorem attempts_le (n : Nat) (r : Recording) : attempts n r ≤ n := by
  induction n generalizing r with
  | zero => exact Nat.le_refl 0
  | succ n ih =>
    unfold attempts
    split
    · exact Nat.succ_le_succ (ih r.advance)
    · exact Nat.zero_le _

/-- A run makes its attempts one after another. -/
theorem run_eq_iterate (n : Nat) (r : Recording) : run n r = advance^[attempts n r] r := by
  induction n generalizing r with
  | zero => rfl
  | succ n ih =>
    unfold run attempts
    split
    · rw [ih, Function.iterate_succ_apply]
    · rfl

/-- A smaller bound only cuts the run short. -/
theorem attempts_of_le {k n : Nat} (h : k ≤ n) (r : Recording) : attempts k r = min k (attempts n r) := by
  induction n generalizing k r with
  | zero =>
    obtain rfl := Nat.le_zero.1 h
    rfl
  | succ n ih =>
    cases k with
    | zero => rw [Nat.zero_min]; rfl
    | succ k =>
      unfold attempts
      -- a machine that has stopped is not attempted again, however many steps are left
      split
      · rw [ih (Nat.le_of_succ_le_succ h), Nat.succ_min_succ]
      · rw [Nat.min_zero]

/-- In front of every step that is attempted, the machine runs. -/
theorem status_of_lt_attempts {n k : Nat} {r : Recording} (h : k < attempts n r) :
    (advance^[k] r).machine.status = .aok := by
  induction n generalizing k r with
  | zero => exact absurd h (Nat.not_lt_zero k)
  | succ n ih =>
    unfold attempts at h
    split at h
    case isTrue hr =>
      cases k with
      | zero => exact hr
      | succ k => rw [Function.iterate_succ_apply]; exact ih (by omega)
    case isFalse => exact absurd h (Nat.not_lt_zero k)

/-- A run that ends in front of its bound ends with a machine that has stopped. -/
theorem status_of_attempts_lt {n : Nat} {r : Recording} (h : attempts n r < n) :
    (run n r).machine.status ≠ .aok := by
  induction n generalizing r with
  | zero => exact absurd h (Nat.not_lt_zero _)
  | succ n ih =>
    unfold attempts at h
    unfold run
    split
    case isTrue hr => rw [if_pos hr] at h; exact ih (by omega)
    case isFalse hr => exact hr

end Recording

end Y86
