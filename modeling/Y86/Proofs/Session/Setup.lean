import Y86.Proofs.Session.Replay
import Y86.Session.Setup

/-!
# The session that settings describe

Positive settings describe a session, unless its memory is too large to be allocated (`Settings.session_eq`). The stack
pointer of its machine is at the end of memory, and whatever is done with it, no trace exceeds what the bound on steps allows
(`Settings.setsUp`).
-/

namespace Y86.Settings

/-- What is set up, of settings that are positive. -/
theorem session_eq {s : Settings} (hsize : 0 < s.memorySize) (hsteps : 0 < s.maxSteps) :
    s.session = if h : s.memorySize < Memory.sizeBound then .ok (.start ⟨s.memorySize, s.maxSteps, hsize, h, hsteps⟩)
      else .error (.memorySize .tooLarge) := by
  unfold session limits Limits.make
  rw [dif_pos (show 0 < (s.maxSteps : Int).toNat from hsteps)]
  by_cases h : s.memorySize < Memory.sizeBound
  · -- the size is checked from below before it is checked from above
    have hcheck : Memory.checkSize s.memorySize = .ok ⟨s.memorySize, hsize, h⟩ := by
      unfold Memory.checkSize
      exact (dif_pos hsize).trans (dif_pos h)
    rw [dif_pos h, hcheck]
    rfl
  · have hcheck : Memory.checkSize s.memorySize = .error .tooLarge := by
      unfold Memory.checkSize
      exact (dif_pos hsize).trans (dif_neg h)
    rw [dif_neg h, hcheck]
    rfl

/-- What holds of the session that settings describe. -/
structure SetsUp (s : Settings) : Prop where
  /-- **Refusal.** Nothing can fail but to allocate a memory that is too large. -/
  refused : ∀ e, s.session = .error e ↔ e = .memorySize .tooLarge ∧ Memory.sizeBound ≤ s.memorySize
  /-- **Machine.** The stack pointer is at the end of a memory of the given size. -/
  machine : ∀ session, s.session = .ok session →
    session.machine.memory.size = s.memorySize ∧ session.machine.rsp = s.memorySize
  /-- **Traces.** Whatever is done with it, its traces have no more entries than the bound on steps allows. -/
  trace : ∀ session cs p, s.session = .ok session → (session.afterAll cs).playback = some p →
    p.trace.length ≤ s.maxSteps + 2

/-- Positive settings set up a session, unless the memory they ask for is too large to be allocated. -/
theorem setsUp {s : Settings} (hsize : 0 < s.memorySize) (hsteps : 0 < s.maxSteps) : s.SetsUp where
  refused e := by
    rw [session_eq hsize hsteps]
    by_cases h : s.memorySize < Memory.sizeBound
    · rw [dif_pos h]
      exact ⟨nofun, fun he => absurd he.2 (Nat.not_le.2 h)⟩
    · rw [dif_neg h]
      exact ⟨fun he => ⟨(Except.error.inj he).symm, Nat.not_lt.1 h⟩, fun he => congrArg Except.error he.1.symm⟩
  machine session hsession := by
    rw [session_eq hsize hsteps] at hsession
    split at hsession
    case isTrue h =>
      cases hsession
      have hmemory : (Memory.zeros s.memorySize hsize).size = s.memorySize := Memory.size_zeros s.memorySize hsize
      refine ⟨hmemory, (RegisterFile.get_set_self _ _ _).trans ?_⟩
      -- the size is a word, so that the register holds it
      have hinRange : Word.InRange s.memorySize := by
        unfold Memory.sizeBound at h
        exact ⟨by omega, by omega⟩
      rw [← Word.signed_of_inRange hinRange]
      exact congrArg (fun size : Nat => Word.signed size) hmemory
    case isFalse => cases hsession
  trace session cs p hsession hp := by
    rw [session_eq hsize hsteps] at hsession
    split at hsession
    case isTrue h =>
      cases hsession
      obtain ⟨text, program, -, hload, hbuild⟩ := Session.exists_build _ cs hp
      have hlength := Trace.length_build hload rfl s.maxSteps
      have hle := Recording.attempts_le s.maxSteps (.start program)
      rw [hbuild]
      change (Trace.build s.maxSteps program).length ≤ s.maxSteps + 2
      split at hlength <;> omega
    case isFalse => cases hsession

end Y86.Settings
