import Y86.Proofs.Memory.Segment
import Y86.Proofs.Trace.Built

/-!
# Recorded words rebuild memory

The record of touched words, the word that is read at an aligned address, and the laying of words over a memory agree
on where words begin and on how the end of memory cuts the last one. So the words that were recorded between two looks
at the record carry a memory from the first look to the second (`recorded_words_rebuild`), for any stores in between,
and the words of the entries of a trace carry a blank memory to that of any of its entries.
-/

namespace Y86

namespace Trace

/-- The memory that the entries up to an index give is the one that was recorded there. -/
theorem bytes_memoryAt_build {blank : Memory} (hblank : blank.touched = []) {text : String} {p : Program}
    (h : Program.load blank text = .ok p) {n i : Nat} (hi : i < (build n p).length) :
    ((build n p).memoryAt blank i).bytes = (Recording.run (min i n) (.start p)).machine.memory.bytes := by
  obtain ⟨m, hm, hagrees, -⟩ := exists_machineAt?_build h hblank hi
  have hle := Recording.attempts_le n (.start p)
  have hattempts : Recording.attempts (min i n) (.start p) = min i (Recording.attempts n (.start p)) := by
    rw [Recording.attempts_of_le (Nat.min_le_right i n), Nat.min_assoc, Nat.min_eq_right hle]
  rw [Recording.run_eq_iterate, hattempts, ← hagrees.bytes, TraceEntry.memory_of_machineAt? hblank hm]
  rfl

end Trace

/-- **Recorded words are sound and complete.** For any memory and any stores, cut anywhere into segments: the words
that a segment recorded, read at its end and laid over its start in any order, give its end; each of them is aligned,
begins inside memory and holds a byte of a store of the segment that succeeded; and outside of them nothing has
changed. So the words of the first entries of a trace, laid over zeros, give the memory of the recording after as many
steps, and those of the first entry alone the loaded image. -/
theorem recorded_words_rebuild :
    (∀ (m : Memory) (cuts : List (List Memory.Store)), ∀ g ∈ m.clearTouched.segments cuts,
      (∀ bases : List Nat, bases.Perm g.final.touched →
        (g.start.applyWords (bases.map fun b : Nat => ((b : Int), (g.final.wordAt b : Int)))).bytes = g.final.bytes) ∧
      (∀ b ∈ g.final.touched, b % 8 = 0 ∧ b < m.size ∧
        ∃ before s behind, g.stores = before ++ s :: behind ∧
          (∃ next, s.run (g.start.afterAll before) = .ok next) ∧ s.Meets b) ∧
      ∀ j, (∀ b ∈ g.final.touched, ¬(b ≤ j ∧ j < b + 8)) → g.final.byteAt j = g.start.byteAt j) ∧
    ∀ (size : Nat) (hsize : 0 < size) (text : String) (p : Program), Program.load (.zeros size hsize) text = .ok p →
      ∀ n, ((Trace.build n p).memoryAt (.zeros size hsize) 0).bytes = p.memory.bytes ∧
        ∀ i < (Trace.build n p).length, ((Trace.build n p).memoryAt (.zeros size hsize) i).bytes
          = (Recording.run (min i n) (.start p)).machine.memory.bytes := by
  refine ⟨fun m cuts g hg => ?_, fun size hsize text p hload n => ?_⟩
  · -- a segment begins with a clear record, so the record tracks its stores
    have htracks := Memory.tracks_final rfl hg
    have hsize : g.final.size = m.size := htracks.size_eq.trans (Memory.start_of_mem_segments rfl hg).2
    refine ⟨fun bases hperm => htracks.rebuild fun b => hperm.mem_iff, fun b hb => ?_, fun j hj => ?_⟩
    · obtain ⟨hmod, hlt⟩ := htracks.aligned b hb
      exact ⟨hmod, hsize ▸ hlt, Memory.exists_store_of_mem_final rfl hg hb⟩
    · exact htracks.unchanged hj
  · have hbuild : ∀ i < (Trace.build n p).length, _ := fun i hi => Trace.bytes_memoryAt_build rfl hload hi
    refine ⟨?_, hbuild⟩
    have hpos : 0 < (Trace.build n p).length := by
      rw [Trace.length_build hload rfl]
      omega
    rw [hbuild 0 hpos, Nat.zero_min]
    rfl

/-- A store across two words, the second of them cut by the end of memory, one that runs over the end, and one more
byte; and a program of two instructions, of which the second halts. -/
theorem recorded_words_rebuild_cut_word :
    let zeros := Memory.zeros 12 (by decide)
    let g : Memory.Segment := ⟨zeros.clearTouched, [.quad 3 (-1), .quad 5 1, .byte 11 7]⟩
    (g ∈ zeros.clearTouched.segments [g.stores, [.byte 2 300]] ∧ [8, 0].Perm g.final.touched ∧
      (g.start.applyWords ([8, 0].map fun b : Nat => ((b : Int), (g.final.wordAt b : Int)))).bytes = g.final.bytes) ∧
    ∃ p, Program.load zeros "0x002: 10 00" = .ok p ∧ (Trace.build 5 p).length = 3 ∧
      ((Trace.build 5 p).memoryAt zeros 2).bytes = (Recording.run 2 (.start p)).machine.memory.bytes := by
  intro zeros g
  -- two stores overlap, the last byte is in a word that the end of memory cuts, and the store behind the cut fails
  have hg : g ∈ zeros.clearTouched.segments [g.stores, [.byte 2 300]] := List.mem_cons_self
  have hperm : [8, 0].Perm g.final.touched := by decide +kernel
  obtain ⟨p, hload, hlength⟩ := Trace.exists_of_length_build zeros "0x002: 10 00" 5 (k := 3) (by decide +kernel)
  refine ⟨⟨hg, hperm, (recorded_words_rebuild.1 _ _ g hg).1 _ hperm⟩, p, hload, hlength, ?_⟩
  exact (recorded_words_rebuild.2 12 (by decide) _ p hload 5).2 2 (by rw [hlength]; decide)

end Y86
