import Y86.Proofs.Memory.Delta

/-!
# Stores between two looks at the record

A sequence of stores is cut into segments: at each cut the record of touched words is taken and cleared. Stores may be
of one byte or of eight, at any alignment, and they may fail, which leaves memory as it is.

Each segment starts with an empty record, so at its end the record tells the whole of it (`tracks_final`), and
nothing but the segment (`exists_store_of_mem_final`).
-/

namespace Y86

namespace Memory

/-- A store that is asked for. -/
inductive Store where
  | byte (address value : Int)
  | quad (address value : Int)
  deriving DecidableEq, Repr

namespace Store

def run (m : Memory) : Store → Except Fault Memory
  | byte address value => m.write address value
  | quad address value => m.writeQuad address value

/-- The address of the first byte. -/
def address : Store → Int
  | byte address _ => address
  | quad address _ => address

def width : Store → Nat
  | byte .. => 1
  | quad .. => wordSize

/-- One of the bytes lies in the word from `base` on. -/
def Meets (s : Store) (base : Nat) : Prop :=
  ∃ i < s.width, (base : Int) ≤ s.address + i ∧ s.address + i < base + wordSize

end Store

/-- Memory after a store was asked for; a store that fails leaves it as it is. -/
def after (m : Memory) (s : Store) : Memory :=
  match s.run m with
  | .ok next => next
  | .error _ => m

/-- Memory after a sequence of stores. -/
def afterAll (m : Memory) (ss : List Store) : Memory := ss.foldl after m

/-- The stores between two cuts, with the memory at the first one. -/
structure Segment where
  /-- The memory at the start, with nothing recorded. -/
  start : Memory
  stores : List Store

/-- The memory at the end of a segment, before its record is cleared. -/
def Segment.final (g : Segment) : Memory := g.start.afterAll g.stores

/-- The segments of a sequence of stores with cuts. -/
def segments (m : Memory) : List (List Store) → List Segment
  | [] => []
  | stores :: cuts => ⟨m, stores⟩ :: (m.afterAll stores).clearTouched.segments cuts

/-! ### One store -/

theorem after_of_ok {m next : Memory} {s : Store} (h : s.run m = .ok next) : m.after s = next := by
  unfold after
  rw [h]

/-- A store either succeeds or leaves memory as it is. -/
theorem after_cases (m : Memory) (s : Store) : s.run m = .ok (m.after s) ∨ m.after s = m := by
  cases h : s.run m with
  | ok next => exact Or.inl (congrArg Except.ok (after_of_ok h).symm)
  | error e => exact Or.inr (by unfold after; rw [h])

theorem Tracks.run {start now next : Memory} (h : now.Tracks start) {s : Store} (hs : s.run now = .ok next) :
    next.Tracks start := by
  cases s with
  | byte address value => exact h.write hs
  | quad address value => exact h.writeQuad hs

theorem Tracks.after {start now : Memory} (h : now.Tracks start) (s : Store) : (now.after s).Tracks start := by
  rcases now.after_cases s with hok | hsame
  · exact h.run hok
  · rwa [hsame]

theorem Store.width_pos (s : Store) : 0 < s.width := by
  cases s with
  | byte address value => exact Nat.one_pos
  | quad address value => exact Nat.zero_lt_succ 7

/-- The words that the bytes of a store meet are those that it meets. -/
theorem Store.meets_of_mem_wordsMet {s : Store} (h : 0 ≤ s.address) {b : Nat}
    (hb : b ∈ wordsMet s.address.toNat s.width) : s.Meets b := by
  obtain ⟨i, hi, hlo, hhi⟩ := exists_byte_of_mem_wordsMet s.width_pos hb
  exact ⟨i, hi, by omega, by omega⟩

/-- What a successful store adds to the record it has met. -/
theorem Store.meets_of_mem_touched {m next : Memory} {s : Store} (h : s.run m = .ok next) {b : Nat}
    (hb : b ∈ next.touched) : s.Meets b ∨ b ∈ m.touched := by
  cases s with
  | byte address value =>
    obtain ⟨hrange, -, rfl⟩ := write_eq_ok_iff.1 h
    exact (mem_touched_touch.1 hb).imp_left (meets_of_mem_wordsMet (s := .byte address value) hrange.1)
  | quad address value =>
    obtain ⟨hrange, rfl⟩ := writeQuad_eq_ok_iff.1 h
    exact (mem_touched_touch.1 hb).imp_left (meets_of_mem_wordsMet (s := .quad address value) hrange.1)

/-! ### A sequence of stores -/

/-- Stores keep the record of the words they meet. -/
theorem Tracks.afterAll {start now : Memory} (h : now.Tracks start) (ss : List Store) :
    (now.afterAll ss).Tracks start := by
  unfold Memory.afterAll
  induction ss generalizing now with
  | nil => exact h
  | cons s ss ih => exact ih (h.after s)

/-- A word that is in the record at the end was there at the start, or a successful store has met it. -/
theorem exists_store_of_mem_touched {m : Memory} {ss : List Store} {b : Nat} (hb : b ∈ (m.afterAll ss).touched) :
    b ∈ m.touched ∨ ∃ before s behind, ss = before ++ s :: behind ∧
      (∃ next, s.run (m.afterAll before) = .ok next) ∧ s.Meets b := by
  -- the first store is split off, so the induction is over any memory to begin with
  unfold afterAll at *
  induction ss generalizing m with
  | nil => exact Or.inl hb
  | cons s ss ih =>
    rcases ih hb with hafter | ⟨before, t, behind, rfl, hrun, hmeets⟩
    · -- the word was recorded by `s` itself, or in front of it
      rcases m.after_cases s with hok | hsame
      · rcases s.meets_of_mem_touched hok hafter with hmeets | hold
        · exact Or.inr ⟨[], s, ss, rfl, ⟨_, hok⟩, hmeets⟩
        · exact Or.inl hold
      · rw [hsame] at hafter
        exact Or.inl hafter
    · exact Or.inr ⟨s :: before, t, behind, rfl, hrun, hmeets⟩

/-! ### Segments -/

/-- Each segment starts with an empty record, and with a memory of the same size. -/
theorem start_of_mem_segments {m : Memory} (hm : m.touched = []) {cuts : List (List Store)} {g : Segment}
    (hg : g ∈ m.segments cuts) : g.start.touched = [] ∧ g.start.size = m.size := by
  induction cuts generalizing m with
  | nil => cases hg
  | cons stores cuts ih =>
    rcases List.mem_cons.1 hg with rfl | hg
    · exact ⟨hm, rfl⟩
    · -- the cut clears the record, and the stores in front of it keep the size
      obtain ⟨htouched, hsize⟩ := ih rfl hg
      exact ⟨htouched, hsize.trans ((Tracks.refl hm).afterAll stores).size_eq⟩

/-- At the end of a segment the record tells the whole of it. -/
theorem tracks_final {m : Memory} (hm : m.touched = []) {cuts : List (List Store)} {g : Segment}
    (hg : g ∈ m.segments cuts) : g.final.Tracks g.start :=
  (Tracks.refl (start_of_mem_segments hm hg).1).afterAll g.stores

/-- What the record of a segment names has been met by one of its stores that succeeded. -/
theorem exists_store_of_mem_final {m : Memory} (hm : m.touched = []) {cuts : List (List Store)} {g : Segment}
    (hg : g ∈ m.segments cuts) {b : Nat} (hb : b ∈ g.final.touched) :
    ∃ before s behind, g.stores = before ++ s :: behind ∧
      (∃ next, s.run (g.start.afterAll before) = .ok next) ∧ s.Meets b := by
  rcases exists_store_of_mem_touched hb with hold | hstore
  · rw [(start_of_mem_segments hm hg).1] at hold
    cases hold
  · exact hstore

end Memory

end Y86
