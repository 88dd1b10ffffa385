import Y86.Proofs.Machine.Registers
import Y86.Proofs.Memory.Delta
import Y86.Trace.Replay

/-!
# The machines that a trace shows

A trace holds of memory only what changed between its entries. Laid over a blank memory one after the other, the
entries up to an index give the whole memory there (`Trace.memoryAt`), and with the rest of the entry the whole machine
(`Trace.machineAt?`). Nothing is executed for it.

* `machineAt?_succ` moves on by one entry: this is what a replay does.
* `replay_ofMachine` is the converse of writing an entry down: replayed over the memory of which the machine recorded
  its changes, the entry gives the machine back.
-/

namespace Y86

namespace TraceEntry

/-- Lays the words of an entry over a memory. -/
def lay (e : TraceEntry) (memory : Memory) : Memory :=
  memory.applyWords (e.words.map fun (w : Nat × Nat) => (w.1, w.2))

/-- The memory that entries give, laid over a blank one in their order. -/
def layAll (blank : Memory) (es : List TraceEntry) : Memory := es.foldl (fun memory e => e.lay memory) blank

/-- The machine that a list of entries shows at an index, if there is an entry. -/
def machineAt? (es : List TraceEntry) (blank : Memory) (i : Nat) : Option Machine :=
  es[i]?.map fun e => e.replay (layAll blank (es.take i)) i

end TraceEntry

namespace Trace

/-- The memory that the entries `0, …, i` give, laid over a blank one in their order. -/
def memoryAt (t : Trace) (blank : Memory) (i : Nat) : Memory :=
  TraceEntry.layAll blank (t.entries.toList.take (i + 1))

/-- The machine that a trace shows at an index, if there is an entry. -/
def machineAt? (t : Trace) (blank : Memory) (i : Nat) : Option Machine :=
  TraceEntry.machineAt? t.entries.toList blank i

end Trace

namespace TraceEntry

/-! ### Memory -/

@[simp] theorem size_lay (e : TraceEntry) (memory : Memory) : (e.lay memory).size = memory.size :=
  Memory.size_applyWords _ _

@[simp] theorem touched_lay (e : TraceEntry) (memory : Memory) : (e.lay memory).touched = memory.touched :=
  Memory.touched_applyWords _ _

theorem layAll_append (blank : Memory) (es fs : List TraceEntry) :
    layAll blank (es ++ fs) = layAll (layAll blank es) fs := List.foldl_append

@[simp] theorem touched_layAll (blank : Memory) (es : List TraceEntry) :
    (layAll blank es).touched = blank.touched := by
  unfold layAll
  induction es generalizing blank with
  | nil => rfl
  | cons e es ih => rw [List.foldl_cons, ih, touched_lay]

/-- A memory whose record is clear is not changed by clearing it. -/
theorem clearTouched_eq {m : Memory} (h : m.touched = []) : m.clearTouched = m := by
  cases m
  cases h
  rfl

theorem replay_memory (e : TraceEntry) {memory : Memory} (h : memory.touched = []) (cycle : Int) :
    (e.replay memory cycle).memory = e.lay memory := by
  change e.lay memory.clearTouched = e.lay memory
  rw [clearTouched_eq h]

/-! ### The machine at an index -/

variable {blank : Memory} {es : List TraceEntry} {i : Nat} {m : Machine}

theorem exists_of_machineAt? (h : machineAt? es blank i = some m) :
    ∃ e, es[i]? = some e ∧ m = e.replay (layAll blank (es.take i)) i := by
  obtain ⟨e, he, hm⟩ := Option.map_eq_some_iff.1 h
  exact ⟨e, he, hm.symm⟩

/-- The memory of the machine at an index is that of all entries up to it. -/
theorem memory_of_machineAt? (hblank : blank.touched = []) (h : machineAt? es blank i = some m) :
    m.memory = layAll blank (es.take (i + 1)) := by
  obtain ⟨e, he, rfl⟩ := exists_of_machineAt? h
  rw [replay_memory e (by rw [touched_layAll, hblank]), List.take_add_one, he, layAll_append]
  rfl

/-- Moving on by one entry. -/
theorem machineAt?_succ (hblank : blank.touched = []) (h : machineAt? es blank i = some m) {e : TraceEntry}
    (he : es[i + 1]? = some e) : machineAt? es blank (i + 1) = some (e.replay m.memory (i + 1 : Nat)) := by
  rw [machineAt?, he, memory_of_machineAt? hblank h]
  rfl

/-- More entries do not change what is shown at an index that was there before. -/
theorem machineAt?_append (fs : List TraceEntry) (h : i < es.length) :
    machineAt? (es ++ fs) blank i = machineAt? es blank i := by
  unfold machineAt?
  rw [List.getElem?_append_left h, List.take_append_of_le_length (Nat.le_of_lt h)]

/-- A new entry is replayed over the machine that was shown last. -/
theorem machineAt?_concat (hblank : blank.touched = []) (hlast : machineAt? es blank i = some m)
    (hlen : es.length = i + 1) (e : TraceEntry) :
    machineAt? (es ++ [e]) blank (i + 1) = some (e.replay m.memory (i + 1 : Nat)) := by
  refine machineAt?_succ hblank ?_ (by rw [← hlen, List.getElem?_append_right (Nat.le_refl _), Nat.sub_self]; rfl)
  rwa [machineAt?_append [e] (by omega)]

/-! ### Writing an entry down and replaying it -/

/-- Replayed over the memory of which `m` recorded its changes, the entry of `m` gives `m` back. -/
theorem replay_ofMachine {m : Machine} {touched : List Nat} {before : Memory}
    (h : Memory.Tracks { m.memory with touched } before) (hbefore : before.touched = []) (label : Option String)
    (cycle : Int) : (ofMachine m touched label).replay before cycle = { m.copy with cycle } := by
  have hbytes : ((ofMachine m touched label).lay before).bytes = m.memory.bytes := by
    unfold lay ofMachine wordsOf
    rw [List.map_map]
    -- words that begin outside memory are left out, but none of them is recorded
    refine h.rebuild fun b => ?_
    rw [List.mem_filter, Memory.mem_sortWords, decide_eq_true_eq]
    exact ⟨fun hb => hb.1, fun hb => ⟨hb, (h.aligned b hb).2⟩⟩
  -- memories with the same bytes differ in their records only, and both are clear
  have hmemory : ((ofMachine m touched label).replay before cycle).memory = m.memory.clearTouched := by
    rw [replay_memory _ hbefore, Memory.eq_of_bytes hbytes, touched_lay, hbefore]
    rfl
  change Machine.mk m.pc m.status (.ofList m.registers.toList) m.flags
    ((ofMachine m touched label).replay before cycle).memory cycle = { m.copy with cycle }
  rw [RegisterFile.ofList_toList, hmemory]
  rfl

/-- An entry without words shows the machine over its own memory. -/
theorem replay_ofMachine_nil (m : Machine) (label : Option String) (cycle : Int) :
    (ofMachine m [] label).replay m.memory cycle = { m.copy with cycle } := by
  change Machine.mk m.pc m.status (.ofList m.registers.toList) m.flags m.memory.clearTouched cycle = _
  rw [RegisterFile.ofList_toList]
  rfl

end TraceEntry

end Y86
