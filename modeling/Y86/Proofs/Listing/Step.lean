import Y86.Proofs.Listing.Tiling
import Y86.Proofs.Operation.Text
import Y86.Proofs.Session.Control
import Y86.Proofs.Session.Replay
import Y86.Proofs.Trace.Shape

/-!
# A listing shows the next step

The label of an entry is the text of the operation that a run has carried out. A listing decodes memory a second time,
later, where the trace has been laid out up to the entry before. The two agree (`Trace.Foretells`): the memory in front
of each step is exactly the one that the run had, also of a program that overwrites its own instructions, and the step
and the listing decode it alike.

* Where there is an instruction, its row has the text and all the bytes of it (`Memory.row?_of_decode`). No text of an
  instruction begins as one of data does (`ListingRow.not_isData_text`), so the rows of data are those of bytes that do
  not decode.
* Where nothing decodes, the step fails before it has changed anything (`Machine.exists_step_of_undecoded`).

`Session.listing_foretells` says so of all traces and of all sessions that show one.
-/

namespace Y86

/-! ### Rows of data -/

/-- The row shows a byte that starts no instruction. -/
def ListingRow.IsData (row : ListingRow) : Prop := ∃ rest, row.text = ".byte " ++ rest

theorem ListingRow.not_isData_text {row : ListingRow} {op : Operation} (h : row.text = op.text) : ¬row.IsData := by
  rintro ⟨rest, hrest⟩
  refine op.toList_text_ne ("byte ".toList ++ rest.toList) ?_
  rw [← h, hrest, String.toList_append]
  rfl

namespace Memory

variable {m : Memory} {pc : Int} {op : Operation}

/-- The row at the program counter is the instruction that is decoded there. -/
theorem row?_of_decode (h : Operation.decode m pc = .ok op) :
    m.row? pc = some { address := pc.toNat, bytes := m.window pc.toNat op.length.toNat, text := op.text } := by
  obtain ⟨hlo, hhi, -⟩ := Operation.room_of_decode h
  have hbytes := Operation.window_of_decode h
  unfold row?
  rw [if_pos ⟨hlo, hhi⟩, ← hbytes]
  unfold rowAt
  rw [Int.toNat_of_nonneg hlo, h]

/-- Where there is no row but one of data, nothing can be decoded. -/
theorem exists_decode_eq_error (h : ∀ row, m.row? pc = some row → row.IsData) :
    ∃ fault, Operation.decode m pc = .error fault := by
  cases hdecode : Operation.decode m pc with
  | error fault => exact ⟨fault, rfl⟩
  | ok op => exact absurd (h _ (row?_of_decode hdecode)) (ListingRow.not_isData_text rfl)

theorem listing_one (m : Memory) (pc : Int) : m.listing pc 1 = (m.row? pc).toList := by
  unfold listing row?
  by_cases hlo : 0 ≤ pc
  · obtain ⟨a, rfl⟩ := Int.eq_ofNat_of_zero_le hlo
    rw [if_pos hlo, rowsUntil]
    by_cases hhi : a < m.size
    · -- the row has a byte at least, so no other row begins in the range
      have hpos := m.length_rowAt_pos a
      rw [dif_pos ⟨by omega, hhi⟩, if_pos ⟨hlo, Int.ofNat_lt.2 hhi⟩]
      dsimp only [Int.toNat_natCast]
      rw [rowsUntil, dif_neg (by omega)]
      rfl
    · rw [dif_neg fun h => hhi h.2, if_neg fun h => hhi (Int.ofNat_lt.1 h.2)]
      rfl
  · rw [if_neg hlo, if_neg fun h => hlo h.1]
    rfl

end Memory

/-- Where nothing can be decoded the step fails, and the machine is as it was. -/
theorem Machine.exists_step_of_undecoded {m : Machine} {fault : Fault}
    (h : Operation.decode m.memory m.pc = .error fault) : ∃ fault', m.step = .error ⟨fault', m⟩ := by
  -- nothing comes between the look at the program counter and decoding
  unfold step requireAddress
  split
  · rw [h]
    exact ⟨fault, rfl⟩
  · exact ⟨_, rfl⟩

namespace Trace

/-- What the row at `pc` in the memory `m` says of the entry `e`, where `before` is the entry in front of it and `i` the
index of that. -/
structure Foretells (t : Trace) (i : Nat) (before e : TraceEntry) (m : Memory) (pc : Int) : Prop where
  /-- If the entry has the text of an instruction, the row has the same text, and the bytes of just that instruction. -/
  instruction : ∀ text, e.label = some text →
    ∃ op, Operation.decode m pc = .ok op ∧ pc + op.length ≤ m.size ∧
      m.row? pc = some { address := pc.toNat, bytes := m.window pc.toNat op.length.toNat, text }
  /-- If there is no row, or one of data, the trace ends with the entry, which shows no instruction and the registers of
  the entry before: either nothing could be decoded, or the run was halted at its bound. -/
  undecoded : (∀ row, m.row? pc = some row → row.IsData) →
    e.label = none ∧ i + 2 = t.length ∧ e.registers = before.registers ∧
      (e.status = .adr ∨ e.status = .ins ∨ t.limitReached = true ∧ e.status = .hlt)

variable {blank : Memory} {text : String} {p : Program} {n i : Nat} {before e : TraceEntry}

/-- The memory that the trace gives in front of an entry foretells it. -/
theorem foretells_build (h : Program.load blank text = .ok p) (hblank : blank.touched = []) (hn : 0 < n)
    (hbefore : (build n p).entries[i]? = some before) (he : (build n p).entries[i + 1]? = some e) :
    (build n p).Foretells i before e ((build n p).memoryAt blank i) before.pc := by
  have hrecorded := (recorded_of_getElem? he).step_or_halt
  have hi : i ≤ Recording.attempts n (.start p) := by
    rcases hrecorded with ⟨hlt, -⟩ | ⟨heq, -⟩
    · exact Nat.le_of_lt hlt
    · exact Nat.le_of_eq heq
  -- memory and program counter are those of the recording in front of the step
  have hmemory : (build n p).memoryAt blank i = (Recording.advance^[i] (.start p)).machine.memory :=
    (TraceEntry.memory_of_machineAt? hblank (machineAt?_build h hblank hi)).symm
  obtain ⟨touched, label, rfl⟩ := (recorded_of_getElem? hbefore).shows hi
  rw [hmemory]
  refine ⟨fun text hlabel => ?_, fun hdata => ?_⟩
  · -- an entry with a label was written down for a step that was carried out, and the step decoded the operation
    rcases hrecorded with ⟨-, rfl⟩ | ⟨-, -, rfl⟩
    · obtain ⟨op, next, hstep, rfl⟩ := label_nextEntry_iff.1 hlabel
      obtain ⟨hdecode, -⟩ := Machine.effect_of_step hstep
      exact ⟨op, hdecode, (Operation.room_of_decode hdecode).2.2, Memory.row?_of_decode hdecode⟩
    · cases hlabel
  · -- the step in front of the entry failed, or was not taken any more
    rcases hrecorded with ⟨-, rfl⟩ | ⟨hlast, running, rfl⟩
    · obtain ⟨fault, hdecode⟩ := Memory.exists_decode_eq_error hdata
      obtain ⟨fault', hstep⟩ := Machine.exists_step_of_undecoded hdecode
      have hentry := Recording.nextEntry_of_failure hstep
      have hnone : (Recording.advance^[i] (.start p)).nextEntry.label = none := by
        rw [hentry]
        rfl
      refine ⟨hnone, unlabelled_build h hblank hn he hnone, ?_, (status_of_label_eq_none hnone).imp_right Or.inl⟩
      rw [hentry]
      rfl
    · refine ⟨rfl, ?_, ?_, Or.inr (Or.inr ⟨limitReached_build_iff.2 running, rfl⟩)⟩
      · rw [length_of_running h hblank running, hlast]
      · rw [hlast, ← Recording.run_eq_iterate]
        rfl

end Trace

namespace Session

variable {s : Session} {p : Playback}

/-- A session that shows a built trace foretells the entry behind the cursor by its own memory. -/
theorem Placed.foretells (h : s.Placed p) {text : String} {program : Program}
    (hload : Program.load s.limits.memory text = .ok program) {n : Nat} (hn : 0 < n)
    (hbuild : p.trace = .build n program) {e : TraceEntry} (he : p.trace.entries[p.cursor + 1]? = some e) :
    ∃ before, p.trace.entries[p.cursor]? = some before ∧
      p.trace.Foretells p.cursor before e s.machine.memory s.machine.pc := by
  obtain ⟨before, hbefore, -, -, hpc, -⟩ := h.exists_entry
  have hmemory : s.own.memory = p.trace.memoryAt s.limits.memory p.cursor :=
    TraceEntry.memory_of_machineAt? rfl h.machine
  -- a stop writes over the status, and keeps the rest
  have hownPc : s.own.pc = s.machine.pc := by rw [s.own_eq]
  have hownMemory : s.own.memory = s.machine.memory := by rw [s.own_eq]
  rw [← hownPc, ← hownMemory, hpc, hmemory]
  rw [hbuild] at hbefore he ⊢
  exact ⟨before, hbefore, Trace.foretells_build hload rfl hn hbefore he⟩

/-- **A listing shows the next step.** In front of every entry of a trace, memory as the trace gives it foretells the
entry: at the program counter of the entry before, a listing shows the instruction that the entry is labelled with, in
full; and if it shows no instruction there, the entry is the last one and has none. The same is true of the memory and
the program counter of a session, after any commands, and the entry behind its cursor. -/
theorem listing_foretells :
    (∀ (size : Nat) (hsize : 0 < size) (text : String) (program : Program) (n : Nat),
      Program.load (.zeros size hsize) text = .ok program → 0 < n →
      ∀ (i : Nat) (before e : TraceEntry), (Trace.build n program).entries[i]? = some before →
        (Trace.build n program).entries[i + 1]? = some e →
        (Trace.build n program).Foretells i before e ((Trace.build n program).memoryAt (.zeros size hsize) i)
          before.pc) ∧
    ∀ (limits : Limits) (cs : List Command) (p : Playback) (e : TraceEntry),
      ((start limits).afterAll cs).playback = some p → p.trace.entries[p.cursor + 1]? = some e →
      let s := (start limits).afterAll cs
      s.perform (.disassemble s.machine.pc 1) = (.rows (s.machine.memory.row? s.machine.pc).toList, s) ∧
        ∃ before, p.trace.entries[p.cursor]? = some before ∧
          p.trace.Foretells p.cursor before e s.machine.memory s.machine.pc := by
  constructor
  · intro size hsize text program n hload hn i before e hbefore he
    exact Trace.foretells_build hload rfl hn hbefore he
  · intro limits cs p e hp he s
    -- the session shows the entry at the cursor, and its trace was built from a text that it loaded
    have hplaced := ((coherent_of_some hp).1 (coherent_afterAll limits cs)).toPlaced
    obtain ⟨text, program, -, hload, hbuild⟩ := exists_build limits cs hp
    rw [← limits_afterAll limits cs] at hload
    exact ⟨Prod.ext (congrArg Reply.rows (Memory.listing_one _ _)) rfl,
      hplaced.foretells hload limits.maxSteps_pos hbuild he⟩

/-- A program that writes over the `nop` in front of it before it comes there: the listing of the program has the `nop`
still, and the step is a `halt`, in the trace as in a session that was stopped by a breakpoint there. -/
theorem listing_foretells_overwritten :
    let text := "0x000: 40 01 0a 00 00 00 00 00 00 00\n0x00a: 10"
    let s := (start { memorySize := 32, maxSteps := 5 }).afterAll [.load text, .addBreakpoint 10 none, .step]
    (∃ program before e, Program.load (.zeros 32 (by decide)) text = .ok program ∧
      (program.memory.row? 10).map (·.text) = some "nop" ∧ (Trace.build 5 program).entries[1]? = some before ∧
      (Trace.build 5 program).entries[2]? = some e ∧ before.pc = 10 ∧ e.label = some "halt" ∧
      (Trace.build 5 program).Foretells 1 before e ((Trace.build 5 program).memoryAt (.zeros 32 (by decide)) 1)
        before.pc) ∧
    s.machine.status = .hlt ∧ (s.machine.memory.row? s.machine.pc).map (·.text) = some "halt" ∧
      ∃ p before e, s.playback = some p ∧ p.trace.Foretells p.cursor before e s.machine.memory s.machine.pc := by
  intro text s
  refine ⟨?_, by decide +kernel, by decide +kernel, ?_⟩
  · -- the listing of the program still has `nop` where the entry before shows `halt`
    have hvalues : ((Program.load (.zeros 32 (by decide)) text).toOption.map fun program =>
        ((program.memory.row? 10).map (·.text), (Trace.build 5 program).entries[1]?.map (·.pc),
          (Trace.build 5 program).entries[2]?.map (·.label)))
          = some (some "nop", some 10, some (some "halt")) := by
      decide +kernel
    obtain ⟨program, hprogram, htriple⟩ := Option.map_eq_some_iff.1 hvalues
    simp only [Prod.mk.injEq] at htriple
    obtain ⟨hnop, hpc, hhalt⟩ := htriple
    obtain ⟨before, hbefore, hten⟩ := Option.map_eq_some_iff.1 hpc
    obtain ⟨e, he, hlabel⟩ := Option.map_eq_some_iff.1 hhalt
    have hload := eq_ok_of_toOption hprogram
    exact ⟨program, before, e, hload, hnop, hbefore, he, hten, hlabel,
      listing_foretells.1 32 (by decide) text program 5 hload (by decide) 1 before e hbefore he⟩
  · have hnext : s.playback.map (fun p => p.trace.entries[p.cursor + 1]?.isSome) = some true := by decide +kernel
    obtain ⟨p, hp, hsome⟩ := Option.map_eq_some_iff.1 hnext
    obtain ⟨e, he⟩ := Option.isSome_iff_exists.1 hsome
    obtain ⟨-, before, -, hforetells⟩ := listing_foretells.2 _ _ p e hp he
    exact ⟨p, before, e, hp, hforetells⟩

end Session

end Y86
