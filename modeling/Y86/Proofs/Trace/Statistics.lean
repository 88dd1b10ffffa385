import Y86.Proofs.Operation.Text
import Y86.Proofs.Trace.Bound

/-!
# The statistics of a trace

A recording writes three things down apart from each other: entries, the texts in them, and counts of instructions. They
account for each other (`Trace.Accounted`). Of each class there are as many instructions in the statistics as there are
entries whose text begins with a mnemonic of the class, and all counts together are the entries that have a text at all:
those of the steps that were carried out, which is every entry but the first, one for a step that has failed, and one for a
halt at the bound.

Each advance of a running recording preserves this (`Recording.Accounted.advance`), since a step that was carried out adds
a text and counts its class, and one that has failed does neither. That the text tells the class is a fact about the
instructions that can be decoded: their mnemonics contain no blank and belong to one class each
(`Operation.mem_mnemonics_iff`).
-/

namespace Y86

open Text

namespace InstructionClass

/-- The mnemonics of a class. -/
def mnemonics : InstructionClass → List String
  | halt => ["halt"]
  | nop => ["nop"]
  | rrmovq => ["rrmovq", "cmovle", "cmovl", "cmove", "cmovne", "cmovge", "cmovg"]
  | irmovq => ["irmovq"]
  | rmmovq => ["rmmovq"]
  | mrmovq => ["mrmovq"]
  | opq => ["addq", "subq", "andq", "xorq"]
  | jxx => ["jmp", "jle", "jl", "je", "jne", "jge", "jg"]
  | call => ["call"]
  | ret => ["ret"]
  | pushq => ["pushq"]
  | popq => ["popq"]

/-- Classes are told apart by their names. -/
theorem name_injective : Function.Injective name := by
  intro k k' h
  have hall : ∀ k : InstructionClass, k ∈ all := by intro k; cases k <;> decide
  have hnodup : (all.map name).Nodup := by decide
  exact List.inj_on_of_nodup_map hnodup (hall k) (hall k') h

end InstructionClass

/-! ### The mnemonic of a text -/

/-- What stands in front of the first blank of a text. -/
def Text.firstWord (text : String) : String := String.ofList (text.toList.takeWhile (· != ' '))

namespace Operation

variable {op : Operation}

/-- The class and the function code of a decoded instruction are among those that there are. -/
theorem exists_mem_codes {m : Memory} {pc : Int} (h : decode m pc = .ok op) :
    ∃ n : Nat, op.ifun = n ∧ (op.kind, n) ∈ codes := by
  obtain ⟨opcode, bytes, -, hvalid, -, hencoded⟩ := exists_encodedBy h
  exact ⟨_, hencoded.ifun_eq, mem_codes (hencoded.code_eq ▸ hvalid.2)⟩

/-- The first word of a text is the mnemonic, as a mnemonic has no blank in it. -/
theorem firstWord_text (h : ' ' ∉ op.mnemonic.toList) : firstWord op.text = op.mnemonic := by
  have hall : ∀ c ∈ op.mnemonic.toList, (c != ' ') = true := fun c hc => bne_iff_ne.2 fun e => h (e ▸ hc)
  unfold firstWord
  by_cases hnil : op.operands = []
  · have htext : op.text = op.mnemonic := by
      unfold text
      rw [hnil]
    rw [htext, List.takeWhile_eq_self_iff.2 hall, String.ofList_toList]
  · rw [toList_text hnil, List.takeWhile_append_of_pos hall, List.takeWhile_cons_of_neg (by decide), List.append_nil,
      String.ofList_toList]

/-- The text of a decoded instruction begins with a mnemonic of its class, and of no other. -/
theorem mem_mnemonics_iff {m : Memory} {pc : Int} (h : decode m pc = .ok op) (k : InstructionClass) :
    firstWord op.text ∈ k.mnemonics ↔ op.kind = k := by
  obtain ⟨n, hifun, hmem⟩ := exists_mem_codes h
  have hall : ∀ c ∈ codes, ∀ k ∈ InstructionClass.all, mnemonicFor c ∈ k.mnemonics ↔ c.1 = k := by decide +kernel
  have hmnemonic := mnemonic_eq hifun
  rw [firstWord_text (hmnemonic ▸ blank_not_mem_mnemonicFor _ hmem), hmnemonic]
  exact hall _ hmem k (by cases k <;> decide)

end Operation

/-! ### Counting -/

namespace Statistics

variable {k : InstructionClass} {cs : List (InstructionClass × Nat)} {c : InstructionClass × Nat}

/-- Counting one more raises the sum by one. -/
theorem sum_bump (k : InstructionClass) (cs : List (InstructionClass × Nat)) :
    ((bump k cs).map (·.2)).sum = (cs.map (·.2)).sum + 1 := by
  induction cs with
  | nil => rfl
  | cons c cs ih =>
    unfold bump
    split
    · rw [List.map_cons, List.sum_cons, List.map_cons, List.sum_cons, Nat.add_right_comm]
    · rw [List.map_cons, List.sum_cons, List.map_cons, List.sum_cons, ih, Nat.add_assoc]

/-- A class that has no count yet comes in last. -/
theorem map_fst_bump (k : InstructionClass) (cs : List (InstructionClass × Nat)) :
    (bump k cs).map (·.1) = if k ∈ cs.map (·.1) then cs.map (·.1) else cs.map (·.1) ++ [k] := by
  induction cs with
  | nil => rfl
  | cons c cs ih =>
    unfold bump
    by_cases hck : c.1 = k
    · rw [if_pos hck, List.map_cons, List.map_cons, hck, if_pos List.mem_cons_self]
    · have hiff : k ∈ (c :: cs).map (·.1) ↔ k ∈ cs.map (·.1) := by
        rw [List.map_cons, List.mem_cons, or_iff_right (Ne.symm hck)]
      rw [if_neg hck, List.map_cons, ih, if_congr hiff rfl rfl, List.map_cons]
      split <;> rfl

/-- Counting one more lists no class twice. -/
theorem nodup_bump (k : InstructionClass) (h : (cs.map (·.1)).Nodup) : ((bump k cs).map (·.1)).Nodup := by
  rw [map_fst_bump]
  split
  case isTrue => exact h
  case isFalse hnew =>
    rw [← List.concat_eq_append]
    exact h.concat hnew

/-- No class is listed with a count of zero. -/
theorem pos_of_mem_bump (h : ∀ c ∈ cs, 0 < c.2) (hc : c ∈ bump k cs) : 0 < c.2 := by
  induction cs with
  | nil =>
    rw [List.mem_singleton.1 hc]
    exact Nat.one_pos
  | cons d ds ih =>
    obtain ⟨hd, hds⟩ := List.forall_mem_cons.1 h
    unfold bump at hc
    -- the count that is found goes up by one, the others stay
    split at hc
    · rcases List.mem_cons.1 hc with rfl | hc
      · exact Nat.succ_pos _
      · exact hds c hc
    · rcases List.mem_cons.1 hc with rfl | hc
      · exact hd
      · exact ih hds hc

end Statistics

/-- The entry has the text of an instruction of the class. -/
def TraceEntry.showsClass (k : InstructionClass) (e : TraceEntry) : Bool :=
  e.label.any fun text => k.mnemonics.contains (firstWord text)

namespace Statistics

/-- The counts are those of the texts in the entries. -/
structure Tallies (s : Statistics) (entries : Array TraceEntry) : Prop where
  count : ∀ k, s.count k = entries.toList.countP (·.showsClass k)
  sum : (s.counts.map (·.2)).sum = entries.toList.countP (·.label.isSome)
  classes : (s.counts.map (·.1)).Nodup
  pos : ∀ c ∈ s.counts, 0 < c.2

variable {s : Statistics} {entries : Array TraceEntry} {e : TraceEntry}

/-- One entry more is counted if it has the property. -/
theorem countP_push {α : Type} (p : α → Bool) (xs : Array α) (x : α) :
    (xs.push x).toList.countP p = xs.toList.countP p + if p x then 1 else 0 := by
  rw [Array.toList_push, List.countP_append, List.countP_singleton]

/-- An entry with the text of an instruction is tallied under its class. -/
theorem Tallies.push_text {m : Memory} {pc : Int} {op : Operation} (h : s.Tallies entries)
    (hdecode : Operation.decode m pc = .ok op) (hlabel : e.label = some op.text) :
    (s.add op.kind).Tallies (entries.push e) where
  count k := by
    -- the mnemonic in the text tells the class, so the new entry counts for its own class only
    have hshows : e.showsClass k = decide (op.kind = k) := by
      unfold TraceEntry.showsClass
      rw [hlabel, Option.any_some, List.contains_eq_mem]
      exact decide_eq_decide.2 (Operation.mem_mnemonics_iff hdecode k)
    rw [count_add, h.count, countP_push, hshows]
    simp only [decide_eq_true_eq]
  sum := by
    rw [countP_push, hlabel, ← h.sum]
    exact sum_bump _ _
  classes := nodup_bump _ h.classes
  pos _ := pos_of_mem_bump h.pos

/-- An entry without a text does not count. -/
theorem Tallies.push_none (h : s.Tallies entries) (hlabel : e.label = none) : s.Tallies (entries.push e) where
  count k := by
    unfold TraceEntry.showsClass
    rw [countP_push, hlabel]
    exact h.count k
  sum := by
    rw [countP_push, hlabel]
    exact h.sum
  classes := h.classes
  pos := h.pos

end Statistics

/-- The status of a step that has failed. -/
def Status.isFault (status : Status) : Bool := status == .adr || status == .ins

namespace Recording

/-! ### One advance -/

section Advance

variable {r : Recording}

theorem status_advance (r : Recording) : r.advance.machine.status = r.nextEntry.status := rfl

/-- The last entry shows the status of the machine. -/
theorem last_advance (r : Recording) : r.advance.entries.back?.map (·.status) = some r.advance.machine.status := by
  rw [entries_advance, Array.back?_push]
  rfl

/-- A step that was carried out is counted under its class. -/
theorem statistics_advance_of_step {op : Operation} {next : Machine} (h : r.machine.step = .ok (op, next)) :
    r.advance.statistics = r.statistics.add op.kind := by
  unfold advance attempt
  rw [h]

/-- A step that has failed is not counted. -/
theorem statistics_advance_of_failure {e : Failure} (h : r.machine.step = .error e) :
    r.advance.statistics = r.statistics := by
  unfold advance attempt
  rw [h]

end Advance

/-- What holds of a recording, and is preserved by each step of a machine that runs, holds at the end of every run. -/
theorem run_induction {P : Recording → Prop} (hadvance : ∀ r, r.machine.status = .aok → P r → P r.advance) (n : Nat)
    {r : Recording} (h : P r) : P (run n r) := by
  induction n generalizing r with
  | zero => exact h
  | succ n ih =>
    unfold run
    split
    case isTrue running => exact ih (hadvance r running h)
    case isFalse => exact h

/-- The statistics and the entries of a recording account for each other. -/
structure Accounted (r : Recording) : Prop where
  tallies : r.statistics.Tallies r.entries
  /-- Only the first entry has no text, and one for a step that has failed. -/
  size : r.entries.size = r.entries.toList.countP (·.label.isSome) + 1 + if r.machine.status.isFault then 1 else 0
  last : r.entries.back?.map (·.status) = some r.machine.status

/-- Before the first step nothing is counted, and the first entry has no text. -/
theorem accounted_start (p : Program) : (start p).Accounted where
  tallies := ⟨fun _ => rfl, rfl, List.nodup_nil, List.forall_mem_nil _⟩
  size := rfl
  last := rfl

section Advance

variable {r : Recording} (h : r.Accounted) (running : r.machine.status = .aok)

include h running

/-- In front of a step, no step has failed. -/
theorem Accounted.size_of_running : r.entries.size = r.entries.toList.countP (·.label.isSome) + 1 := by
  have hsize := h.size
  rwa [running] at hsize

theorem Accounted.advance_of_step {op : Operation} {next : Machine} (hstep : r.machine.step = .ok (op, next)) :
    r.advance.Accounted := by
  obtain ⟨hdecode, heffect⟩ := Machine.effect_of_step hstep
  have hentry := nextEntry_of_step hstep
  have hlabel : r.nextEntry.label = some op.text := by
    rw [hentry]
    rfl
  -- an instruction that is executed leaves no fault
  have hstatus : r.nextEntry.status.isFault = false := by
    rw [hentry]
    change next.status.isFault = false
    rw [heffect.status, running]
    split <;> rfl
  exact
    { tallies := by
        rw [statistics_advance_of_step hstep, entries_advance]
        exact h.tallies.push_text hdecode hlabel
      size := by
        rw [status_advance, hstatus, entries_advance, Array.size_push, h.size_of_running running,
          Statistics.countP_push, hlabel]
        rfl
      last := last_advance r }

theorem Accounted.advance_of_failure {e : Failure} (hstep : r.machine.step = .error e) : r.advance.Accounted := by
  have hlabel : r.nextEntry.label = none := by
    rw [nextEntry_of_failure hstep]
    rfl
  -- a failure leaves a fault, and is not counted
  have hstatus : r.nextEntry.status.isFault = true := by
    rcases Trace.status_of_label_eq_none hlabel with hadr | hins
    · rw [hadr]
      rfl
    · rw [hins]
      rfl
  exact
    { tallies := by
        rw [statistics_advance_of_failure hstep, entries_advance]
        exact h.tallies.push_none hlabel
      size := by
        rw [status_advance, hstatus, entries_advance, Array.size_push, h.size_of_running running,
          Statistics.countP_push, hlabel]
        rfl
      last := last_advance r }

/-- One step more keeps the account. -/
theorem Accounted.advance : r.advance.Accounted := by
  cases hstep : r.machine.step with
  | ok x => exact h.advance_of_step running hstep
  | error e => exact h.advance_of_failure running hstep

end Advance

/-- **Account.** However many steps are recorded, the statistics tally the entries. -/
theorem accounted_run (n : Nat) (p : Program) : (run n (start p)).Accounted :=
  run_induction (fun _ running h => h.advance running) n (accounted_start p)

end Recording

namespace Trace

/-- The statistics of a trace and its entries account for each other. -/
structure Accounted (t : Trace) : Prop where
  /-- A class was counted once for each entry whose text is that of one of its instructions. -/
  count : ∀ k, t.statistics.count k = t.entries.toList.countP (·.showsClass k)
  /-- Every text in an entry was counted. -/
  sum : (t.statistics.counts.map (·.2)).sum = t.entries.toList.countP (·.label.isSome)
  /-- Every entry has a text but the first, the last one if it is for a fault, and the last one if the bound was
  reached. -/
  length : t.length = t.entries.toList.countP (·.label.isSome) + 1
    + (if t.finalStatus?.any (·.isFault) then 1 else 0) + if t.limitReached then 1 else 0
  /-- No class is there twice, under no name. -/
  names : (t.statistics.counts.map (·.1.name)).Nodup
  /-- No class is there that was not carried out. -/
  pos : ∀ c ∈ t.statistics.counts, 0 < c.2

variable {p : Program} {n : Nat}

theorem accounted_of_tallies {t : Trace} (h : t.statistics.Tallies t.entries)
    (hlength : t.length = t.entries.toList.countP (·.label.isSome) + 1
      + (if t.finalStatus?.any (·.isFault) then 1 else 0) + if t.limitReached then 1 else 0) : t.Accounted where
  count := h.count
  sum := h.sum
  length := hlength
  names := by
    have hnames := h.classes.map InstructionClass.name_injective
    rwa [List.map_map] at hnames
  pos := h.pos

/-- A run that has stopped by itself is the whole trace. -/
theorem accounted_of_stopped (h : (Recording.run n (.start p)).Accounted)
    (stopped : (Recording.run n (.start p)).machine.status ≠ .aok) : (build n p).Accounted := by
  have hentries : (build n p).entries = (Recording.run n (.start p)).entries :=
    (Recording.entries_finish _).trans (if_neg stopped)
  have hlimit : (build n p).limitReached = false := beq_eq_false_iff_ne.2 stopped
  refine accounted_of_tallies (hentries ▸ h.tallies) ?_
  unfold length finalStatus?
  rw [hlimit, hentries, h.last]
  exact h.size

/-- A halt at the bound adds an entry without a text to a run in which no step has failed. -/
theorem accounted_of_running (h : (Recording.run n (.start p)).Accounted)
    (running : (Recording.run n (.start p)).machine.status = .aok) : (build n p).Accounted := by
  have hentries : (build n p).entries
      = (Recording.run n (.start p)).entries.push (.ofMachine (Recording.run n (.start p)).halted []) :=
    (Recording.entries_finish _).trans (if_pos running)
  refine accounted_of_tallies (hentries ▸ h.tallies.push_none rfl) ?_
  unfold length finalStatus?
  rw [limitReached_build_iff.2 running, hentries, Array.size_push, h.size_of_running running, Array.back?_push,
    Statistics.countP_push]
  rfl

/-- **The statistics account for every instruction.** Of any program, with any bound on the steps, the statistics of its
trace and the entries of it account for each other. -/
theorem accounted_build (p : Program) (n : Nat) : (build n p).Accounted := by
  have h := Recording.accounted_run n p
  by_cases running : (Recording.run n (.start p)).machine.status = .aok
  · exact accounted_of_running h running
  · exact accounted_of_stopped h running

/-- A move and a conditional one belong to one class, and the byte behind them to none. -/
example : (Program.load (.zeros 8 (by decide)) "0x000: 20 01 22 01 f0").toOption.map
    (fun p => ((build 9 p).statistics.counts, (build 9 p).length)) = some ([(.rrmovq, 2)], 4) := by
  decide +kernel

end Trace

end Y86
