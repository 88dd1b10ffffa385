import Mathlib.Data.List.Nodup
import Y86.Proofs.Machine.Registers
import Y86.Proofs.Snapshot.Record

/-!
# Comparisons are exact patches

A comparison lists the registers and flags in which two snapshots differ. Overwriting the register map of the first one
with the new values, and toggling the listed flags, gives those of the second one (`Comparison.Patches`), so
comparisons can be applied one after the other, and the one the other way round has all its pairs swapped
(`Comparison.between_swap`). Nothing is listed exactly if the records of the snapshots show the same registers and flags
(`Comparison.isEmpty_iff`).

A patch is a sequence of changes of single keys, and as each key is changed at most once, all of them can be looked at
together (`foldl_adjusted`). `History.compares_exactly` says this of any two references to snapshots of a history in
which identifiers are not used twice.
-/

namespace Y86

/-! ### Changes of a map -/

section Maps

variable {κ α β : Type} [DecidableEq κ]

/-- A map with the value of one key changed. -/
def adjusted (key : κ) (change : α → α) (map : List (κ × α)) : List (κ × α) :=
  map.map fun entry => if entry.1 = key then (entry.1, change entry.2) else entry

/-- Changes of different keys can be made together. -/
theorem foldl_adjusted {keys : List κ} (hkeys : keys.Nodup) (change : κ → α → α) (map : List (κ × α)) :
    keys.foldl (fun map key => adjusted key (change key) map) map
      = map.map fun entry => if entry.1 ∈ keys then (entry.1, change entry.1 entry.2) else entry := by
  induction keys generalizing map with
  | nil => simp
  | cons key keys ih =>
    obtain ⟨hkey, hrest⟩ := List.nodup_cons.1 hkeys
    rw [List.foldl_cons, ih hrest, adjusted, List.map_map]
    refine List.map_congr_left fun entry _ => ?_
    by_cases heq : entry.1 = key
    · -- the first key does not come again
      have hnot : entry.1 ∉ keys := heq ▸ hkey
      simp [heq, hkey]
    · simp [heq]

theorem filterMap_ite_none (l : List β) (p : β → Prop) [DecidablePred p] (f : β → α) :
    l.filterMap (fun x => if p x then none else some (f x)) = (l.filter fun x => ¬p x).map f := by
  induction l with
  | nil => rfl
  | cons x l ih => by_cases h : p x <;> simp [h, ih]

end Maps

/-- The registers of a snapshot with their values. -/
def Snapshot.registerMap (s : Snapshot) : List (Register × Int) := s.machine.registers.pairs

/-- The flags of a snapshot with their values. -/
def Snapshot.flagMap (s : Snapshot) : List (String × Bool) := s.machine.flags.named

/-- A register file is told by its named values. -/
theorem RegisterFile.pairs_injective {f g : RegisterFile} (h : f.pairs = g.pairs) : f = g := by
  refine ext_get fun r => ?_
  have hboth := List.map_inj_left.1 h r (Register.mem_all r)
  exact congrArg Prod.snd hboth

namespace Comparison

variable {a b : Snapshot} {c : Comparison}

/-- A register map with the new values in it. -/
def patchRegisters (c : Comparison) (map : List (Register × Int)) : List (Register × Int) :=
  c.registers.foldl (fun map change => adjusted change.1 (fun _ => change.2.2) map) map

/-- A map of flags with the listed ones toggled. -/
def patchFlags (c : Comparison) (map : List (String × Bool)) : List (String × Bool) :=
  c.flags.foldl (fun map flag => adjusted flag (!·) map) map

/-- The comparison the other way round. -/
def swap (c : Comparison) : Comparison where
  cycles := c.cycles.swap
  pcs := c.pcs.swap
  registers := c.registers.map fun change => (change.1, change.2.2, change.2.1)
  flags := c.flags

/-- What `c` lists is exactly what leads from `a` to `b`. -/
structure Patches (c : Comparison) (a b : Snapshot) : Prop where
  cycles : c.cycles = (a.machine.cycle, b.machine.cycle)
  pcs : c.pcs = (a.machine.pc, b.machine.pc)
  registers : c.patchRegisters a.registerMap = b.registerMap
  flags : c.patchFlags a.flagMap = b.flagMap
  /-- The old values are those of the first snapshot. -/
  old : ∀ change ∈ c.registers, (change.1, change.2.1) ∈ a.registerMap
  differs : ∀ change ∈ c.registers, change.2.1 ≠ change.2.2
  /-- Registers are listed in the order of their codes, each at most once. -/
  ordered : (c.registers.map (·.1)).Sublist Register.all

/-! ### Registers -/

/-- The registers in which two files differ. -/
def changed (f g : RegisterFile) : List Register := Register.all.filter fun r => ¬f.get r = g.get r

/-- A comparison lists the registers that have changed, with both values. -/
theorem registers_between (a b : Snapshot) :
    (between a b).registers = (changed a.machine.registers b.machine.registers).map fun r =>
      (r, a.machine.registers.get r, b.machine.registers.get r) :=
  filterMap_ite_none Register.all (fun r => a.machine.registers.get r = b.machine.registers.get r) fun r =>
    (r, a.machine.registers.get r, b.machine.registers.get r)

/-- A register is listed if its values differ. -/
theorem mem_changed {f g : RegisterFile} {r : Register} : r ∈ changed f g ↔ f.get r ≠ g.get r := by
  unfold changed
  rw [List.mem_filter, decide_eq_true_iff]
  exact and_iff_right (Register.mem_all r)

/-- None is listed if the register files are the same. -/
theorem changed_eq_nil_iff {f g : RegisterFile} : changed f g = [] ↔ f = g := by
  constructor
  · intro h
    refine RegisterFile.ext_get fun r => ?_
    by_contra hne
    have hmem := mem_changed.2 hne
    rw [h] at hmem
    cases hmem
  · rintro rfl
    exact List.filter_eq_nil_iff.2 fun r _ => by simp

/-- Writing the new values over the old registers gives the new ones. -/
theorem patchRegisters_between (a b : Snapshot) : (between a b).patchRegisters a.registerMap = b.registerMap := by
  have hnodup : (changed a.machine.registers b.machine.registers).Nodup := List.Nodup.filter _ (by decide)
  unfold patchRegisters
  rw [registers_between, List.foldl_map, foldl_adjusted hnodup fun r _ => b.machine.registers.get r]
  unfold Snapshot.registerMap RegisterFile.pairs
  rw [List.map_map]
  refine List.map_congr_left fun r _ => ?_
  show (if r ∈ changed _ _ then (r, _) else (r, _)) = _
  split
  case isTrue => rfl
  case isFalse hsame => rw [Decidable.not_not.1 (mt mem_changed.2 hsame)]

/-- The order of the snapshots does not matter for which registers have changed. -/
theorem changed_comm (f g : RegisterFile) : changed f g = changed g f := by
  unfold changed
  simp only [eq_comm]

/-! ### Flags -/

/-- The names of the flags with different values. -/
def toggled (f g : Flags) : List String :=
  (f.named.zip g.named).filterMap fun (old, new) => if old.2 = new.2 then none else some old.1

theorem flags_between (a b : Snapshot) : (between a b).flags = toggled a.machine.flags b.machine.flags := rfl

/-! Three flags have few enough values to look at all of them. -/

/-- Switching the flags that differ gives the other flags. -/
theorem foldl_toggled (f g : Flags) :
    (toggled f g).foldl (fun map flag => adjusted flag (!·) map) f.named = g.named := by
  obtain ⟨z, s, o⟩ := f
  obtain ⟨z', s', o'⟩ := g
  revert z s o z' s' o'
  decide

theorem toggled_comm (f g : Flags) : toggled f g = toggled g f := by
  obtain ⟨z, s, o⟩ := f
  obtain ⟨z', s', o'⟩ := g
  revert z s o z' s' o'
  decide

/-- None is listed if the flags are the same. -/
theorem toggled_eq_nil_iff (f g : Flags) : toggled f g = [] ↔ f.named = g.named := by
  obtain ⟨z, s, o⟩ := f
  obtain ⟨z', s', o'⟩ := g
  revert z s o z' s' o'
  decide

/-! ### Two snapshots -/

/-- **Patching.** A comparison leads from the first snapshot to the second. -/
theorem patches_between (a b : Snapshot) : (between a b).Patches a b where
  cycles := rfl
  pcs := rfl
  registers := patchRegisters_between a b
  flags := foldl_toggled a.machine.flags b.machine.flags
  old := by
    -- every change is of a register that the file has
    intro change hchange
    rw [registers_between] at hchange
    obtain ⟨r, -, rfl⟩ := List.mem_map.1 hchange
    exact List.mem_map_of_mem (Register.mem_all r)
  differs := by
    intro change hchange
    rw [registers_between] at hchange
    obtain ⟨r, hr, rfl⟩ := List.mem_map.1 hchange
    exact mem_changed.1 hr
  ordered := by
    rw [registers_between, List.map_map]
    exact (List.map_id _).symm ▸ List.filter_sublist

/-- **Symmetry.** Compared the other way round, the values are swapped and nothing else. -/
theorem between_swap (a b : Snapshot) : between b a = (between a b).swap := by
  have hregisters : (between b a).registers = (between a b).swap.registers := by
    unfold swap
    rw [registers_between, registers_between, List.map_map, changed_comm]
    rfl
  have hflags : (between b a).flags = (between a b).swap.flags := toggled_comm _ _
  exact congrArg₂ (Comparison.mk _ _) hregisters hflags

/-- The records of two snapshots show the same registers exactly if the registers are the same. -/
theorem registers_ofSnapshot_eq_iff :
    (SnapshotRecord.ofSnapshot a).registers = (SnapshotRecord.ofSnapshot b).registers ↔
      a.machine.registers = b.machine.registers := by
  constructor
  · intro h
    -- the registers can be read from the record
    have hread := congrArg (List.mapM SnapshotRecord.register?) h
    exact RegisterFile.pairs_injective (Option.some.inj
      ((SnapshotRecord.mapM_register?_pairs _).symm.trans (hread.trans (SnapshotRecord.mapM_register?_pairs _))))
  · intro h
    unfold SnapshotRecord.ofSnapshot
    rw [h]

/-- Nothing is listed exactly if the records show the same. -/
theorem isEmpty_iff :
    (between a b).registers = [] ∧ (between a b).flags = [] ↔
      (SnapshotRecord.ofSnapshot a).registers = (SnapshotRecord.ofSnapshot b).registers ∧
        (SnapshotRecord.ofSnapshot a).conditionCodes = (SnapshotRecord.ofSnapshot b).conditionCodes := by
  rw [registers_ofSnapshot_eq_iff, registers_between, List.map_eq_nil_iff, changed_eq_nil_iff, flags_between,
    toggled_eq_nil_iff]
  rfl

end Comparison

namespace History

variable {h : History} {x y : Snapshot}

/-! ### Snapshots by their identifiers -/

/-- A snapshot is found by its identifier if no other one has it. -/
theorem find?_of_nodup (hids : (h.snapshots.toList.map (·.id)).Nodup) (hx : x ∈ h.snapshots) :
    h.find? (.id x.id) = some x := by
  have hsome : (h.find? (.id x.id)).isSome = true := by
    unfold find?
    rw [Array.find?_isSome]
    exact ⟨x, hx, by simp⟩
  obtain ⟨y, hy⟩ := Option.isSome_iff_exists.1 hsome
  have hmem : y ∈ h.snapshots := Array.mem_of_find?_eq_some hy
  have hid : y.id = x.id := by simpa using Array.find?_some hy
  -- a second snapshot with the identifier would be the same one
  rw [hy, List.inj_on_of_nodup_map hids (Array.mem_toList_iff.2 hmem) (Array.mem_toList_iff.2 hx) hid]

/-- A reference is to no snapshot of the history. -/
def Unknown (h : History) (r : Reference SnapshotId) : Prop := ∀ x ∈ h.snapshots, r.isTo x.id = false

/-- A snapshot is missing exactly if nothing bears the reference. -/
theorem find?_eq_none_iff {r : Reference SnapshotId} : h.find? r = none ↔ h.Unknown r := by
  unfold find? Unknown
  rw [Array.find?_eq_none]
  simp only [Bool.not_eq_true]

/-- **Absence.** There is no comparison exactly if one of the snapshots is missing. -/
theorem compare?_eq_none_iff {r s : Reference SnapshotId} : h.compare? r s = none ↔ h.Unknown r ∨ h.Unknown s := by
  rw [← find?_eq_none_iff, ← find?_eq_none_iff]
  unfold compare?
  cases h.find? r with
  | none => exact iff_of_true rfl (Or.inl rfl)
  | some x =>
    cases h.find? s with
    | none => exact iff_of_true rfl (Or.inr rfl)
    | some y => simp

/-- Where identifiers are different, two snapshots of the history are compared with each other. -/
theorem compare?_of_nodup (hids : (h.snapshots.toList.map (·.id)).Nodup) (hx : x ∈ h.snapshots)
    (hy : y ∈ h.snapshots) : h.compare? (.id x.id) (.id y.id) = some (.between x y) := by
  unfold compare?
  rw [find?_of_nodup hids hx, find?_of_nodup hids hy]
  rfl

/-! ### Comparisons in a history -/

/-- What is known of the comparison of two snapshots, and of its records. -/
structure ComparesTo (h : History) (x y : Snapshot) (c : Comparison) : Prop where
  compare : h.compare? (.id x.id) (.id y.id) = some c
  patches : c.Patches x y
  /-- The other way round, all pairs are swapped. -/
  swap : h.compare? (.id y.id) (.id x.id) = some c.swap
  /-- Nothing is listed exactly if the records show the same registers and flags. -/
  isEmpty_iff : c.registers = [] ∧ c.flags = [] ↔
    (SnapshotRecord.ofSnapshot x).registers = (SnapshotRecord.ofSnapshot y).registers ∧
      (SnapshotRecord.ofSnapshot x).conditionCodes = (SnapshotRecord.ofSnapshot y).conditionCodes

/-- Comparisons in a history are exact. -/
structure ComparesExactly (h : History) : Prop where
  /-- There is no comparison exactly if one of the references is to no snapshot. -/
  absent_iff : ∀ r s, h.compare? r s = none ↔ h.Unknown r ∨ h.Unknown s
  between : ∀ x ∈ h.snapshots, ∀ y ∈ h.snapshots, ∃ c, h.ComparesTo x y c
  /-- Comparisons can be applied one after the other. -/
  compose : ∀ x ∈ h.snapshots, ∀ y ∈ h.snapshots, ∀ z ∈ h.snapshots, ∀ c d,
    h.compare? (.id x.id) (.id y.id) = some c → h.compare? (.id y.id) (.id z.id) = some d →
      d.patchRegisters (c.patchRegisters x.registerMap) = z.registerMap ∧
        d.patchFlags (c.patchFlags x.flagMap) = z.flagMap

/-- **A comparison is an exact patch.** Where identifiers are not used twice, any two snapshots can be compared, and what
is listed leads from the registers and flags of the first one to those of the second one, and is nothing more. -/
theorem compares_exactly (hids : (h.snapshots.toList.map (·.id)).Nodup) : h.ComparesExactly where
  absent_iff := fun _ _ => compare?_eq_none_iff
  between := by
    intro x hx y hy
    exact
      ⟨.between x y,
        { compare := compare?_of_nodup hids hx hy
          patches := Comparison.patches_between x y
          swap := by rw [compare?_of_nodup hids hy hx, Comparison.between_swap]
          isEmpty_iff := Comparison.isEmpty_iff }⟩
  compose := by
    intro x hx y hy z hz c d hc hd
    rw [compare?_of_nodup hids hx hy] at hc
    rw [compare?_of_nodup hids hy hz] at hd
    cases hc
    cases hd
    have hxy := Comparison.patches_between x y
    have hyz := Comparison.patches_between y z
    -- patching by one comparison and then by the other leads from the first to the third
    exact ⟨by rw [hxy.registers, hyz.registers], by rw [hxy.flags, hyz.flags]⟩

/-- The least word and minus one in a register, and two flags that change places. -/
theorem compares_exactly_extreme_words :
    let old : Machine := { registers := RegisterFile.zeros.set .r14 (-9223372036854775808) }
    let new : Machine := { registers := RegisterFile.zeros.set .r14 (-1), flags := { zero := false, sign := true } }
    let h := (({} : History).capture old none).capture new none
    (h.snapshots.toList.map (·.id)).Nodup ∧ h.ComparesExactly ∧
      (h.compare? (.id ⟨0⟩) (.id ⟨1⟩)).map (fun c => (c.registers, c.flags)) =
        some ([(.r14, -9223372036854775808, -1)], ["ZF", "SF"]) ∧
      h.compare? (.id ⟨0⟩) (.id ⟨2⟩) = none := by
  intro old new h
  have hids : (h.snapshots.toList.map (·.id)).Nodup := by decide
  exact ⟨hids, compares_exactly hids, by decide +kernel, by decide +kernel⟩

end History

end Y86
