import Y86.ObjectCode.Program
import Y86.Proofs.Memory.Quad

/-!
# What a loaded program is known to be

A load is a sequence of writes of one byte, and a loaded program is one for which none of them has failed; what each
write keeps, the whole load keeps (`Program.placeAll_induction`). It follows that the program names all words that it has
changed (`Program.load_tracks`), in ascending order (`Program.load_ascending`). Since every record of a loaded text starts
inside memory, so does the program (`Program.entry_lt_size`).
-/

namespace Y86

namespace Program

variable {blank memory next : Memory} {text : String} {p : Program}

/-- A load that succeeds has placed all records of the text in the blank memory. -/
theorem exists_placeAll (h : load blank text = .ok p) :
    ∃ memory, placeAll blank (recordsOf text.toList) = .ok memory ∧ p.memory = memory.clearTouched ∧
      p.touched = memory.touched ∧ p.entry = entryOf ((recordsOf text.toList).map (·.2)) := by
  unfold load at h
  dsimp only at h
  cases hplace : placeAll blank (recordsOf text.toList) with
  | error e => rw [hplace] at h; cases h
  | ok memory =>
    rw [hplace] at h
    cases h
    exact ⟨memory, rfl, rfl, rfl, rfl⟩

/-! ### Writes -/

/-- What every write of a byte keeps, the writes of a record keep. -/
theorem writeDigits_induction {P : Memory → Prop}
    (hwrite : ∀ (m n : Memory) (address value : Int), m.write address value = .ok n → P m → P n)
    {target : Nat} {digits : List Char} (h : writeDigits memory target digits = .ok next) (hmemory : P memory) :
    P next := by
  fun_induction writeDigits memory target digits with
  | case1 memory =>
    cases h
    exact hmemory
  | case2 memory target d => exact hwrite _ _ _ _ (mapError_eq_ok_iff.1 h) hmemory
  | case3 memory target high low rest ih =>
    obtain ⟨written, hfirst, hrest⟩ := exists_of_bind_eq_ok h
    exact ih written hrest (hwrite _ _ _ _ (mapError_eq_ok_iff.1 hfirst) hmemory)

/-- A record that was placed starts inside memory, and none of its writes has failed. -/
theorem place_eq_ok {line : Nat} {r : ObjectRecord} (h : place memory line r = .ok next) :
    r.address < memory.size ∧ writeDigits memory r.address r.digits = .ok next := by
  unfold place at h
  split at h
  case isTrue => cases h
  case isFalse hstart =>
    refine ⟨Nat.lt_of_not_le hstart, ?_⟩
    split at h
    case h_1 written hwritten => rw [hwritten, Except.ok.inj h]
    case h_2 target fault hfault =>
      rw [dif_pos (transfer_of_writeDigits hfault)] at h
      cases h

theorem placeAll_cons {r : Nat × ObjectRecord} {rs : List (Nat × ObjectRecord)}
    (h : placeAll memory (r :: rs) = .ok next) :
    ∃ placed, place memory r.1 r.2 = .ok placed ∧ placeAll placed rs = .ok next :=
  exists_of_bind_eq_ok h

/-- What every write of a byte keeps, a whole load keeps. -/
theorem placeAll_induction {P : Memory → Prop}
    (hwrite : ∀ (m n : Memory) (address value : Int), m.write address value = .ok n → P m → P n)
    {records : List (Nat × ObjectRecord)} (h : placeAll memory records = .ok next) (hmemory : P memory) : P next := by
  induction records generalizing memory with
  | nil => cases h; exact hmemory
  | cons r rs ih =>
    obtain ⟨placed, hplaced, hrest⟩ := placeAll_cons h
    exact ih hrest (writeDigits_induction hwrite (place_eq_ok hplaced).2 hmemory)

/-- Placing records in a memory keeps its record of changes complete. -/
theorem placeAll_tracks (hmemory : memory.Tracks blank) {records : List (Nat × ObjectRecord)}
    (h : placeAll memory records = .ok next) : next.Tracks blank :=
  placeAll_induction (P := fun m => m.Tracks blank) (fun _ _ _ _ hwrite hm => hm.write hwrite) h hmemory

theorem placeAll_ascending (hmemory : memory.Ascending) {records : List (Nat × ObjectRecord)}
    (h : placeAll memory records = .ok next) : next.Ascending := by
  refine placeAll_induction (fun m n address value hwrite hm => ?_) h hmemory
  obtain ⟨-, -, rfl⟩ := Memory.write_eq_ok_iff.1 hwrite
  exact Memory.Ascending.touch (m := m.lay address.toNat [UInt8.ofNat value.toNat]) hm _ _

theorem size_placeAll {records : List (Nat × ObjectRecord)} (h : placeAll memory records = .ok next) :
    next.size = memory.size := by
  refine placeAll_induction (P := fun m => m.size = memory.size) (fun m n address value hwrite hm => ?_) h rfl
  obtain ⟨-, -, rfl⟩ := Memory.write_eq_ok_iff.1 hwrite
  rw [Memory.size_touch, Memory.size_lay, hm]

/-! ### The program -/

/-- Loading does not change the size of the memory. -/
theorem size_load (h : load blank text = .ok p) : p.memory.size = blank.size := by
  obtain ⟨memory, hplace, hmemory, -, -⟩ := exists_placeAll h
  rw [hmemory, Memory.size_clearTouched]
  exact size_placeAll hplace

/-- The words that a loaded program names are all that differ from the memory that it was loaded into. -/
theorem load_tracks (hblank : blank.touched = []) (h : load blank text = .ok p) :
    Memory.Tracks { p.memory.clearTouched with touched := p.touched } blank := by
  obtain ⟨memory, hplace, hmemory, htouched, -⟩ := exists_placeAll h
  rw [hmemory, htouched]
  exact placeAll_tracks (.refl hblank) hplace

/-- The words of a loaded program are named in ascending order. -/
theorem load_ascending (hblank : blank.touched = []) (h : load blank text = .ok p) : p.touched.Pairwise (· < ·) := by
  obtain ⟨memory, hplace, -, htouched, -⟩ := exists_placeAll h
  rw [htouched]
  exact placeAll_ascending (Memory.ascending_of_touched hblank) hplace

theorem min?_address (r : ObjectRecord) (rs : List ObjectRecord) :
    ((r :: rs).map (·.address)).min? = some (entryOf (r :: rs)) := by
  rw [List.map_cons, List.min?_cons', List.foldl_map]
  rfl

/-- The entry point is the address of a record, and no record is in front of it. -/
theorem exists_mem_entryOf {rs : List ObjectRecord} (h : rs ≠ []) : ∃ r ∈ rs, entryOf rs = r.address := by
  obtain ⟨r, rs, rfl⟩ := List.exists_cons_of_ne_nil h
  obtain ⟨s, hs, heq⟩ := List.mem_map.1 (List.min?_eq_some_iff.1 (min?_address r rs)).1
  exact ⟨s, hs, heq.symm⟩

/-- No record lies in front of the entry. -/
theorem entryOf_le {r : ObjectRecord} {rs : List ObjectRecord} (h : r ∈ rs) : entryOf rs ≤ r.address := by
  obtain ⟨first, rest, rfl⟩ := List.exists_cons_of_ne_nil (List.ne_nil_of_mem h)
  exact (List.min?_eq_some_iff.1 (min?_address first rest)).2 _ (List.mem_map_of_mem h)

/-- The entry point of a loaded program is inside memory. -/
theorem entry_lt_size (h : load blank text = .ok p) : p.entry < p.memory.size := by
  obtain ⟨memory, hplace, -, -, hentry⟩ := exists_placeAll h
  rw [size_load h, hentry]
  cases hrecords : recordsOf text.toList with
  | nil => exact blank.size_pos
  | cons r rs =>
    rw [hrecords] at hplace
    obtain ⟨placed, hplaced, -⟩ := placeAll_cons hplace
    exact Nat.lt_of_le_of_lt (entryOf_le List.mem_cons_self) (place_eq_ok hplaced).1

end Program

end Y86
