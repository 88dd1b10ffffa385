import Y86.Proofs.Memory.Bytewise
import Y86.Proofs.ObjectCode.Line
import Y86.Proofs.ObjectCode.Program

/-!
# The image of a program

Loading is exact and all or nothing (`Program.load_image_or_refusal`). If every record of a text fits into memory, the
bytes of the image are those that the last record over them gives, and zero where there is none; the entry point and
the record of touched words are read off the records in the same way (`Program.ImageOf`). Otherwise the first record
that does not fit is named, and nothing is loaded.

What a record gives is said by positions and digits: the byte at a position is the number that the pair of digits
there denotes, and the last pair may be a single digit (`ObjectRecord.pairAt`). This has no part of the recursion by
which the bytes are made (`ObjectRecord.getElem?_bytesOf`).
-/

namespace Y86

open Text

namespace ObjectRecord

variable {r : ObjectRecord} {size i : Nat}

/-- The record has a byte for a position. -/
def Covers (r : ObjectRecord) (i : Nat) : Prop := r.address ≤ i ∧ i < r.address + (r.digits.length + 1) / 2

instance (r : ObjectRecord) (i : Nat) : Decidable (r.Covers i) := inferInstanceAs (Decidable (_ ∧ _))

/-- The number that the digits of a record give for a position. -/
def pairAt (r : ObjectRecord) (i : Nat) : Nat := Hex.value ((r.digits.drop (2 * (i - r.address))).take 2)

/-- All bytes of the record lie inside a memory of a size. -/
def Fits (r : ObjectRecord) (size : Nat) : Prop := r.address + (r.digits.length + 1) / 2 ≤ size

instance (r : ObjectRecord) (size : Nat) : Decidable (r.Fits size) := inferInstanceAs (Decidable (_ ≤ _))

/-! ### The bytes of a record -/

/-- Two digits make a byte, and an odd one at the end makes one of its own. -/
theorem length_bytesOf (ds : List Char) : (bytesOf ds).length = (ds.length + 1) / 2 := by
  fun_induction bytesOf ds with
  | case1 => rfl
  | case2 d => exact (Nat.div_self Nat.two_pos).symm
  | case3 high low rest ih =>
    rw [List.length_cons, ih, List.length_cons, List.length_cons]
    omega

theorem length_bytes (r : ObjectRecord) : r.bytes.length = (r.digits.length + 1) / 2 := length_bytesOf r.digits

/-- A byte has the value of its one or two digits. -/
theorem getElem?_bytesOf (ds : List Char) (k : Nat) (h : k < (ds.length + 1) / 2) :
    (bytesOf ds)[k]? = some (UInt8.ofNat (Hex.value ((ds.drop (2 * k)).take 2))) := by
  fun_induction bytesOf ds generalizing k with
  | case1 => exact absurd h (Nat.not_lt_zero k)
  | case2 d =>
    obtain rfl : k = 0 := by
      rw [List.length_singleton] at h
      omega
    rfl
  | case3 high low rest ih =>
    cases k with
    | zero => rfl
    | succ k =>
      rw [List.length_cons, List.length_cons] at h
      -- a pair that is passed takes two digits
      rw [List.getElem?_cons_succ, ih k (by omega), Nat.mul_succ, List.drop_succ_cons, List.drop_succ_cons]

/-- The byte of a record over a position is told by the digits there. -/
theorem toNat_byte_of_covers (h : r.Covers i) : (r.bytes[i - r.address]?.getD 0).toNat = r.pairAt i := by
  have hpair : r.pairAt i < 256 := Hex.value_lt (List.length_take_le 2 _)
  have hk : i - r.address < (r.digits.length + 1) / 2 := by
    unfold Covers at h
    omega
  unfold bytes
  rw [getElem?_bytesOf r.digits _ hk, Option.getD_some, UInt8.toNat_ofNat']
  exact Nat.mod_eq_of_lt hpair

/-- A record that fits covers positions of memory only. -/
theorem Fits.lt_of_covers (h : r.Fits size) (hi : r.Covers i) : i < size := by
  unfold Fits at h
  unfold Covers at hi
  omega

end ObjectRecord

namespace Program

/-- The last of a list of records that has a byte for a position. -/
def lastOver (rs : List ObjectRecord) (i : Nat) : Option ObjectRecord := rs.reverse.find? fun r => r.Covers i

/-- What the last record over a position gives there, and something else if there is none. -/
def shownOver (rs : List ObjectRecord) (i default : Nat) : Nat := ((lastOver rs i).map (·.pairAt i)).getD default

/-- The records of a text, in the order of its lines. -/
def recordsIn (text : String) : List ObjectRecord := (lines text.toList).filterMap ObjectRecord.ofLine?

/-- The record on a line of a text, counted from zero. -/
def recordOn? (text : String) (k : Nat) : Option ObjectRecord := (lines text.toList)[k]?.bind ObjectRecord.ofLine?

/-- A program is the image of records in a memory of a size. -/
structure ImageOf (p : Program) (size : Nat) (rs : List ObjectRecord) : Prop where
  size_eq : p.memory.size = size
  /-- A byte is what the last record over it gives, and zero if there is none. -/
  byte : ∀ i, (p.memory.byteAt i).toNat = shownOver rs i 0
  /-- The entry point is the lowest address of a record, and zero without records. -/
  entry_nil : rs = [] → p.entry = 0
  entry_mem : rs ≠ [] → ∃ r ∈ rs, p.entry = r.address
  entry_le : ∀ r ∈ rs, p.entry ≤ r.address
  records_eq : p.records = rs.length
  /-- The touched words are those that hold a byte of a record, each named once. -/
  touched_iff : ∀ base, base ∈ p.touched ↔ ∃ r ∈ rs, ∃ i, r.Covers i ∧ base = i / 8 * 8
  touched_nodup : p.touched.Nodup
  /-- The memory itself is left without touched words. -/
  clear : p.memory.touched = []

variable {blank memory next : Memory} {text : String} {p : Program}

/-! ### The records of a text -/

/-- But for their numbers the numbered records are those of the text. -/
theorem map_snd_recordsOf (text : String) : (recordsOf text.toList).map (·.2) = recordsIn text := by
  unfold recordsOf recordsIn
  rw [List.map_filterMap]
  have hline : (fun line : List Char × Nat =>
      Option.map (·.2) ((ObjectRecord.ofLine? line.1).map fun r => (line.2 + 1, r)))
        = fun line => ObjectRecord.ofLine? line.1 := by
    funext line
    rw [Option.map_map]
    exact Option.map_id'
  -- without their numbers the numbered lines are the lines
  calc (lines text.toList).zipIdx.filterMap _
    _ = (lines text.toList).zipIdx.filterMap (ObjectRecord.ofLine? ∘ Prod.fst) := by rw [hline]; rfl
    _ = ((lines text.toList).zipIdx.map Prod.fst).filterMap ObjectRecord.ofLine? := List.filterMap_map.symm
    _ = (lines text.toList).filterMap ObjectRecord.ofLine? := by rw [List.zipIdx_map_fst]

/-- A record bears the number of its line, counted from one. -/
theorem mem_recordsOf {n : Nat} {r : ObjectRecord} :
    (n, r) ∈ recordsOf text.toList ↔ ∃ k, n = k + 1 ∧ recordOn? text k = some r := by
  unfold recordsOf recordOn?
  rw [List.mem_filterMap]
  constructor
  · rintro ⟨⟨line, k⟩, hmem, hline⟩
    obtain ⟨r', hr', heq⟩ := Option.map_eq_some_iff.1 hline
    cases heq
    exact ⟨k, rfl, Option.bind_eq_some_iff.2 ⟨line, List.mk_mem_zipIdx_iff_getElem?.1 hmem, hr'⟩⟩
  · rintro ⟨k, rfl, hk⟩
    obtain ⟨line, hline, hr⟩ := Option.bind_eq_some_iff.1 hk
    exact ⟨(line, k), List.mk_mem_zipIdx_iff_getElem?.2 hline, Option.map_eq_some_iff.2 ⟨r, hr, rfl⟩⟩

/-- Records come in the order of their lines. -/
theorem pairwise_recordsOf (cs : List Char) : (recordsOf cs).Pairwise (fun a b => a.1 < b.1) := by
  have hnumbers : (lines cs).zipIdx.Pairwise (fun a b => a.2 < b.2) := by
    rw [← List.pairwise_map (f := Prod.snd) (R := fun k k' : Nat => k < k'), List.zipIdx_map_snd]
    exact List.pairwise_lt_range' 1
  unfold recordsOf
  refine List.pairwise_filterMap.2 (hnumbers.imp ?_)
  intro line line' hlt a ha a' ha'
  obtain ⟨r, -, rfl⟩ := Option.map_eq_some_iff.1 ha
  obtain ⟨r', -, rfl⟩ := Option.map_eq_some_iff.1 ha'
  exact Nat.succ_lt_succ hlt

/-! ### One record after the other -/

/-- Why a record that does not fit is refused. -/
def refusal (line : Nat) (r : ObjectRecord) (size : Nat) : LoadError :=
  if size ≤ r.address then .start line r.address else .extent line size

/-- The memory behind a record that was let through. -/
def laid (memory : Memory) (r : ObjectRecord) : Memory :=
  (memory.lay r.address r.bytes).touch r.address r.bytes.length

theorem size_laid (memory : Memory) (r : ObjectRecord) : (laid memory r).size = memory.size := by
  rw [laid, Memory.size_touch, Memory.size_lay]

/-- A record that is laid over a memory shows where it covers it. -/
theorem toNat_byteAt_laid {r : ObjectRecord} (h : r.Fits memory.size) (i : Nat) :
    ((laid memory r).byteAt i).toNat = if r.Covers i then r.pairAt i else (memory.byteAt i).toNat := by
  rw [laid, Memory.byteAt_touch, Memory.byteAt_lay, r.length_bytes]
  by_cases hi : r.Covers i
  · rw [if_pos hi, if_pos ⟨hi.1, hi.2, h.lt_of_covers hi⟩]
    exact ObjectRecord.toNat_byte_of_covers hi
  · rw [if_neg hi, if_neg fun h => hi ⟨h.1, h.2.1⟩]

/-- The words that a record touches are those of the positions that it covers. -/
theorem mem_touched_laid {r : ObjectRecord} (hr : r.digits ≠ []) {base : Nat} :
    base ∈ (laid memory r).touched ↔ base ∈ memory.touched ∨ ∃ i, r.Covers i ∧ base = i / 8 * 8 := by
  have hpos : 0 < r.bytes.length := by
    have hdigits := List.length_pos_iff.2 hr
    rw [r.length_bytes]
    omega
  rw [laid, Memory.mem_touched_touch, or_comm]
  refine or_congr Iff.rfl ⟨fun hmet => ?_, ?_⟩
  · -- a word that is met holds a byte of the record, and is the word of that byte
    obtain ⟨i, hi, hlo, hhi⟩ := Memory.exists_byte_of_mem_wordsMet hpos hmet
    have haligned := Memory.mod_of_mem_wordsMet hmet
    unfold Memory.wordSize at hhi haligned
    rw [r.length_bytes] at hi
    exact ⟨r.address + i, ⟨Nat.le_add_right _ _, by omega⟩, by omega⟩
  · rintro ⟨i, hi, rfl⟩
    refine Memory.word_mem_wordsMet hi.1 ?_
    rw [r.length_bytes]
    exact hi.2

/-! The writes of a record, one after the other. -/

section Writes

variable {target : Nat} {digits : List Char}

/-- A pair of digits is written if its address lies inside memory. -/
theorem write_pair_of_lt (pair : List Char) (hpair : pair.length ≤ 2) (h : target < memory.size) :
    memory.write target (Hex.value pair)
      = .ok ((memory.lay target [UInt8.ofNat (Hex.value pair)]).touch target 1) := by
  have hvalue := Hex.value_lt hpair
  exact Memory.write_eq_ok_iff.2 ⟨⟨Int.natCast_nonneg _, by omega⟩, ⟨Int.natCast_nonneg _, by omega⟩, rfl⟩

/-- At the end of memory the write of a pair fails. -/
theorem write_pair_at_size (pair : List Char) (hpair : pair.length ≤ 2) :
    memory.write memory.size (Hex.value pair) = .error (.transfer .write memory.size memory.size) := by
  have hvalue := Hex.value_lt hpair
  cases hw : memory.write memory.size (Hex.value pair) with
  | ok next =>
    have hroom := (Memory.write_eq_ok_iff.1 hw).1.2
    omega
  | error fault => rw [(Memory.write_eq_error ⟨by omega, by omega⟩ hw).2]

/-- The writes of digits whose bytes all lie inside memory lay these bytes over it, and record them as one stretch. -/
theorem writeDigits_of_room (hdigits : digits ≠ []) (h : target + (digits.length + 1) / 2 ≤ memory.size) :
    writeDigits memory target digits
      = .ok ((memory.lay target (ObjectRecord.bytesOf digits)).touch target (ObjectRecord.bytesOf digits).length) := by
  fun_induction writeDigits memory target digits with
  | case1 => exact absurd rfl hdigits
  | case2 memory target d =>
    rw [List.length_singleton] at h
    -- a single digit behind the pairs is a byte of its own
    rw [write_pair_of_lt [d] (Nat.le_succ 1) (by omega)]
    rfl
  | case3 memory target high low rest ih =>
    rw [List.length_cons, List.length_cons] at h
    rw [write_pair_of_lt [high, low] (Nat.le_refl 2) (by omega)]
    cases rest with
    | nil => rfl
    | cons d rest =>
      refine (ih _ (List.cons_ne_nil d rest) ?_).trans (congrArg Except.ok ?_)
      · rw [Memory.size_touch, Memory.size_lay]
        omega
      · -- the byte of the first pair and the stretch behind it are one stretch
        have hpos : 0 < (ObjectRecord.bytesOf (d :: rest)).length := by
          rw [ObjectRecord.length_bytesOf, List.length_cons]
          omega
        have hlay := memory.lay_cons target (UInt8.ofNat (Hex.value [high, low])) (ObjectRecord.bytesOf (d :: rest))
        rw [ObjectRecord.bytesOf, List.length_cons, ← hlay, ← Memory.touch_cons _ _ hpos]
        rfl

/-- Where the bytes run over the end of memory, it is the write at the end that fails. -/
theorem writeDigits_of_no_room (hstart : target ≤ memory.size)
    (h : memory.size < target + (digits.length + 1) / 2) :
    writeDigits memory target digits = .error (memory.size, .transfer .write memory.size memory.size) := by
  fun_induction writeDigits memory target digits with
  | case1 memory target =>
    rw [List.length_nil] at h
    omega
  | case2 memory target d =>
    obtain rfl : target = memory.size := by
      rw [List.length_singleton] at h
      omega
    rw [write_pair_at_size [d] (Nat.le_succ 1)]
    rfl
  | case3 memory target high low rest ih =>
    rw [List.length_cons, List.length_cons] at h
    -- the pair is written inside memory, or it is the first one at the end
    rcases Nat.lt_or_eq_of_le hstart with hlt | rfl
    · rw [write_pair_of_lt [high, low] (Nat.le_refl 2) hlt]
      -- the bytes written so far leave the end of memory where it is
      have hsize : ((memory.lay target [UInt8.ofNat (Hex.value [high, low])]).touch target 1).size = memory.size := by
        rw [Memory.size_touch, Memory.size_lay]
      have hrest := ih ((memory.lay target [UInt8.ofNat (Hex.value [high, low])]).touch target 1)
      rw [hsize] at hrest
      exact hrest hlt (by omega)
    · rw [write_pair_at_size [high, low] (Nat.le_refl 2)]
      rfl

end Writes

/-- A record is placed if it fits. Neither the look at its address nor a write then fails. -/
theorem place_of_fits (line : Nat) {r : ObjectRecord} (hr : r.digits ≠ []) (h : r.Fits memory.size) :
    place memory line r = .ok (laid memory r) := by
  have hpos := List.length_pos_iff.2 hr
  have hwritten : writeDigits memory r.address r.digits = .ok (laid memory r) := writeDigits_of_room hr h
  unfold ObjectRecord.Fits at h
  unfold place
  rw [if_neg (by omega)]
  split
  case h_1 written heq => exact congrArg Except.ok (Except.ok.inj (heq.symm.trans hwritten))
  case h_2 target fault heq => cases heq.symm.trans hwritten

/-- A record that does not fit is refused: for its address, if that lies outside memory, and else for the fault of the
write at the end of memory. -/
theorem place_of_not_fits {line : Nat} {r : ObjectRecord} (h : ¬r.Fits memory.size) :
    place memory line r = .error (refusal line r memory.size) := by
  unfold ObjectRecord.Fits at h
  unfold place refusal
  split
  case isTrue => rfl
  case isFalse hstart =>
    -- a record that begins inside memory fails at the first byte behind it
    have hfault : writeDigits memory r.address r.digits
        = .error (memory.size, .transfer .write memory.size memory.size) :=
      writeDigits_of_no_room (Nat.le_of_not_le hstart) (by omega)
    split
    case h_1 written heq => cases heq.symm.trans hfault
    case h_2 target fault heq =>
      cases heq.symm.trans hfault
      rfl

/-- A record that fits is laid over memory, and the others after it. -/
theorem placeAll_cons_of_fits {r : Nat × ObjectRecord} {rs : List (Nat × ObjectRecord)} (hr : r.2.digits ≠ [])
    (h : r.2.Fits memory.size) : placeAll memory (r :: rs) = placeAll (laid memory r.2) rs := by
  rw [placeAll, place_of_fits r.1 hr h]
  rfl

/-- The first record that does not fit is the one that is refused. -/
theorem placeAll_cons_of_not_fits {r : Nat × ObjectRecord} {rs : List (Nat × ObjectRecord)}
    (h : ¬r.2.Fits memory.size) : placeAll memory (r :: rs) = .error (refusal r.1 r.2 memory.size) := by
  rw [placeAll, place_of_not_fits h]
  rfl

/-! ### All records -/

/-- A record shows through where no later one covers it. -/
theorem lastOver_cons (r : ObjectRecord) (rs : List ObjectRecord) (i : Nat) :
    lastOver (r :: rs) i = (lastOver rs i).or (if r.Covers i then some r else none) := by
  unfold lastOver
  rw [List.reverse_cons, List.find?_append]
  congr 1
  by_cases hi : r.Covers i
  · rw [if_pos hi]
    exact List.find?_cons_of_pos (decide_eq_true hi)
  · rw [if_neg hi]
    exact List.find?_cons_of_neg (by rwa [decide_eq_true_eq])

/-- The last record over a position is one of them, and covers it. -/
theorem mem_of_lastOver {rs : List ObjectRecord} {r : ObjectRecord} {i : Nat} (h : lastOver rs i = some r) :
    r ∈ rs ∧ r.Covers i := by
  unfold lastOver at h
  have hcovers := List.find?_some h
  exact ⟨List.mem_reverse.1 (List.mem_of_find?_eq_some h), of_decide_eq_true hcovers⟩

/-- There is none exactly if no record covers the position. -/
theorem lastOver_eq_none_iff {rs : List ObjectRecord} {i : Nat} : lastOver rs i = none ↔ ∀ r ∈ rs, ¬r.Covers i := by
  unfold lastOver
  simp only [List.find?_eq_none, List.mem_reverse, decide_eq_true_eq]

/-- What records show over a position is shown over what the first one shows there. -/
theorem shownOver_cons (r : ObjectRecord) (rs : List ObjectRecord) (i default : Nat) :
    shownOver (r :: rs) i default = shownOver rs i (if r.Covers i then r.pairAt i else default) := by
  unfold shownOver
  rw [lastOver_cons]
  cases lastOver rs i with
  | some r' => rfl
  | none => split <;> rfl

/-- Records that all fit are laid one over the other; the last one over a position shows there. -/
theorem exists_placeAll_of_fits {records : List (Nat × ObjectRecord)}
    (hdigits : ∀ r ∈ records, r.2.digits ≠ []) (hfits : ∀ r ∈ records, r.2.Fits memory.size) :
    ∃ next, placeAll memory records = .ok next ∧
      (∀ i, (next.byteAt i).toNat = shownOver (records.map (·.2)) i (memory.byteAt i).toNat) ∧
      ∀ base, base ∈ next.touched ↔
        base ∈ memory.touched ∨ ∃ r ∈ records, ∃ i, r.2.Covers i ∧ base = i / 8 * 8 := by
  induction records generalizing memory with
  | nil => exact ⟨memory, rfl, fun i => rfl, fun base => by simp⟩
  | cons r rs ih =>
    obtain ⟨hr, hrs⟩ := List.forall_mem_cons.1 hdigits
    obtain ⟨hfit, hrest⟩ := List.forall_mem_cons.1 hfits
    rw [← size_laid memory r.2] at hrest
    obtain ⟨next, hnext, hbyte, htouched⟩ := ih hrs hrest
    refine ⟨next, (placeAll_cons_of_fits hr hfit).trans hnext, fun i => ?_, fun base => ?_⟩
    · -- a later record over the position hides this one, and this one hides the memory
      rw [hbyte, List.map_cons, shownOver_cons, toNat_byteAt_laid hfit]
    · -- the words met are those of this record and those of the others
      rw [htouched, mem_touched_laid hr, or_assoc]
      simp only [List.mem_cons, exists_eq_or_imp]

/-- The first record that does not fit ends a load. -/
theorem exists_placeAll_eq_error {records : List (Nat × ObjectRecord)} (hdigits : ∀ r ∈ records, r.2.digits ≠ [])
    (h : ∃ r ∈ records, ¬r.2.Fits memory.size) :
    ∃ before bad behind, records = before ++ bad :: behind ∧ (∀ r ∈ before, r.2.Fits memory.size) ∧
      ¬bad.2.Fits memory.size ∧ placeAll memory records = .error (refusal bad.1 bad.2 memory.size) := by
  induction records generalizing memory with
  | nil =>
    obtain ⟨r, hr, -⟩ := h
    cases hr
  | cons r rs ih =>
    obtain ⟨hr, hrs⟩ := List.forall_mem_cons.1 hdigits
    by_cases hfit : r.2.Fits memory.size
    · -- the record is laid, and one of the others does not fit
      have hrest : ∃ r ∈ rs, ¬r.2.Fits memory.size := by
        obtain ⟨bad, hbad, hnot⟩ := h
        rcases List.mem_cons.1 hbad with rfl | hbad
        · exact absurd hfit hnot
        · exact ⟨bad, hbad, hnot⟩
      rw [← size_laid memory r.2] at hrest
      obtain ⟨before, bad, behind, rfl, hbefore, hnot, herror⟩ := ih hrs hrest
      rw [size_laid] at hbefore hnot herror
      exact ⟨r :: before, bad, behind, rfl, List.forall_mem_cons.2 ⟨hfit, hbefore⟩, hnot,
        (placeAll_cons_of_fits hr hfit).trans herror⟩
    · -- nothing is in front of the first misfit
      exact ⟨[], r, rs, rfl, List.forall_mem_nil _, hfit, placeAll_cons_of_not_fits hfit⟩

/-- A line without digits holds no record. -/
theorem digits_ne_nil_of_mem {r : Nat × ObjectRecord} (h : r ∈ recordsOf text.toList) : r.2.digits ≠ [] := by
  obtain ⟨k, -, hk⟩ := mem_recordsOf.1 (show (r.1, r.2) ∈ _ from h)
  obtain ⟨line, -, hline⟩ := Option.bind_eq_some_iff.1 hk
  exact ObjectRecord.digits_ne_nil hline

/-! ### The whole text -/

/-- Records that are all placed make a program. -/
theorem load_of_placeAll (h : placeAll blank (recordsOf text.toList) = .ok memory) :
    load blank text = .ok
      { memory := memory.clearTouched
        entry := entryOf (recordsIn text)
        touched := memory.touched
        records := (recordsIn text).length } := by
  rw [← map_snd_recordsOf, List.length_map]
  unfold load
  dsimp only
  rw [h]
  rfl

/-- A record that is refused is the error of the text. -/
theorem load_of_placeAll_eq_error {e : LoadError} (h : placeAll blank (recordsOf text.toList) = .error e) :
    load blank text = .error e := by
  unfold load
  dsimp only
  rw [h]
  rfl

theorem byteAt_zeros (size : Nat) (h : 0 < size) (i : Nat) : (Memory.zeros size h).byteAt i = 0 := by
  change (((Array.replicate size (0 : UInt8))[i]?).getD 0) = 0
  rw [Array.getElem?_replicate]
  split <;> rfl

/-- A text whose records all fit is loaded, and the program is their image. -/
theorem exists_load_of_fits {size : Nat} (hsize : 0 < size) (h : ∀ r ∈ recordsIn text, r.Fits size) :
    ∃ p, load (.zeros size hsize) text = .ok p ∧ p.ImageOf size (recordsIn text) := by
  have hsnd := map_snd_recordsOf text
  have hblank : (Memory.zeros size hsize).size = size := Memory.size_zeros size hsize
  have hfits : ∀ r ∈ recordsOf text.toList, r.2.Fits (Memory.zeros size hsize).size := by
    intro r hr
    rw [hblank]
    exact h r.2 (hsnd ▸ List.mem_map_of_mem (f := (·.2)) hr)
  -- all records are laid over the blank memory, and only then is the record of changes cleared
  obtain ⟨memory, hplace, hbyte, htouched⟩ := exists_placeAll_of_fits (fun _ => digits_ne_nil_of_mem) hfits
  have hload := load_of_placeAll hplace
  refine ⟨_, hload, ?_⟩
  rw [hsnd] at hbyte
  exact
    { size_eq := (size_load hload).trans hblank
      byte := fun i => by
        rw [Memory.byteAt_clearTouched, hbyte, byteAt_zeros]
        rfl
      entry_nil := fun hnil => by
        dsimp only
        rw [hnil]
        rfl
      entry_mem := exists_mem_entryOf
      entry_le := fun r => entryOf_le
      records_eq := rfl
      touched_iff := fun base => by
        have hnone : base ∉ (Memory.zeros size hsize).touched := List.not_mem_nil
        rw [htouched, or_iff_right hnone, ← hsnd]
        -- the records with the numbers of their lines are the records
        constructor
        · rintro ⟨r, hr, hbase⟩
          exact ⟨r.2, List.mem_map_of_mem hr, hbase⟩
        · rintro ⟨r, hr, hbase⟩
          obtain ⟨numbered, hmem, rfl⟩ := List.mem_map.1 hr
          exact ⟨numbered, hmem, hbase⟩
      touched_nodup := (load_ascending rfl hload).imp Nat.ne_of_lt
      clear := rfl }

/-- A text with a record that does not fit is refused for the first line with such a record. -/
theorem exists_load_eq_refusal {size : Nat} (hsize : 0 < size) (h : ∃ r ∈ recordsIn text, ¬r.Fits size) :
    ∃ k r, recordOn? text k = some r ∧ ¬r.Fits size ∧ (∀ j < k, ∀ r', recordOn? text j = some r' → r'.Fits size) ∧
      load (.zeros size hsize) text = .error (refusal (k + 1) r size) := by
  have hblank : (Memory.zeros size hsize).size = size := Memory.size_zeros size hsize
  have hmisfit : ∃ r ∈ recordsOf text.toList, ¬r.2.Fits (Memory.zeros size hsize).size := by
    obtain ⟨r, hr, hnot⟩ := h
    rw [← map_snd_recordsOf] at hr
    obtain ⟨numbered, hmem, rfl⟩ := List.mem_map.1 hr
    exact ⟨numbered, hmem, by rwa [hblank]⟩
  -- the lines in front of the first misfit fit
  obtain ⟨before, bad, behind, hsplit, hbefore, hnot, herror⟩ :=
    exists_placeAll_eq_error (fun _ => digits_ne_nil_of_mem) hmisfit
  rw [hblank] at hbefore hnot herror
  have hbad : (bad.1, bad.2) ∈ recordsOf text.toList := hsplit ▸ List.mem_append_right before List.mem_cons_self
  obtain ⟨k, hk, hon⟩ := mem_recordsOf.1 hbad
  refine ⟨k, bad.2, hon, hnot, fun j hj r' hr' => ?_, ?_⟩
  · -- the record of an earlier line has a smaller number, so it stands in front of the first misfit
    have hmem : (j + 1, r') ∈ recordsOf text.toList := mem_recordsOf.2 ⟨j, rfl, hr'⟩
    have horder := pairwise_recordsOf text.toList
    rw [hsplit] at hmem horder
    have hbehind := (List.pairwise_cons.1 (List.pairwise_append.1 horder).2.1).1
    rcases List.mem_append.1 hmem with hfront | hrest
    · exact hbefore _ hfront
    · rcases List.mem_cons.1 hrest with heq | hlater
      · rw [← heq] at hk
        dsimp only at hk
        omega
      · have hlt := hbehind _ hlater
        dsimp only at hlt
        omega
  · rw [← hk]
    exact load_of_placeAll_eq_error herror

/-- **Loading is exact and all or nothing.** A text is loaded into a memory of zeros if all its records fit, and the
program is then the image of just these records. Otherwise the load fails with the status of an address fault, for the
first line whose record does not fit: the line is named by its number, counted from one, and beside it stands the
address of the record if that lies outside memory, and else the end of memory. -/
theorem load_image_or_refusal (size : Nat) (hsize : 0 < size) (text : String) :
    ((∀ r ∈ recordsIn text, r.Fits size) →
      ∃ p, load (.zeros size hsize) text = .ok p ∧ p.ImageOf size (recordsIn text)) ∧
    ((∃ r ∈ recordsIn text, ¬r.Fits size) →
      ∃ k r e, recordOn? text k = some r ∧ ¬r.Fits size ∧
        (∀ j < k, ∀ r', recordOn? text j = some r' → r'.Fits size) ∧
        load (.zeros size hsize) text = .error e ∧ e.status = .adr ∧
        e = (if size ≤ r.address then .start (k + 1) r.address else .extent (k + 1) size) ∧
        e.message = (if size ≤ r.address then "Program address out of range on line "
            else "Program exceeds memory on line ")
          ++ toString (k + 1) ++ ": " ++ Hex.marked (if size ≤ r.address then r.address else size)) := by
  refine ⟨exists_load_of_fits hsize, fun hmisfit => ?_⟩
  obtain ⟨k, r, hon, hnot, hearlier, hload⟩ := exists_load_eq_refusal hsize hmisfit
  refine ⟨k, r, _, hon, hnot, hearlier, hload, rfl, rfl, ?_⟩
  -- each of the two causes has its own wording
  unfold refusal
  split <;> rfl

/-- Records over one another, the later one at a lower address and with an odd last digit for the last byte of memory; and
a record that starts inside memory and ends one byte behind it, on the third line of its text. -/
theorem load_image_or_refusal_overlap :
    let text := "0x002: abcd\n0x001: eef07"
    let tooLong := "0x0: 00\n# 0x9: 00\n0x003: 1234\n0x009: 00"
    (∃ p, load (.zeros 4 (by decide)) text = .ok p ∧
      p.ImageOf 4 [⟨2, ['a', 'b', 'c', 'd']⟩, ⟨1, ['e', 'e', 'f', '0', '7']⟩]) ∧
    load (.zeros 4 (by decide)) tooLong = .error (.extent 3 4) := by
  intro text tooLong
  have hsize : 0 < 4 := by decide
  constructor
  · have hrecords : recordsIn text = [⟨2, ['a', 'b', 'c', 'd']⟩, ⟨1, ['e', 'e', 'f', '0', '7']⟩] := by decide +kernel
    have hfits : ∀ r ∈ recordsIn text, r.Fits 4 := by
      rw [hrecords]
      decide
    obtain ⟨p, hload, himage⟩ := (load_image_or_refusal 4 hsize text).1 hfits
    rw [hrecords] at himage
    exact ⟨p, hload, himage⟩
  · have hfirst : (recordOn? tooLong 0).all (·.Fits 4) = true := by decide +kernel
    have hsecond : recordOn? tooLong 1 = none := by decide +kernel
    have hthird : recordOn? tooLong 2 = some ⟨3, ['1', '2', '3', '4']⟩ := by decide +kernel
    have hmisfit : ∃ r ∈ recordsIn tooLong, ¬r.Fits 4 := by decide +kernel
    obtain ⟨k, r, e, hon, hnot, hearlier, hload, -, he, -⟩ := (load_image_or_refusal 4 hsize tooLong).2 hmisfit
    -- the first record fits and the second line is a remark, so it is the third line
    match k with
    | 0 =>
      rw [hon] at hfirst
      exact absurd (of_decide_eq_true hfirst) hnot
    | 1 => cases hsecond.symm.trans hon
    | 2 =>
      cases hthird.symm.trans hon
      rwa [he] at hload
    | k + 3 => exact absurd (hearlier 2 (by omega) _ hthird) (by decide)

end Program

end Y86
