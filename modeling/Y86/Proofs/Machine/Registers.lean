import Y86.Register

/-!
# Register files by their values

A register file is determined by the values that it shows (`RegisterFile.ext_get`), and listing them loses nothing
(`RegisterFile.ofList_toList`).

One assignment is either refused or sets one register (`RegisterFile.get_after`). So a register keeps its value as long
as none is assigned to it (`RegisterFile.get_afterAll_of_forall_ne`), and everything in front of the last assignment to it
is forgotten (`RegisterFile.get_afterAll_last`). A file that is made from a list of values is the file of zeros behind the
assignments of these values, and so the same lemmas tell what it shows (`RegisterFile.get_ofList`).
-/

namespace Y86

/-- Every code below fifteen is that of a register. -/
theorem Register.exists_index {i : Nat} (h : i < 15) : ∃ r : Register, (r.index : Nat) = i := by
  have hget : ∀ i : Fin 15, ((Register.all.get i).index : Nat) = i := by decide
  exact ⟨_, hget ⟨i, h⟩⟩

namespace RegisterFile

variable {r : Register}

/-- A register file is told by what its registers hold. -/
theorem ext_get {f g : RegisterFile} (h : ∀ r, f.get r = g.get r) : f = g := by
  obtain ⟨v⟩ := f
  obtain ⟨w⟩ := g
  congr 1
  -- every position is that of a register
  refine Vector.ext fun i hi => ?_
  obtain ⟨r, rfl⟩ := Register.exists_index hi
  exact Int64.toInt.inj (h r)

/-- Storing the value that a register has changes nothing. -/
theorem set_get_self (f : RegisterFile) (r : Register) : f.set r (f.get r) = f := by
  refine ext_get fun s => ?_
  by_cases hs : r = s
  · subst hs
    rw [get_set_self, Word.signed_of_inRange (f.get_inRange r)]
  · rw [get_set_of_ne f hs]

@[simp] theorem length_toList (f : RegisterFile) : f.toList.length = 15 := rfl

/-- The values are listed by the codes of the registers. -/
theorem getElem?_toList (f : RegisterFile) (r : Register) : f.toList[(r.index : Nat)]? = some (f.get r) := by
  cases r <;> rfl

/-- Storing a value replaces it in the list. -/
theorem toList_set (f : RegisterFile) (r : Register) (value : Int) :
    (f.set r value).toList = f.toList.set r.index (Word.signed value) := by
  refine List.ext_getElem? fun i => ?_
  by_cases hi : i < 15
  · obtain ⟨s, rfl⟩ := Register.exists_index hi
    rw [getElem?_toList, List.getElem?_set]
    by_cases hrs : r = s
    · subst hrs
      rw [if_pos rfl, length_toList, if_pos hi, get_set_self]
    · have hne : (r.index : Nat) ≠ s.index := fun e => hrs (Register.index_injective (Fin.ext e))
      rw [if_neg hne, getElem?_toList, get_set_of_ne f hrs]
  · rw [List.getElem?_eq_none (by rw [length_toList]; omega),
      List.getElem?_eq_none (by rw [List.length_set, length_toList]; omega)]

/-! ### Assignments -/

/-- A value that is to be stored where a register field says. -/
structure Assignment where
  field : Option Register
  value : Int
  deriving DecidableEq, Repr

/-- The file behind an assignment; one to an empty field is refused and leaves the file as it is. -/
def after (f : RegisterFile) (c : Assignment) : RegisterFile :=
  match f.write c.value c.field with
  | .ok g => g
  | .error _ => f

/-- The file behind a sequence of assignments. -/
def afterAll (f : RegisterFile) (cs : List Assignment) : RegisterFile := cs.foldl after f

/-- One assignment writes the register of its field, if there is one. -/
theorem get_after (f : RegisterFile) (c : Assignment) (r : Register) :
    (f.after c).get r = if c.field = some r then Word.signed c.value else f.get r := by
  obtain ⟨field, value⟩ := c
  cases field with
  | none => rfl
  | some s =>
    change (f.set s value).get r = _
    by_cases hs : s = r
    · rw [if_pos (congrArg some hs), ← hs, get_set_self]
    · rw [if_neg fun h => hs (Option.some.inj h), get_set_of_ne f hs]

theorem afterAll_cons (f : RegisterFile) (c : Assignment) (cs : List Assignment) :
    f.afterAll (c :: cs) = (f.after c).afterAll cs := rfl

theorem afterAll_append (f : RegisterFile) (cs ds : List Assignment) :
    f.afterAll (cs ++ ds) = (f.afterAll cs).afterAll ds := List.foldl_append

/-- A register keeps its value as long as none is assigned to it. -/
theorem get_afterAll_of_forall_ne {cs : List Assignment} (h : ∀ c ∈ cs, c.field ≠ some r) (f : RegisterFile) :
    (f.afterAll cs).get r = f.get r := by
  induction cs generalizing f with
  | nil => rfl
  | cons c cs ih =>
    rw [afterAll_cons, ih (fun d hd => h d (List.mem_cons_of_mem c hd)), get_after,
      if_neg (h c List.mem_cons_self)]

/-- Only the last value that is assigned to a register counts, and of this only the word. -/
theorem get_afterAll_last {later : List Assignment} (h : ∀ c ∈ later, c.field ≠ some r) (f : RegisterFile)
    (earlier : List Assignment) (value : Int) :
    (f.afterAll (earlier ++ ⟨some r, value⟩ :: later)).get r = Word.signed value := by
  rw [afterAll_append, afterAll_cons, get_afterAll_of_forall_ne h, get_after, if_pos rfl]

/-! ### Files from lists of values -/

/-- The assignments of values to registers in turn, until either are used up. -/
def assignments (rs : List Register) (values : List Int) : List Assignment :=
  (rs.zip values).map fun rv => ⟨some rv.1, rv.2⟩

/-- Values in a list are assigned one after the other. -/
theorem ofList_eq_afterAll (values : List Int) : ofList values = zeros.afterAll (assignments Register.all values) := by
  unfold afterAll assignments
  rw [List.foldl_map]
  rfl

/-- A register that is not listed is not assigned to. -/
theorem field_ne_of_not_mem {rs : List Register} (hr : r ∉ rs) (values : List Int) :
    ∀ c ∈ assignments rs values, c.field ≠ some r := by
  intro c hc hfield
  obtain ⟨rv, hrv, rfl⟩ := List.mem_map.1 hc
  cases hfield
  exact hr (List.of_mem_zip hrv).1

/-- Of different registers, each is assigned the value at its own place, if there is one. -/
theorem get_afterAll_assignments {rs : List Register} (hrs : rs.Nodup) {i : Nat} (hr : rs[i]? = some r)
    (values : List Int) (f : RegisterFile) :
    (f.afterAll (assignments rs values)).get r = (values[i]?).elim (f.get r) Word.signed := by
  induction rs generalizing i values f with
  | nil => cases hr
  | cons s rs ih =>
    obtain ⟨hs, hrs⟩ := List.nodup_cons.1 hrs
    cases values with
    | nil => rfl
    | cons value values =>
      change ((f.after ⟨some s, value⟩).afterAll (assignments rs values)).get r = _
      cases i with
      | zero =>
        cases hr
        -- the register is not among the rest, and keeps what it is assigned first
        rw [get_afterAll_of_forall_ne (field_ne_of_not_mem hs values), get_after, if_pos rfl]
        rfl
      | succ i =>
        have hne : s ≠ r := fun h => hs (h ▸ List.mem_of_getElem? hr)
        rw [ih hrs hr, get_after, if_neg fun h => hne (Option.some.inj h), List.getElem?_cons_succ]

theorem get_zeros (r : Register) : zeros.get r = 0 := by cases r <;> rfl

/-- A file that is made from a list shows the words of its values, and zero where there is none. -/
theorem get_ofList (values : List Int) (r : Register) :
    (ofList values).get r = Word.signed (values.getD r.index 0) := by
  rw [ofList_eq_afterAll, get_afterAll_assignments (by decide) (Register.ofCode?_index r), List.getD_eq_getElem?_getD]
  cases values[(r.index : Nat)]? with
  | none => exact get_zeros r
  | some value => rfl

/-- Listing the values of a file and reading them back gives the file. -/
@[simp] theorem ofList_toList (f : RegisterFile) : ofList f.toList = f := by
  refine ext_get fun r => ?_
  rw [get_ofList, List.getD_eq_getElem?_getD, getElem?_toList]
  exact Word.signed_of_inRange (f.get_inRange r)

end RegisterFile

end Y86
