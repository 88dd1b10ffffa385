import Mathlib.Data.List.Nodup
import Y86.Breakpoint.Table
import Y86.Trace.Basic

/-!
# Checking a breakpoint table

A table holds at most one breakpoint for an address (`BreakpointTable.Keyed`), and every request keeps it so. A run that
has come to an entry of a trace is therefore stopped by one breakpoint at most: a check finds it exactly if there is
one (`Keyed.stopping?_eq_some_iff`), and counts it and no other (`Keyed.insert_counted`). What a table stops at does not
depend on what it has counted (`stopsAt_visited`).
-/

namespace Y86

namespace Breakpoint

/-- Whether a breakpoint stops a run that has come to an entry: the entry is at its address, it is enabled, and its
trigger fires on the registers of the entry. -/
def stopsAt (b : Breakpoint) (e : TraceEntry) : Bool := decide (b.address = e.pc) && b.stops (.ofList e.registers)

@[simp] theorem address_counted (b : Breakpoint) : b.counted.address = b.address := rfl

/-- A breakpoint stops at an entry by its address, and by the registers that the entry shows. -/
theorem stopsAt_iff {b : Breakpoint} {e : TraceEntry} :
    b.stopsAt e = true ↔ b.address = e.pc ∧ b.stops (.ofList e.registers) = true := by
  rw [stopsAt, Bool.and_eq_true, decide_eq_true_eq]

end Breakpoint

namespace BreakpointTable

/-- No two breakpoints have the same address. -/
def Keyed (t : BreakpointTable) : Prop := (t.all.map (·.address)).Nodup

instance (t : BreakpointTable) : Decidable t.Keyed := inferInstanceAs (Decidable (List.Nodup _))

variable {t : BreakpointTable} {b c : Breakpoint}

/-- The address tells breakpoints of a table apart. -/
theorem Keyed.eq_of_address (h : t.Keyed) (hb : b ∈ t.all) (hc : c ∈ t.all) (hbc : b.address = c.address) : b = c :=
  List.inj_on_of_nodup_map h hb hc hbc

/-! ### Requests -/

theorem keyed_empty : Keyed {} := List.nodup_nil

/-- A breakpoint that is put into a list keeps the addresses, or adds its own at the end. -/
theorem map_address_put (b : Breakpoint) (bs : List Breakpoint) :
    (put b bs).map (·.address) =
      if b.address ∈ bs.map (·.address) then bs.map (·.address) else bs.map (·.address) ++ [b.address] := by
  induction bs with
  | nil => rfl
  | cons c cs ih =>
    unfold put
    by_cases hc : c.address = b.address
    · -- the breakpoint takes the place of `c`
      rw [if_pos hc, List.map_cons, List.map_cons, hc, if_pos List.mem_cons_self]
    · have hmem : b.address ∈ (c :: cs).map (·.address) ↔ b.address ∈ cs.map (·.address) := by
        rw [List.map_cons, List.mem_cons, or_iff_right (Ne.symm hc)]
      rw [if_neg hc, List.map_cons, ih, if_congr hmem rfl rfl]
      split <;> rfl

/-- A breakpoint that is stored takes the place of the one at its address, if there is one. -/
theorem Keyed.insert (h : t.Keyed) (b : Breakpoint) : (t.insert b).Keyed := by
  unfold Keyed BreakpointTable.insert
  rw [map_address_put]
  split
  case isTrue => exact h
  case isFalse hb => exact List.nodup_append.2 ⟨h, List.nodup_singleton _, fun a ha c hc => by
    rintro rfl
    exact hb (List.mem_singleton.1 hc ▸ ha)⟩

/-- One that is refused is not stored at all. -/
theorem Keyed.add (h : t.Keyed) (address : Int) (condition : Option String) (stamp : Nat) :
    (t.add address condition stamp).Keyed := by
  unfold BreakpointTable.add
  dsimp only
  split
  · exact h.insert _
  · exact h

/-- Taking breakpoints away leaves the others at different addresses. -/
theorem Keyed.erase (h : t.Keyed) (address : Int) : (t.erase address).Keyed :=
  h.sublist (List.filter_sublist.map _)

theorem Keyed.eraseReferred (h : t.Keyed) (r : Reference BreakpointId) : (t.eraseReferred r).Keyed := by
  unfold BreakpointTable.eraseReferred
  split
  · exact h.erase _
  · exact h

theorem Keyed.eraseNamed (h : t.Keyed) (text : String) : (t.eraseNamed text).Keyed := by
  unfold BreakpointTable.eraseNamed
  split
  · exact h.erase _
  · exact h

/-- A breakpoint that is switched stays at its address. -/
theorem Keyed.toggle (h : t.Keyed) (address : Int) : (t.toggle address).Keyed := by
  unfold BreakpointTable.toggle
  split
  · exact h.insert _
  · exact h

/-! ### A check -/

/-- Whether a table stops a run that has come to an entry. -/
def stopsAt (t : BreakpointTable) (e : TraceEntry) : Bool := t.all.any (·.stopsAt e)

/-- The first breakpoint at an address is the only one. -/
theorem Keyed.get?_eq_some_iff (h : t.Keyed) {address : Int} :
    t.get? address = some b ↔ b ∈ t.all ∧ b.address = address := by
  have hfound : ∀ {c}, t.get? address = some c → c ∈ t.all ∧ c.address = address := by
    intro c hc
    unfold get? at hc
    have haddress := List.find?_some hc
    rw [beq_iff_eq] at haddress
    exact ⟨List.mem_of_find?_eq_some hc, haddress⟩
  refine ⟨hfound, fun ⟨hb, haddress⟩ => ?_⟩
  cases hc : t.get? address with
  | none => exact absurd (beq_iff_eq.2 haddress) (List.find?_eq_none.1 hc b hb)
  | some c => rw [h.eq_of_address hb (hfound hc).1 (haddress.trans (hfound hc).2.symm)]

/-- A check finds the breakpoint that stops at an entry. -/
theorem Keyed.stopping?_eq_some_iff (h : t.Keyed) {e : TraceEntry} :
    t.stopping? e.pc (.ofList e.registers) = some b ↔ b ∈ t.all ∧ b.stopsAt e = true := by
  rw [stopping?, Option.filter_eq_some_iff, h.get?_eq_some_iff, Breakpoint.stopsAt_iff, and_assoc]

/-- No breakpoint is found to stop at an entry exactly if the table does not. -/
theorem Keyed.stopping?_eq_none_iff (h : t.Keyed) {e : TraceEntry} :
    t.stopping? e.pc (.ofList e.registers) = none ↔ t.stopsAt e = false := by
  rw [stopsAt, List.any_eq_false, Option.eq_none_iff_forall_ne_some]
  exact ⟨fun hnone b hb hstops => hnone b (h.stopping?_eq_some_iff.2 ⟨hb, hstops⟩),
    fun hnone b hb => hnone b (h.stopping?_eq_some_iff.1 hb).1 (h.stopping?_eq_some_iff.1 hb).2⟩

/-- One that is found does stop there. -/
theorem Keyed.stopsAt_of_stopping? (h : t.Keyed) {e : TraceEntry}
    (hb : t.stopping? e.pc (.ofList e.registers) = some b) : t.stopsAt e = true :=
  List.any_eq_true.2 ⟨b, h.stopping?_eq_some_iff.1 hb⟩

/-- The table after a run has come to an entry: what stops there has counted it. -/
def visited (t : BreakpointTable) (e : TraceEntry) : BreakpointTable :=
  ⟨t.all.map fun b => if b.stopsAt e then b.counted else b⟩

/-- A breakpoint that is put into the place of another one with its address replaces just that. -/
theorem put_eq_map {bs : List Breakpoint} (h : (bs.map (·.address)).Nodup) (hb : b.address ∈ bs.map (·.address)) :
    put b bs = bs.map fun c => if c.address = b.address then b else c := by
  induction bs with
  | nil => cases hb
  | cons c cs ih =>
    obtain ⟨hc, hcs⟩ := List.nodup_cons.1 h
    unfold put
    rw [List.map_cons]
    by_cases hbc : c.address = b.address
    · -- no breakpoint behind this one has the address
      have hrest : ∀ d ∈ cs, (if d.address = b.address then b else d) = d := fun d hd =>
        if_neg fun hdb => hc (List.mem_map.2 ⟨d, hd, hdb.trans hbc.symm⟩)
      rw [if_pos hbc, if_pos hbc, List.map_congr_left hrest, List.map_id']
    · rw [if_neg hbc, if_neg hbc, ih hcs ((List.mem_cons.1 hb).resolve_left (Ne.symm hbc))]

/-- A breakpoint that takes the place of another one at its address, with nothing else changed. -/
theorem Keyed.insert_eq_map (h : t.Keyed) (hb : b ∈ t.all) (hc : c.address = b.address) :
    t.insert c = ⟨t.all.map fun d => if d = b then c else d⟩ := by
  have hkey : c.address ∈ t.all.map (·.address) := List.mem_map.2 ⟨b, hb, hc.symm⟩
  unfold BreakpointTable.insert
  rw [put_eq_map h hkey]
  refine congrArg BreakpointTable.mk (List.map_congr_left fun d hd => if_congr ?_ rfl rfl)
  rw [hc]
  exact ⟨fun hdb => h.eq_of_address hd hb hdb, fun hdb => hdb ▸ rfl⟩

/-- A check counts the breakpoint that stops a run, and leaves all others alone. -/
theorem Keyed.insert_counted (h : t.Keyed) {e : TraceEntry}
    (hb : t.stopping? e.pc (.ofList e.registers) = some b) : t.insert b.counted = t.visited e := by
  obtain ⟨hmem, hstops⟩ := h.stopping?_eq_some_iff.1 hb
  rw [h.insert_eq_map hmem b.address_counted]
  refine congrArg BreakpointTable.mk (List.map_congr_left fun c hc => ?_)
  by_cases hcb : c = b
  · rw [hcb, if_pos rfl, if_pos hstops]
  · -- another one, which is at another address
    have hother : ¬c.stopsAt e = true := fun hc' =>
      hcb (h.eq_of_address hc hmem ((Breakpoint.stopsAt_iff.1 hc').1.trans (Breakpoint.stopsAt_iff.1 hstops).1.symm))
    rw [if_neg hcb, if_neg hother]

/-- An entry at which nothing stops leaves the table as it is. -/
theorem Keyed.visited_eq_self (h : t.Keyed) {e : TraceEntry}
    (hnone : t.stopping? e.pc (.ofList e.registers) = none) : t.visited e = t := by
  have hquiet := List.any_eq_false.1 (h.stopping?_eq_none_iff.1 hnone)
  unfold visited
  rw [List.map_congr_left fun b hb => if_neg (hquiet b hb), List.map_id']

/-! ### Many checks -/

/-- And one at which something does counts a hit, and nothing else. -/
theorem Keyed.visited (h : t.Keyed) (e : TraceEntry) : (t.visited e).Keyed := by
  unfold Keyed BreakpointTable.visited
  rw [List.map_map]
  refine (congrArg List.Nodup (List.map_congr_left fun b _ => ?_)).mpr h
  dsimp only [Function.comp_apply]
  split <;> rfl

/-- What a table stops at does not depend on what it has counted. -/
theorem stopsAt_visited (t : BreakpointTable) (e e' : TraceEntry) : (t.visited e).stopsAt e' = t.stopsAt e' := by
  unfold stopsAt visited
  rw [List.any_map]
  refine congrArg t.all.any (funext fun b => ?_)
  dsimp only [Function.comp_apply]
  split <;> rfl

end BreakpointTable

end Y86
