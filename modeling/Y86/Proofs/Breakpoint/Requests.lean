import Mathlib.Algebra.Group.Nat.Even
import Y86.Proofs.Breakpoint.Table
import Y86.Proofs.Text.Separator

/-!
# Requests to a breakpoint table

A table that was empty at first and has answered any number of requests is lawful (`BreakpointTable.Lawful`,
`BreakpointTable.lawful_afterAll`). What it lists is told from the requests alone:

* A breakpoint is listed exactly if a request has added it and no later one has dropped it, that is, replaced it, removed
  it by its address or by its identifier, or removed all (`TableRequest.Drops`). It is enabled if it was toggled an even
  number of times since then, and its hit count is the number of hits that it was reported with
  (`BreakpointTable.Accounted`).
* Breakpoints stand in the order in which their addresses came in, where an address comes in when it is added and is not
  listed before (`BreakpointTable.CameIn`). So a replacement keeps the place, and an address that was removed goes to the
  end when it is added again.

The first is carried by one lemma on a single request, which says of each breakpoint of the new table where it comes from,
and of each one of the old table what becomes of it (`Sound.mem_after_iff`); the second by one on the addresses
(`map_address_after`).

No two identifiers in a table are written alike, whatever the stamps are, since the address is written in front of the
stamp and contains no separator (`BreakpointId.text_injective`).
-/

namespace Y86

open Text

/-! ### Identifiers and triggers -/

/-- **Identifiers.** No two identifiers are written alike: the address ends at the separator, as no number contains one.
-/
theorem BreakpointId.text_injective : Function.Injective BreakpointId.text := by
  rintro ⟨a, k⟩ ⟨a', k'⟩ h
  have hparts : ∀ (a : Int) (k : Nat), (BreakpointId.text ⟨a, k⟩).toList =
      "bp_".toList ++ ((toString a).toList ++ '_' :: ('#' :: (toString k).toList)) := by
    intro a k
    rw [text, String.toList_append, String.toList_append, String.toList_append, List.append_assoc, List.append_assoc]
    rfl
  have htext := congrArg String.toList h
  rw [hparts, hparts] at htext
  -- an address is written without an underscore, so the first one behind `bp_` ends it
  have hnone : ∀ a : Int, '_' ∉ (toString a).toList := not_mem_toString (by decide) (by decide)
  obtain ⟨haddress, hstamp⟩ := append_separator_inj (hnone a) (hnone a') (List.append_cancel_left htext)
  obtain rfl := toString_inj haddress
  obtain rfl : k = k' := Nat.repr_inj.1 (String.toList_inj.1 (List.tail_eq_of_cons_eq hstamp))
  rfl

namespace Trigger

/-- A condition is met if there is none, if its text is empty, or if the text denotes a guard that holds. -/
def Met (condition : Option String) (registers : RegisterFile) : Prop :=
  condition = none ∨ condition = some "" ∨
    ∃ text guard, condition = some text ∧ Guard.parse text = .ok guard ∧ guard.holds registers = true

variable {condition : Option String} {registers : RegisterFile}

/-- A trigger fires exactly if its condition is met; a condition that is malformed never is. -/
theorem fires_ofText_iff : (ofText condition).fires registers = true ↔ Met condition registers := by
  cases condition with
  | none => exact ⟨fun _ => Or.inl rfl, fun _ => rfl⟩
  | some text =>
    unfold ofText
    by_cases hempty : text = ""
    · subst hempty
      exact ⟨fun _ => Or.inr (Or.inl rfl), fun _ => rfl⟩
    · dsimp only
      rw [if_neg hempty]
      have hmet : Met (some text) registers ↔ ∃ guard, Guard.parse text = .ok guard ∧ guard.holds registers = true := by
        simp [Met, hempty]
      rw [hmet]
      -- a condition that does not parse never fires
      cases hparse : Guard.parse text with
      | ok guard => simp [fires]
      | error cause => simp [fires]

/-- A trigger is read again from the text that it shows. -/
theorem ofText_text? (condition : Option String) : ofText (ofText condition).text? = ofText condition := by
  cases condition with
  | none => rfl
  | some text =>
    by_cases hempty : text = ""
    · subst hempty
      rfl
    · have htext : (ofText (some text)).text? = some text := by
        unfold ofText
        dsimp only
        rw [if_neg hempty]
        cases Guard.parse text <;> rfl
      rw [htext]

end Trigger

/-- A request to a table. -/
inductive TableRequest where
  | add (address : Int) (condition : Option String) (stamp : Nat)
  | remove (address : Int)
  /-- Remove the breakpoint whose identifier reads like a text. -/
  | removeNamed (text : String)
  | toggle (address : Int)
  | clear
  | check (pc : Int) (registers : RegisterFile) (cycle : Int)

namespace TableRequest

/-- The requests after which a breakpoint with an identifier is not listed any more. -/
inductive Drops (id : BreakpointId) : TableRequest → Prop
  | replaced (condition : Option String) (stamp : Nat) : Drops id (.add id.address condition stamp)
  | removed : Drops id (.remove id.address)
  | removedNamed : Drops id (.removeNamed id.text)
  | cleared : Drops id .clear

/-- Whether a request toggles the breakpoint at an address. -/
def toggles (address : Int) : TableRequest → Bool
  | .toggle other => other = address
  | _ => false

end TableRequest

namespace BreakpointTable

/-- The table after a request. -/
def after (t : BreakpointTable) : TableRequest → BreakpointTable
  | .add address condition stamp => t.add address condition stamp
  | .remove address => t.erase address
  | .removeNamed text => t.eraseNamed text
  | .toggle address => t.toggle address
  | .clear => {}
  | .check pc registers cycle => (t.check pc registers cycle).2

/-- The hit that a request is answered with. -/
def hit? (t : BreakpointTable) : TableRequest → Option BreakpointHit
  | .check pc registers cycle => (t.check pc registers cycle).1
  | _ => none

def afterAll (t : BreakpointTable) (requests : List TableRequest) : BreakpointTable := requests.foldl after t

/-- The hits that requests are answered with, one after the other. -/
def hits (t : BreakpointTable) : List TableRequest → List BreakpointHit
  | [] => []
  | request :: requests => (t.hit? request).toList ++ (t.after request).hits requests

variable {t : BreakpointTable} {b c : Breakpoint} {request : TableRequest} {requests : List TableRequest}

/-- Requests are answered one after the other. -/
theorem afterAll_append (t : BreakpointTable) (before later : List TableRequest) :
    t.afterAll (before ++ later) = (t.afterAll before).afterAll later := List.foldl_append

theorem afterAll_concat (t : BreakpointTable) (requests : List TableRequest) (request : TableRequest) :
    t.afterAll (requests ++ [request]) = (t.afterAll requests).after request := t.afterAll_append requests [request]

/-- What is answered at first and what is answered later. -/
theorem hits_append (t : BreakpointTable) (before later : List TableRequest) :
    t.hits (before ++ later) = t.hits before ++ (t.afterAll before).hits later := by
  induction before generalizing t with
  | nil => rfl
  | cons first before ih =>
    rw [List.cons_append, hits, hits, ih, List.append_assoc]
    rfl

/-! ### What one request does -/

/-- A breakpoint at a new address goes to the end. -/
theorem put_eq_append {bs : List Breakpoint} (h : b.address ∉ bs.map (·.address)) : put b bs = bs ++ [b] := by
  induction bs with
  | nil => rfl
  | cons c cs ih =>
    rw [List.map_cons, List.mem_cons, not_or] at h
    unfold put
    rw [if_neg (Ne.symm h.1), ih h.2, List.cons_append]

/-- A breakpoint that is stored takes the place of the one at its address, and leaves all others. -/
theorem Keyed.mem_insert_iff (h : t.Keyed) : c ∈ (t.insert b).all ↔ c = b ∨ c ∈ t.all ∧ c.address ≠ b.address := by
  by_cases hb : b.address ∈ t.all.map (·.address)
  · -- the new breakpoint stands where the old one was
    unfold BreakpointTable.insert
    rw [put_eq_map h hb, List.mem_map]
    obtain ⟨old, hold, holdb⟩ := List.mem_map.1 hb
    constructor
    · rintro ⟨d, hd, hdc⟩
      split at hdc
      case isTrue => exact Or.inl hdc.symm
      case isFalse hother => exact Or.inr ⟨hdc ▸ hd, hdc ▸ hother⟩
    · rintro (rfl | ⟨hc, hother⟩)
      · exact ⟨old, hold, if_pos holdb⟩
      · exact ⟨c, hc, if_neg hother⟩
  · -- no breakpoint is at the address, and the new one goes last
    unfold BreakpointTable.insert
    rw [put_eq_append hb, List.mem_append, List.mem_singleton, or_comm]
    refine or_congr_right ⟨fun hc => ⟨hc, fun hcb => hb (List.mem_map.2 ⟨c, hc, hcb⟩)⟩, And.left⟩

/-- A check stops at one breakpoint, which it counts, or at none. -/
theorem Keyed.check_cases (h : t.Keyed) (pc : Int) (registers : RegisterFile) (cycle : Int) :
    (∃ b ∈ t.all, (b.address = pc ∧ b.stops registers = true) ∧ t.check pc registers cycle =
        (some { breakpoint := b.counted, cycle, pc }, ⟨t.all.map fun c => if c = b then b.counted else c⟩)) ∨
      (∀ b ∈ t.all, ¬(b.address = pc ∧ b.stops registers = true)) ∧ t.check pc registers cycle = (none, t) := by
  unfold BreakpointTable.check
  cases hfound : t.stopping? pc registers with
  | some b =>
    obtain ⟨hget, hstops⟩ := Option.filter_eq_some_iff.1 hfound
    obtain ⟨hb, hpc⟩ := h.get?_eq_some_iff.1 hget
    refine Or.inl ⟨b, hb, ⟨hpc, hstops⟩, ?_⟩
    dsimp only
    -- counting the hit leaves the breakpoint in its place
    rw [h.insert_eq_map hb b.address_counted]
  | none =>
    refine Or.inr ⟨fun b hb hpc => ?_, rfl⟩
    have hget := h.get?_eq_some_iff.2 ⟨hb, hpc.1⟩
    unfold stopping? at hfound
    rw [hget, Option.filter_some, if_pos hpc.2] at hfound
    cases hfound

/-- A text removes the breakpoint whose identifier it is, or nothing. -/
theorem Keyed.eraseNamed_cases (h : t.Keyed) (text : String) :
    (∃ b ∈ t.all, b.id.text = text ∧ (t.eraseNamed text).all = t.all.filter (· ≠ b)) ∨
      (∀ b ∈ t.all, b.id.text ≠ text) ∧ t.eraseNamed text = t := by
  unfold BreakpointTable.eraseNamed
  cases hfound : t.named? text with
  | some b =>
    have hb : b ∈ t.all := List.mem_of_find?_eq_some hfound
    have hname := List.find?_some hfound
    have htext : b.id.text = text := beq_iff_eq.1 hname
    refine Or.inl ⟨b, hb, htext, List.filter_congr fun c hc => ?_⟩
    -- no other breakpoint is at this address
    rw [Bool.eq_iff_iff, bne_iff_ne, decide_eq_true_eq]
    exact not_congr ⟨fun hcb => h.eq_of_address hc hb hcb, fun hcb => hcb ▸ rfl⟩
  | none => exact Or.inr ⟨fun b hb htext => List.find?_eq_none.1 hfound b hb (beq_iff_eq.2 htext), rfl⟩

/-- A reference removes what its words name, if a text that is no identifier names nothing. -/
theorem eraseReferred_eq_eraseNamed {r : Reference BreakpointId}
    (h : ∀ words, r = .text words → ∀ b ∈ t.all, b.id.text ≠ words) :
    t.eraseReferred r = t.eraseNamed (r.named BreakpointId.text) := by
  unfold eraseReferred eraseNamed find? named?
  congr 1
  refine List.find?_congr fun b hb => ?_
  cases r with
  | id own =>
    rw [Reference.isTo_id, Bool.eq_iff_iff, decide_eq_true_eq, beq_iff_eq]
    exact BreakpointId.text_injective.eq_iff.symm
  | text words =>
    rw [Reference.isTo_text, Bool.eq_iff_iff, beq_iff_eq]
    -- a text is no identifier, and no identifier is written so
    exact iff_of_false Bool.false_ne_true (h words rfl b hb)

/-- A breakpoint behind a request that has not dropped it: it is switched if its address is toggled, and it has counted
the hit that the request was answered with, if that was its own. -/
def kept (t : BreakpointTable) (request : TableRequest) (b : Breakpoint) : Breakpoint :=
  { b with
    enabled := if request.toggles b.address then !b.enabled else b.enabled
    hits := b.hits + (t.hit? request).toList.countP (·.breakpoint.id = b.id) }

/-- A request that neither toggles nor stops keeps a breakpoint as it is. -/
theorem kept_eq_self (htoggles : request.toggles b.address = false) (hhit : t.hit? request = none) :
    t.kept request b = b := by
  unfold kept
  rw [htoggles, hhit]
  rfl

/-- Addresses are different, and all identifiers can be written. -/
structure Sound (t : BreakpointTable) : Prop where
  keyed : t.Keyed
  writable : ∀ b ∈ t.all, b.id.isWritable = true

namespace Sound

variable (h : t.Sound)

include h

/-- What an add does to a table: the breakpoint is new, and all at other addresses are kept. -/
theorem mem_add_iff {address : Int} {condition : Option String} {stamp : Nat} :
    b ∈ (t.add address condition stamp).all ↔
      (b = made address condition stamp ∧ b.id.isWritable = true) ∨ b ∈ t.all ∧ b.address ≠ address := by
  unfold add
  dsimp only
  split
  case isTrue hwritable =>
    rw [h.keyed.mem_insert_iff]
    exact or_congr_left ⟨fun hb => ⟨hb, hb ▸ hwritable⟩, And.left⟩
  case isFalse hwritable =>
    -- nothing is stored, and nothing was there before
    constructor
    · intro hb
      refine Or.inr ⟨hb, fun haddress => hwritable ?_⟩
      rw [← h.writable b hb]
      exact BreakpointId.isWritable_congr haddress.symm
    · rintro (⟨rfl, hb⟩ | ⟨hb, -⟩)
      · exact absurd hb hwritable
      · exact hb

/-- A text removes what bears it, and nothing else. -/
theorem mem_eraseNamed_iff {text : String} : b ∈ (t.eraseNamed text).all ↔ b ∈ t.all ∧ b.id.text ≠ text := by
  rcases h.keyed.eraseNamed_cases text with ⟨c, hc, htext, hrest⟩ | ⟨hnone, hsame⟩
  · rw [hrest, List.mem_filter, decide_eq_true_eq]
    -- the one that is removed is the only one with this name
    refine and_congr_right fun hb => not_congr ⟨fun hbc => hbc ▸ htext, fun hb' => ?_⟩
    have hid := BreakpointId.text_injective (hb'.trans htext.symm)
    exact h.keyed.eq_of_address hb hc (congrArg BreakpointId.address hid)
  · rw [hsame]
    exact ⟨fun hb => ⟨hb, hnone b hb⟩, And.left⟩

/-- A toggle switches the breakpoint at its address, and keeps all others. -/
theorem mem_toggle_iff {address : Int} :
    b ∈ (t.toggle address).all ↔ ∃ c ∈ t.all, b = t.kept (.toggle address) c := by
  -- of the breakpoints that are there, the one at the address is flipped
  have hkept : ∀ c : Breakpoint, t.kept (.toggle address) c =
      if address = c.address then { c with enabled := !c.enabled } else c := by
    intro c
    unfold kept TableRequest.toggles
    by_cases hc : address = c.address <;> simp [hc, hit?]
  unfold BreakpointTable.toggle
  cases hget : t.get? address with
  | none =>
    -- nothing is at the address, so every breakpoint is kept as it is
    have hnone : ∀ c ∈ t.all, c.address ≠ address := fun c hc haddress => by
      rw [h.keyed.get?_eq_some_iff.2 ⟨hc, haddress⟩] at hget
      cases hget
    constructor
    · intro hb
      exact ⟨b, hb, by rw [hkept, if_neg (Ne.symm (hnone b hb))]⟩
    · rintro ⟨c, hc, rfl⟩
      rw [hkept, if_neg (Ne.symm (hnone c hc))]
      exact hc
  | some c =>
    obtain ⟨hc, rfl⟩ := h.keyed.get?_eq_some_iff.1 hget
    rw [h.keyed.mem_insert_iff]
    constructor
    · rintro (rfl | ⟨hb, hother⟩)
      · exact ⟨c, hc, by rw [hkept, if_pos rfl]⟩
      · exact ⟨b, hb, by rw [hkept, if_neg (Ne.symm hother)]⟩
    · rintro ⟨d, hd, rfl⟩
      rw [hkept]
      split
      case isTrue hcd => exact Or.inl (by rw [h.keyed.eq_of_address hd hc hcd.symm])
      case isFalse hcd => exact Or.inr ⟨hd, Ne.symm hcd⟩

/-- A check counts a hit of the breakpoint that it stops at, and keeps all others. -/
theorem mem_check_iff {pc cycle : Int} {registers : RegisterFile} :
    b ∈ (t.check pc registers cycle).2.all ↔ ∃ c ∈ t.all, b = t.kept (.check pc registers cycle) c := by
  rcases h.keyed.check_cases pc registers cycle with ⟨d, hd, -, hcheck⟩ | ⟨-, hcheck⟩
  · have hhit : t.hit? (.check pc registers cycle) = some { breakpoint := d.counted, cycle, pc } :=
      congrArg Prod.fst hcheck
    -- the hit is counted by the breakpoint that it carries, and by no other one
    have hkept : ∀ c ∈ t.all, (if c = d then d.counted else c) = t.kept (.check pc registers cycle) c := by
      intro c hc
      unfold kept
      rw [hhit]
      by_cases hcd : c = d
      · rw [if_pos hcd, hcd]
        simp [TableRequest.toggles, Breakpoint.counted, Breakpoint.id]
      · have hid : ¬d.counted.id = c.id := fun hid =>
          hcd (h.keyed.eq_of_address hc hd (congrArg BreakpointId.address hid).symm)
        rw [if_neg hcd]
        simp [TableRequest.toggles, hid]
    rw [hcheck, List.mem_map]
    exact ⟨fun ⟨c, hc, hb⟩ => ⟨c, hc, hb.symm.trans (hkept c hc)⟩,
      fun ⟨c, hc, hb⟩ => ⟨c, hc, (hkept c hc).trans hb.symm⟩⟩
  · have hkept : ∀ c, t.kept (.check pc registers cycle) c = c := fun c =>
      kept_eq_self rfl (congrArg Prod.fst hcheck)
    rw [hcheck]
    exact ⟨fun hb => ⟨b, hb, (hkept b).symm⟩, fun ⟨c, hc, hb⟩ => by rw [hb, hkept]; exact hc⟩

/-- **One request.** The breakpoints behind it are those that were there and that it has not dropped, as it has kept them,
and the one that it has added. -/
theorem mem_after_iff :
    b ∈ (t.after request).all ↔
      (∃ condition, request = .add b.address condition b.stamp ∧ b.id.isWritable = true ∧
        b = made b.address condition b.stamp) ∨
        ∃ c ∈ t.all, ¬request.Drops c.id ∧ b = t.kept request c := by
  -- a request that neither toggles nor checks keeps breakpoints as they are
  have hplain : ∀ {p : Breakpoint → Prop}, (∀ c, t.kept request c = c) → (∀ c ∈ t.all, ¬request.Drops c.id ↔ p c) →
      ((∃ c ∈ t.all, ¬request.Drops c.id ∧ b = t.kept request c) ↔ b ∈ t.all ∧ p b) := by
    intro p hkept hp
    constructor
    · rintro ⟨c, hc, hdrops, hb⟩
      rw [hkept c] at hb
      exact hb ▸ ⟨hc, (hp c hc).1 hdrops⟩
    · rintro ⟨hb, hpb⟩
      exact ⟨b, hb, (hp b hb).2 hpb, (hkept b).symm⟩
  cases request with
  | add address condition stamp =>
    have hdrops : ∀ c ∈ t.all, ¬(TableRequest.add address condition stamp).Drops c.id ↔ c.address ≠ address := by
      refine fun c _ => not_congr ⟨fun hd => ?_, ?_⟩
      · cases hd
        rfl
      · rintro rfl
        exact (.replaced condition stamp : TableRequest.Drops c.id _)
    rw [hplain (fun c => kept_eq_self rfl rfl) hdrops]
    refine h.mem_add_iff.trans (or_congr_left ⟨?_, ?_⟩)
    · rintro ⟨rfl, hwritable⟩
      exact ⟨condition, rfl, hwritable, rfl⟩
    · rintro ⟨condition', heq, hwritable, hmade⟩
      cases heq
      exact ⟨hmade, hwritable⟩
  | remove address =>
    have hdrops : ∀ c ∈ t.all, ¬(TableRequest.remove address).Drops c.id ↔ c.address ≠ address := by
      refine fun c _ => not_congr ⟨fun hd => ?_, ?_⟩
      · cases hd
        rfl
      · rintro rfl
        exact (.removed : TableRequest.Drops c.id _)
    rw [hplain (fun c => kept_eq_self rfl rfl) hdrops, or_iff_right nofun]
    change b ∈ (t.erase address).all ↔ _
    rw [erase, List.mem_filter, bne_iff_ne]
  | removeNamed text =>
    have hdrops : ∀ c ∈ t.all, ¬(TableRequest.removeNamed text).Drops c.id ↔ c.id.text ≠ text := by
      refine fun c _ => not_congr ⟨fun hd => ?_, ?_⟩
      · cases hd
        rfl
      · rintro rfl
        exact .removedNamed
    rw [hplain (fun c => kept_eq_self rfl rfl) hdrops, or_iff_right nofun]
    exact h.mem_eraseNamed_iff
  | toggle address =>
    rw [or_iff_right nofun]
    refine h.mem_toggle_iff.trans (exists_congr fun c => and_congr_right fun _ => ?_)
    exact (and_iff_right nofun).symm
  | clear =>
    rw [or_iff_right nofun]
    exact iff_of_false List.not_mem_nil fun ⟨_, _, hdrops, _⟩ => hdrops .cleared
  | check pc registers cycle =>
    rw [or_iff_right nofun]
    refine h.mem_check_iff.trans (exists_congr fun c => and_congr_right fun _ => ?_)
    exact (and_iff_right nofun).symm

end Sound

/-- No request puts two breakpoints at one address. -/
theorem Keyed.after (h : t.Keyed) (request : TableRequest) : (t.after request).Keyed := by
  cases request with
  | add address condition stamp => exact h.add address condition stamp
  | remove address => exact h.erase address
  | removeNamed text => exact h.eraseNamed text
  | toggle address => exact h.toggle address
  | clear => exact keyed_empty
  | check pc registers cycle =>
    -- a hit is counted in the place of the breakpoint, and a miss changes nothing
    change (t.check pc registers cycle).2.Keyed
    unfold check
    split
    · exact h.insert _
    · exact h

theorem Sound.after (h : t.Sound) (request : TableRequest) : (t.after request).Sound where
  keyed := h.keyed.after request
  writable := by
    intro b hb
    rcases h.mem_after_iff.1 hb with ⟨_, -, hwritable, -⟩ | ⟨c, hc, -, rfl⟩
    · exact hwritable
    · exact h.writable c hc

/-- A request takes addresses away, or it adds one at the end that was not there. -/
theorem map_address_after (t : BreakpointTable) (request : TableRequest) :
    ((t.after request).all.map (·.address)).Sublist (t.all.map (·.address)) ∨
      ∃ address condition stamp, request = .add address condition stamp ∧ address ∉ t.all.map (·.address) ∧
        (t.after request).all.map (·.address) = t.all.map (·.address) ++ [address] := by
  -- a breakpoint that is stored under an address which is there keeps all addresses
  have hinsert : ∀ b : Breakpoint, b.address ∈ t.all.map (·.address) →
      ((t.insert b).all.map (·.address)).Sublist (t.all.map (·.address)) := by
    intro b hb
    unfold BreakpointTable.insert
    rw [map_address_put, if_pos hb]
  have hget : ∀ {address b}, t.get? address = some b → b.address ∈ t.all.map (·.address) := fun hb =>
    List.mem_map_of_mem (List.mem_of_find?_eq_some hb)
  cases request with
  | add address condition stamp =>
    unfold BreakpointTable.after add
    dsimp only
    split
    · by_cases hmem : address ∈ t.all.map (·.address)
      · exact Or.inl (hinsert _ hmem)
      · refine Or.inr ⟨address, condition, stamp, rfl, hmem, ?_⟩
        unfold BreakpointTable.insert
        rw [map_address_put]
        exact if_neg hmem
    · exact Or.inl (List.Sublist.refl _)
  | remove address => exact Or.inl (List.filter_sublist.map _)
  | removeNamed text =>
    change ((t.eraseNamed text).all.map (·.address)).Sublist _ ∨ _
    unfold BreakpointTable.eraseNamed
    split
    · exact Or.inl (List.filter_sublist.map _)
    · exact Or.inl (List.Sublist.refl _)
  | toggle address =>
    change ((t.toggle address).all.map (·.address)).Sublist _ ∨ _
    unfold BreakpointTable.toggle
    split
    case h_1 b hb => exact Or.inl (hinsert _ (show b.address ∈ _ from hget hb))
    case h_2 => exact Or.inl (List.Sublist.refl _)
  | clear => exact Or.inl (List.nil_sublist _)
  | check pc registers cycle =>
    change ((t.check pc registers cycle).2.all.map (·.address)).Sublist _ ∨ _
    unfold check
    split
    case h_1 b hb => exact Or.inl (hinsert _ (show b.address ∈ _ from hget (Option.filter_eq_some_iff.1 hb).1))
    case h_2 => exact Or.inl (List.Sublist.refl _)

/-! ### What any number of requests does -/

/-- A table is sound whatever it was asked. -/
theorem sound_afterAll (requests : List TableRequest) : (afterAll {} requests).Sound := by
  induction requests using List.reverseRecOn with
  | nil => exact ⟨keyed_empty, fun b hb => nomatch hb⟩
  | append_singleton requests request ih =>
    rw [afterAll_concat]
    exact ih.after request

/-- What a breakpoint is that was added behind `before` for a condition, with the requests `later` since then. -/
structure Since (before : List TableRequest) (condition : Option String) (later : List TableRequest)
    (b : Breakpoint) : Prop where
  /-- It could be added, as its identifier can be written. -/
  writable : b.id.isWritable = true
  /-- Nothing has dropped it. -/
  undropped : ∀ request ∈ later, ¬request.Drops b.id
  trigger_eq : b.trigger = .ofText condition
  /-- It was enabled at first, and every toggle of its address has switched it. -/
  enabled_eq : b.enabled = decide (Even (later.countP (·.toggles b.address)))
  /-- It has counted the hits that later requests were answered with. -/
  hits_eq : b.hits =
    ((afterAll {} (before ++ [.add b.address condition b.stamp])).hits later).countP (·.breakpoint.id = b.id)

/-- A breakpoint is what the requests have made of it: one has added it, and no later one has dropped it. -/
def Accounted (requests : List TableRequest) (b : Breakpoint) : Prop :=
  ∃ before condition later,
    requests = before ++ .add b.address condition b.stamp :: later ∧ Since before condition later b

section Since

variable {before later : List TableRequest} {condition : Option String}

/-- A breakpoint that has just been added is as it was made. -/
theorem since_nil_iff : Since before condition [] b ↔ b.id.isWritable = true ∧ b = made b.address condition b.stamp := by
  constructor
  · intro h
    refine ⟨h.writable, ?_⟩
    obtain ⟨address, stamp, trigger, enabled, hits⟩ := b
    cases h.trigger_eq
    cases h.enabled_eq
    cases h.hits_eq
    rfl
  · rintro ⟨hwritable, hmade⟩
    exact ⟨hwritable, fun _ h => absurd h List.not_mem_nil, congrArg Breakpoint.trigger hmade,
      congrArg Breakpoint.enabled hmade, congrArg Breakpoint.hits hmade⟩

/-- One request more keeps the breakpoint as it keeps all that it does not drop. -/
theorem since_concat_iff :
    Since before condition (later ++ [request]) b ↔
      ∃ c, c.address = b.address ∧ c.stamp = b.stamp ∧ Since before condition later c ∧ ¬request.Drops c.id ∧
        b = (afterAll {} (before ++ .add b.address condition b.stamp :: later)).kept request c := by
  have htable : afterAll {} (before ++ .add b.address condition b.stamp :: later)
      = (afterAll {} (before ++ [.add b.address condition b.stamp])).afterAll later := by
    rw [← afterAll_append, List.append_assoc]
    rfl
  have hhits : (afterAll {} (before ++ [.add b.address condition b.stamp])).hits (later ++ [request])
      = (afterAll {} (before ++ [.add b.address condition b.stamp])).hits later
        ++ ((afterAll {} (before ++ .add b.address condition b.stamp :: later)).hit? request).toList := by
    rw [hits_append, htable, hits, hits, List.append_nil]
  -- one toggle more makes an even number odd, and an odd one even
  have heven : decide (Even ((later ++ [request]).countP (·.toggles b.address)))
      = if request.toggles b.address then !decide (Even (later.countP (·.toggles b.address)))
        else decide (Even (later.countP (·.toggles b.address))) := by
    rw [List.countP_append, List.countP_singleton]
    split
    · rw [← decide_not]
      exact decide_eq_decide.2 Nat.even_add_one
    · rfl
  constructor
  · intro h
    -- what the breakpoint was before the last request
    let c : Breakpoint :=
      { b with
        enabled := decide (Even (later.countP (·.toggles b.address)))
        hits := ((afterAll {} (before ++ [.add b.address condition b.stamp])).hits later).countP
          (·.breakpoint.id = b.id) }
    refine ⟨c, rfl, rfl, ⟨h.writable, fun r hr => ?_, h.trigger_eq, rfl, rfl⟩, ?_, ?_⟩
    · exact h.undropped r (List.mem_append_left _ hr)
    · exact h.undropped request (List.mem_append_right later List.mem_cons_self)
    · have henabled := h.enabled_eq.trans heven
      have hcount := h.hits_eq
      rw [hhits, List.countP_append] at hcount
      exact Breakpoint.mk.injEq .. ▸ ⟨rfl, rfl, rfl, henabled, hcount⟩
  · rintro ⟨c, haddress, hstamp, hc, hdrops, hb⟩
    have hid : b.id = c.id := by
      unfold Breakpoint.id
      rw [haddress, hstamp]
    refine ⟨hid ▸ hc.writable, fun r hr => ?_, ?_, ?_, ?_⟩
    · rw [hid]
      rcases List.mem_append.1 hr with hr | hr
      · exact hc.undropped r hr
      · exact List.mem_singleton.1 hr ▸ hdrops
    · rw [hb]
      exact hc.trigger_eq
    · rw [heven, ← haddress, ← hc.enabled_eq]
      exact congrArg Breakpoint.enabled hb
    · have hcount := congrArg Breakpoint.hits hb
      rw [hhits, List.countP_append, hid]
      refine hcount.trans ?_
      unfold kept
      dsimp only
      rw [hc.hits_eq, haddress, hstamp]

end Since

/-- **Listing.** A table lists exactly the breakpoints that requests have made what they are. The induction is from the
last request back: a breakpoint was added by it, or was there before and has been kept by it. -/
theorem mem_iff_accounted : b ∈ (afterAll {} requests).all ↔ Accounted requests b := by
  induction requests using List.reverseRecOn generalizing b with
  | nil =>
    refine iff_of_false List.not_mem_nil ?_
    rintro ⟨before, condition, later, hnil, -⟩
    exact List.append_ne_nil_of_right_ne_nil before (List.cons_ne_nil _ later) hnil.symm
  | append_singleton requests request ih =>
    rw [afterAll_concat, (sound_afterAll requests).mem_after_iff]
    constructor
    · rintro (⟨condition, rfl, hmade⟩ | ⟨c, hc, hdrops, hb⟩)
      · exact ⟨requests, condition, [], rfl, since_nil_iff.2 hmade⟩
      · -- the breakpoint was accounted for before, and the last request is one more since
        obtain ⟨before, condition, later, rfl, hsince⟩ := ih.1 hc
        have haddress : c.address = b.address := (congrArg Breakpoint.address hb).symm
        have hstamp : c.stamp = b.stamp := (congrArg Breakpoint.stamp hb).symm
        rw [haddress, hstamp] at hb ⊢
        refine ⟨before, condition, later ++ [request], List.append_assoc _ _ _, ?_⟩
        exact since_concat_iff.2 ⟨c, haddress, hstamp, hsince, hdrops, hb⟩
    · rintro ⟨before, condition, later, hrequests, hsince⟩
      rcases List.eq_nil_or_concat later with rfl | ⟨earlier, last, rfl⟩
      · -- the last request has added the breakpoint
        obtain ⟨rfl, hlast⟩ := List.append_inj' hrequests rfl
        exact Or.inl ⟨condition, (List.singleton_inj.1 hlast), since_nil_iff.1 hsince⟩
      · -- the last request came after the breakpoint was added, and what was there before it is accounted for
        rw [List.concat_eq_append] at hrequests hsince
        have hsplit : requests ++ [request] = (before ++ .add b.address condition b.stamp :: earlier) ++ [last] := by
          rw [hrequests, List.append_assoc]
          rfl
        obtain ⟨rfl, hlast⟩ := List.append_inj' hsplit rfl
        obtain rfl := List.singleton_inj.1 hlast
        obtain ⟨c, haddress, hstamp, hc, hdrops, hb⟩ := since_concat_iff.1 hsince
        refine Or.inr ⟨c, ih.2 ⟨before, condition, earlier, ?_, hc⟩, hdrops, hb⟩
        rw [haddress, hstamp]

/-! ### Addresses, and their order -/

/-- An address is listed: a request has added a breakpoint there, and no later one has dropped that. -/
def Listed (requests : List TableRequest) (address : Int) : Prop :=
  ∃ before condition stamp later, requests = before ++ .add address condition stamp :: later ∧
    BreakpointId.isWritable ⟨address, stamp⟩ = true ∧ ∀ request ∈ later, ¬request.Drops ⟨address, stamp⟩

/-- A table has an address if one of its breakpoints is there. -/
theorem has_iff {address : Int} : t.has address = true ↔ address ∈ t.all.map (·.address) := by
  unfold has get?
  rw [List.find?_isSome, List.mem_map]
  simp only [beq_iff_eq]

/-- **Addresses.** The addresses in a table are those that requests have listed. -/
theorem listed_iff_mem {address : Int} :
    Listed requests address ↔ address ∈ (afterAll {} requests).all.map (·.address) := by
  rw [List.mem_map]
  constructor
  · rintro ⟨before, condition, stamp, later, hrequests, hwritable, hdrops⟩
    -- the breakpoint that was added, with what it has come to since then
    let b : Breakpoint :=
      { address, stamp
        trigger := .ofText condition
        enabled := decide (Even (later.countP (·.toggles address)))
        hits := ((afterAll {} (before ++ [.add address condition stamp])).hits later).countP
          (·.breakpoint.id = ⟨address, stamp⟩) }
    have hb : Accounted requests b := ⟨before, condition, later, hrequests, hwritable, hdrops, rfl, rfl, rfl⟩
    exact ⟨b, mem_iff_accounted.2 hb, rfl⟩
  · rintro ⟨b, hb, rfl⟩
    obtain ⟨before, condition, later, hrequests, hsince⟩ := mem_iff_accounted.1 hb
    exact ⟨before, condition, b.stamp, later, hrequests, hsince.writable, hsince.undropped⟩

/-- An address came in with the request of a number and is listed ever since: the request adds it, and it was not listed
before. -/
structure CameIn (requests : List TableRequest) (address : Int) (i : Nat) : Prop where
  request_eq : ∃ condition stamp, requests[i]? = some (.add address condition stamp)
  new : ¬Listed (requests.take i) address
  since : ∀ j, i < j → j ≤ requests.length → Listed (requests.take j) address

namespace CameIn

variable {address : Int} {i : Nat}

theorem lt_length (h : CameIn requests address i) : i < requests.length := by
  obtain ⟨condition, stamp, hrequest⟩ := h.request_eq
  exact (List.getElem?_eq_some_iff.1 hrequest).1

/-- An address that stays listed has come in when it did. -/
theorem append (h : CameIn requests address i) (hlisted : Listed (requests ++ [request]) address) :
    CameIn (requests ++ [request]) address i where
  request_eq := by
    rw [List.getElem?_append_left h.lt_length]
    exact h.request_eq
  new := by
    rw [List.take_append_of_le_length h.lt_length.le]
    exact h.new
  since := by
    intro j hij hj
    -- up to the last request nothing has changed, and after it the address is listed still
    rcases Nat.le_or_eq_of_le_succ (List.length_append ▸ hj) with hj | rfl
    · rw [List.take_append_of_le_length hj]
      exact h.since j hij hj
    · rw [List.take_of_length_le (by rw [List.length_append]; rfl)]
      exact hlisted

/-- An address that is listed by the last request comes in with it. -/
theorem of_add {condition : Option String} {stamp : Nat} (hnew : ¬Listed requests address)
    (hlisted : Listed (requests ++ [.add address condition stamp]) address) :
    CameIn (requests ++ [.add address condition stamp]) address requests.length where
  request_eq := ⟨condition, stamp, List.getElem?_concat_length⟩
  new := by
    rw [List.take_left' rfl]
    exact hnew
  since := by
    intro j hij hj
    rw [List.take_of_length_le (by rw [List.length_append]; exact hij)]
    exact hlisted

end CameIn

/-- The addresses behind one request more: some of those before it, or a new one behind all of them. -/
theorem map_address_concat (requests : List TableRequest) (request : TableRequest) :
    ((afterAll {} (requests ++ [request])).all.map (·.address)).Sublist ((afterAll {} requests).all.map (·.address)) ∨
      ∃ new, CameIn (requests ++ [request]) new requests.length ∧
        (afterAll {} (requests ++ [request])).all.map (·.address)
          = (afterAll {} requests).all.map (·.address) ++ [new] := by
  rw [afterAll_concat]
  refine (map_address_after (afterAll {} requests) request).imp id ?_
  rintro ⟨new, condition, stamp, rfl, hnew, hmore⟩
  refine ⟨new, .of_add (mt listed_iff_mem.1 hnew) (listed_iff_mem.2 ?_), hmore⟩
  rw [afterAll_concat, hmore]
  exact List.mem_append_right _ List.mem_cons_self

/-- An address that is listed has come in at some time. -/
theorem exists_cameIn {address : Int} (h : Listed requests address) : ∃ i, CameIn requests address i := by
  induction requests using List.reverseRecOn with
  | nil => exact absurd (listed_iff_mem.1 h) List.not_mem_nil
  | append_singleton requests request ih =>
    by_cases hold : Listed requests address
    · obtain ⟨i, hi⟩ := ih hold
      -- an address that was listed already has come in earlier
      exact ⟨i, hi.append h⟩
    · -- the request has added the address, and no other one
      rcases map_address_concat requests request with hfewer | ⟨new, hnew, hmore⟩
      · exact absurd (listed_iff_mem.2 (hfewer.subset (listed_iff_mem.1 h))) hold
      · have hmem := listed_iff_mem.1 h
        rw [hmore] at hmem
        obtain rfl := List.mem_singleton.1 ((List.mem_append.1 hmem).resolve_left (mt listed_iff_mem.2 hold))
        exact ⟨requests.length, hnew⟩

/-- Whether an address came in before another one. -/
def Precedes (requests : List TableRequest) (address address' : Int) : Prop :=
  ∃ i j, CameIn requests address i ∧ CameIn requests address' j ∧ i < j

/-- **Order.** Addresses stand in the order in which they came in. -/
theorem pairwise_precedes (requests : List TableRequest) :
    ((afterAll {} requests).all.map (·.address)).Pairwise (Precedes requests) := by
  induction requests using List.reverseRecOn with
  | nil => exact List.Pairwise.nil
  | append_singleton requests request ih =>
    -- addresses that stay have come in when they did
    have hstay : ∀ {a a'}, a ∈ (afterAll {} (requests ++ [request])).all.map (·.address) →
        a' ∈ (afterAll {} (requests ++ [request])).all.map (·.address) → Precedes requests a a' →
          Precedes (requests ++ [request]) a a' := by
      rintro a a' ha ha' ⟨i, j, hi, hj, hij⟩
      exact ⟨i, j, hi.append (listed_iff_mem.2 ha), hj.append (listed_iff_mem.2 ha'), hij⟩
    rcases map_address_concat requests request with hfewer | ⟨new, hnew, hmore⟩
    · exact (ih.sublist hfewer).imp_of_mem hstay
    · rw [hmore] at hstay ⊢
      refine List.pairwise_append.2 ⟨ih.imp_of_mem fun ha ha' => hstay (List.mem_append_left _ ha)
        (List.mem_append_left _ ha'), List.pairwise_singleton _ _, fun a ha a' ha' => ?_⟩
      -- the new address stands behind all others
      obtain rfl := List.mem_singleton.1 ha'
      obtain ⟨i, hi⟩ := exists_cameIn (listed_iff_mem.2 ha)
      refine ⟨i, requests.length, hi.append (listed_iff_mem.2 ?_), hnew, hi.lt_length⟩
      rw [hmore]
      exact List.mem_append_left _ ha

/-! ### A lawful table -/

/-- What holds of a table that has answered requests, and how it answers the next one. -/
structure Lawful (requests : List TableRequest) (t : BreakpointTable) : Prop where
  get?_eq_some_iff : ∀ address b, t.get? address = some b ↔ b ∈ t.all ∧ b.address = address
  nodup_address : (t.all.map (·.address)).Nodup
  nodup_id : (t.all.map (·.id.text)).Nodup
  /-- The table lists the breakpoints that were added and not dropped since then, each as it was toggled and hit. -/
  mem_iff : ∀ b, b ∈ t.all ↔ Accounted requests b
  /-- An address is in the table if it was added and not dropped since then. -/
  has_iff : ∀ address, t.has address = true ↔ Listed requests address
  cameIn : ∀ b ∈ t.all, ∃ i, CameIn requests b.address i
  /-- Breakpoints stand in the order in which their addresses came in. -/
  precedes : t.all.Pairwise fun b c => Precedes requests b.address c.address
  /-- A check stops at an enabled breakpoint whose condition is met. -/
  hit_iff : ∀ pc registers cycle, (∃ hit, (t.check pc registers cycle).1 = some hit) ↔
    ∃ b ∈ t.all, b.address = pc ∧ b.enabled = true ∧ Trigger.Met b.trigger.text? registers
  /-- A hit carries the breakpoint at the address, which has counted it; nothing else has changed. -/
  hit : ∀ pc registers cycle hit, (t.check pc registers cycle).1 = some hit →
    ∃ b ∈ t.all, b.address = pc ∧ hit = { breakpoint := { b with hits := b.hits + 1 }, cycle, pc } ∧
      (t.check pc registers cycle).2.all = t.all.map fun c => if c = b then { b with hits := b.hits + 1 } else c
  miss : ∀ pc registers cycle, (t.check pc registers cycle).1 = none → (t.check pc registers cycle).2 = t
  /-- A text removes the breakpoint whose identifier it is and no other, or nothing. -/
  eraseNamed : ∀ text,
    (∃ b ∈ t.all, b.id.text = text ∧ (t.eraseNamed text).all = t.all.filter (· ≠ b)) ∨
      (∀ b ∈ t.all, b.id.text ≠ text) ∧ t.eraseNamed text = t

/-- A breakpoint stops if it is enabled and the condition that it shows is met. -/
theorem stops_iff_of_accounted (h : Accounted requests b) (registers : RegisterFile) :
    b.stops registers = true ↔ b.enabled = true ∧ Trigger.Met b.trigger.text? registers := by
  obtain ⟨_, condition, _, _, hsince⟩ := h
  rw [← Trigger.fires_ofText_iff, hsince.trigger_eq, Trigger.ofText_text?, ← hsince.trigger_eq, Breakpoint.stops,
    Bool.and_eq_true]

/-- **A breakpoint table is lawful.** After any requests, whatever the stamps are, it lists one breakpoint at most for an
address, in the order in which the addresses came in; each is there because it was added and not dropped since then, is
enabled as it was toggled, and has counted its own hits. A check stops just where it should and changes nothing but one
hit count, and an identifier removes its own breakpoint or nothing. -/
theorem lawful_afterAll (requests : List TableRequest) : Lawful requests (afterAll {} requests) := by
  have hkeyed := (sound_afterAll requests).keyed
  have hstops : ∀ b ∈ (afterAll {} requests).all, ∀ registers, b.stops registers = true ↔
      b.enabled = true ∧ Trigger.Met b.trigger.text? registers := fun b hb =>
    stops_iff_of_accounted (mem_iff_accounted.1 hb)
  refine
    { get?_eq_some_iff := fun address b => hkeyed.get?_eq_some_iff
      nodup_address := hkeyed
      nodup_id := ?_
      mem_iff := fun b => mem_iff_accounted
      has_iff := fun address => BreakpointTable.has_iff.trans listed_iff_mem.symm
      cameIn := fun b hb => exists_cameIn (listed_iff_mem.2 (List.mem_map.2 ⟨b, hb, rfl⟩))
      precedes := List.pairwise_map.1 (pairwise_precedes requests)
      hit_iff := fun pc registers cycle => ?_
      hit := fun pc registers cycle hit hhit => ?_
      miss := fun pc registers cycle hmiss => ?_
      eraseNamed := hkeyed.eraseNamed_cases }
  · -- breakpoints with the same identifier would be at the same address
    refine List.pairwise_map.2 ((List.pairwise_map.1 hkeyed).imp fun hne htext => hne ?_)
    exact congrArg BreakpointId.address (BreakpointId.text_injective htext)
  · rcases hkeyed.check_cases pc registers cycle with ⟨b, hb, ⟨hpc, hstop⟩, hcheck⟩ | ⟨hnone, hcheck⟩
    · -- what fires is enabled and its condition is met, and the other way round
      rw [hcheck]
      exact ⟨fun _ => ⟨b, hb, hpc, (hstops b hb registers).1 hstop⟩, fun _ => ⟨_, rfl⟩⟩
    · rw [hcheck]
      constructor
      · rintro ⟨hit, hhit⟩
        cases hhit
      · rintro ⟨b, hb, hpc, hmet⟩
        exact absurd ⟨hpc, (hstops b hb registers).2 hmet⟩ (hnone b hb)
  · rcases hkeyed.check_cases pc registers cycle with ⟨b, hb, ⟨hpc, -⟩, hcheck⟩ | ⟨-, hcheck⟩
    · rw [hcheck] at hhit ⊢
      exact ⟨b, hb, hpc, (Option.some.inj hhit).symm, rfl⟩
    · rw [hcheck] at hhit
      cases hhit
  · rcases hkeyed.check_cases pc registers cycle with ⟨b, -, -, hcheck⟩ | ⟨-, hcheck⟩
    · rw [hcheck] at hmiss
      cases hmiss
    · rw [hcheck]

/-- A replacement keeps its place, and an address that was removed goes to the end. -/
example :
    let added : List TableRequest := [.add 1 none 0, .add 2 none 1, .add 3 none 2]
    (afterAll {} (added ++ [.add 1 none 3])).all.map (·.address) = [1, 2, 3] ∧
      (afterAll {} (added ++ [.remove 1, .add 1 none 3])).all.map (·.address) = [2, 3, 1] := by
  decide +kernel

end BreakpointTable

end Y86
