import Mathlib.Data.List.Forall2
import Mathlib.Data.Option.Basic
import Mathlib.Logic.Relator
import Y86.Session.Command

/-!
# Runs that differ in names

Snapshots and breakpoints are called by identifiers, and how these are numbered depends on all that a session has done
before. Two sessions that have come to the same point on different ways therefore have other names for the same
things. A `Naming` says which identifiers of one session stand for which of the other, and data that is the same but
for the names is matched by it:

* references (`Reference.Matches`), texts that mention identifiers (`Naming.Says`);
* breakpoints and breakpoint tables, snapshots and histories.

What a table or a history is asked for by matching references is found in both or in neither, and matches
(`BreakpointTable.Matches.find?`, `History.Matches.find?`). All that leaves a history has no names in it, so it is the
same (`History.Matches.compare?`, `History.Matches.written_eq`).
-/

namespace Y86

/-- Which identifiers of one run stand for which of another. -/
structure Naming where
  snapshot : SnapshotId → SnapshotId → Prop
  breakpoint : BreakpointId → BreakpointId → Prop

/-- No identifier stands for two, in neither direction. -/
structure Naming.Unique (N : Naming) : Prop where
  snapshot : Relator.BiUnique N.snapshot
  breakpoint : Relator.BiUnique N.breakpoint

/-- References to things that stand for each other, or to nothing in both runs. -/
inductive Reference.Matches {α : Type} (same : α → α → Prop) : Reference α → Reference α → Prop
  | id {x y : α} (h : same x y) : Matches same (.id x) (.id y)
  | gone {x y : α} (hx : ∀ z, ¬same x z) (hy : ∀ z, ¬same z y) : Matches same (.id x) (.id y)
  | text (words : String) : Matches same (.text words) (.text words)

/-- Texts that are the same but for the identifiers in them. -/
inductive Naming.Says (N : Naming) : String → String → Prop
  | text (words : String) : N.Says words words
  | snapshot {r r' : Reference SnapshotId} (h : r.Matches N.snapshot r') :
      N.Says (r.named SnapshotId.text) (r'.named SnapshotId.text)
  | breakpoint {r r' : Reference BreakpointId} (h : r.Matches N.breakpoint r') :
      N.Says (r.named BreakpointId.text) (r'.named BreakpointId.text)
  | append {a b c d : String} (h : N.Says a b) (h' : N.Says c d) : N.Says (a ++ c) (b ++ d)

/-- Breakpoints that are the same but for their identifiers. -/
structure Breakpoint.Matches (N : Naming) (b c : Breakpoint) : Prop where
  id : N.breakpoint b.id c.id
  address : b.address = c.address
  trigger : b.trigger = c.trigger
  enabled : b.enabled = c.enabled
  hits : b.hits = c.hits

/-- Tables with matching breakpoints, in the same order. -/
def BreakpointTable.Matches (N : Naming) (t u : BreakpointTable) : Prop :=
  List.Forall₂ (Breakpoint.Matches N) t.all u.all

structure BreakpointHit.Matches (N : Naming) (h k : BreakpointHit) : Prop where
  breakpoint : h.breakpoint.Matches N k.breakpoint
  cycle : h.cycle = k.cycle
  pc : h.pc = k.pc

structure Snapshot.Matches (N : Naming) (x y : Snapshot) : Prop where
  id : N.snapshot x.id y.id
  machine : x.machine = y.machine
  label : x.label = y.label

/-- Histories with matching snapshots, in the same order, in which also the next ones will match. -/
structure History.Matches (N : Naming) (h k : History) : Prop where
  snapshots : List.Forall₂ (Snapshot.Matches N) h.snapshots.toList k.snapshots.toList
  next : ∀ n, N.snapshot ⟨h.taken + n⟩ ⟨k.taken + n⟩

variable {N : Naming}

/-! ### References -/

/-- Matching references are to matching things. -/
theorem Reference.Matches.isTo_eq {α : Type} [DecidableEq α] {same : α → α → Prop} {r r' : Reference α}
    (h : r.Matches same r') (hunique : Relator.BiUnique same) {x y : α} (hxy : same x y) : r.isTo x = r'.isTo y := by
  cases h with
  | text words => rfl
  | @id x' y' h' =>
    rw [isTo_id, isTo_id, decide_eq_decide]
    constructor
    · rintro rfl
      exact hunique.2 hxy h'
    · rintro rfl
      exact hunique.1 hxy h'
  | @gone x' y' hx hy =>
    -- neither refers to one of the two
    rw [isTo_id, isTo_id, decide_eq_decide]
    constructor
    · rintro rfl
      exact absurd hxy (hx y)
    · rintro rfl
      exact absurd hxy (hy x)

/-! ### Looking things up -/

section Lookup

variable {α β : Type} {R : α → β → Prop} {l : List α} {l' : List β} {p : α → Bool} {q : β → Bool}

/-- Matching lists are searched with matching outcomes. -/
theorem rel_find? (h : List.Forall₂ R l l') (hpq : ∀ a b, R a b → p a = q b) :
    Option.Rel R (l.find? p) (l'.find? q) := by
  induction h with
  | nil => exact .none
  | @cons a b l l' hab _ ih =>
    by_cases hp : p a = true
    · rw [List.find?_cons_of_pos hp, List.find?_cons_of_pos (by rw [← hpq a b hab, hp])]
      exact .some hab
    · rw [List.find?_cons_of_neg hp, List.find?_cons_of_neg (by rwa [← hpq a b hab])]
      exact ih

/-- Related options are both empty, or hold what is related. -/
theorem cases_of_rel {x : Option α} {y : Option β} (h : Option.Rel R x y) :
    x = none ∧ y = none ∨ ∃ a b, x = some a ∧ y = some b ∧ R a b := by
  cases h with
  | none => exact Or.inl ⟨rfl, rfl⟩
  | some hab => exact Or.inr ⟨_, _, rfl, rfl, hab⟩

theorem isSome_of_rel {x : Option α} {y : Option β} (h : Option.Rel R x y) : x.isSome = y.isSome := by
  cases h <;> rfl

end Lookup

/-! ### Breakpoints -/

namespace Breakpoint.Matches

variable {b c : Breakpoint} (h : b.Matches N c)

include h

/-- Matching breakpoints count their hits alike. -/
theorem counted : b.counted.Matches N c.counted := { h with hits := congrArg (· + 1) h.hits }

theorem toggled : Breakpoint.Matches N { b with enabled := !b.enabled } { c with enabled := !c.enabled } :=
  { h with enabled := congrArg (!·) h.enabled }

/-- Matching breakpoints stop at the same registers, as they have the same trigger. -/
theorem stops_eq (registers : RegisterFile) : b.stops registers = c.stops registers := by
  unfold stops
  rw [h.enabled, h.trigger]

/-- A warning is about the condition, which matching breakpoints share. -/
theorem addWarning?_eq : b.addWarning? = c.addWarning? := by
  unfold addWarning?
  rw [h.trigger, h.address]

/-- Whether an identifier can be written depends on its address only. -/
theorem isWritable_eq : b.id.isWritable = c.id.isWritable := BreakpointId.isWritable_congr h.address

theorem checkWarning?_eq : b.checkWarning? = c.checkWarning? := by
  unfold checkWarning?
  rw [h.trigger, h.enabled]

end Breakpoint.Matches

namespace BreakpointTable

variable {t u : BreakpointTable}

/-- Matching breakpoints are put into the same place of matching tables, as they are at the same address. -/
theorem matches_put {b c : Breakpoint} {bs cs : List Breakpoint} (h : List.Forall₂ (Breakpoint.Matches N) bs cs)
    (hbc : b.Matches N c) : List.Forall₂ (Breakpoint.Matches N) (put b bs) (put c cs) := by
  induction h with
  | nil => exact .cons hbc .nil
  | @cons b' c' bs cs hhead htail ih =>
    unfold put
    rw [hhead.address, hbc.address]
    split
    · exact .cons hbc htail
    · exact .cons hhead ih

namespace Matches

variable (h : Matches N t u)

include h

/-- At an address matching tables have matching breakpoints, or none. -/
theorem get? (address : Int) : Option.Rel (Breakpoint.Matches N) (t.get? address) (u.get? address) := by
  refine rel_find? h fun b c hbc => ?_
  rw [hbc.address]

theorem has_eq (address : Int) : t.has address = u.has address := isSome_of_rel (h.get? address)

/-- Stored under their address, matching breakpoints stand at the same place. -/
theorem insert {b c : Breakpoint} (hbc : b.Matches N c) : Matches N (t.insert b) (u.insert c) := matches_put h hbc

theorem erase (address : Int) : Matches N (t.erase address) (u.erase address) := by
  refine List.rel_filter (fun b c hbc => ?_) h
  change (b.address != address) = true ↔ (c.address != address) = true
  rw [hbc.address]

/-- Matching references find matching breakpoints in matching tables. -/
theorem find? (hN : N.Unique) {r r' : Reference BreakpointId} (hr : r.Matches N.breakpoint r') :
    Option.Rel (Breakpoint.Matches N) (t.find? r) (u.find? r') :=
  rel_find? h fun _ _ hbc => hr.isTo_eq hN.breakpoint hbc.id

/-- So they remove matching breakpoints. -/
theorem eraseReferred (hN : N.Unique) {r r' : Reference BreakpointId} (hr : r.Matches N.breakpoint r') :
    Matches N (t.eraseReferred r) (u.eraseReferred r') := by
  unfold BreakpointTable.eraseReferred
  rcases cases_of_rel (h.find? hN hr) with ⟨ht, hu⟩ | ⟨b, c, ht, hu, hbc⟩
  · rw [ht, hu]
    exact h
  · rw [ht, hu]
    dsimp only
    rw [hbc.address]
    exact h.erase c.address

/-- Matching breakpoints are switched alike. -/
theorem toggle (address : Int) : Matches N (t.toggle address) (u.toggle address) := by
  unfold BreakpointTable.toggle
  rcases cases_of_rel (h.get? address) with ⟨ht, hu⟩ | ⟨b, c, ht, hu, hbc⟩
  · rw [ht, hu]
    exact h
  · rw [ht, hu]
    exact h.insert hbc.toggled

/-- Matching tables stop at matching breakpoints, or at none. -/
theorem stopping? (pc : Int) (registers : RegisterFile) :
    Option.Rel (Breakpoint.Matches N) (t.stopping? pc registers) (u.stopping? pc registers) := by
  unfold BreakpointTable.stopping?
  rcases cases_of_rel (h.get? pc) with ⟨ht, hu⟩ | ⟨b, c, ht, hu, hbc⟩
  · rw [ht, hu]
    exact .none
  · rw [ht, hu, Option.filter_some, Option.filter_some, hbc.stops_eq]
    split
    · exact .some hbc
    · exact .none

theorem checkWarning?_eq (pc : Int) : t.checkWarning? pc = u.checkWarning? pc := by
  unfold BreakpointTable.checkWarning?
  rcases cases_of_rel (h.get? pc) with ⟨ht, hu⟩ | ⟨b, c, ht, hu, hbc⟩
  · rw [ht, hu]
  · rw [ht, hu]
    exact hbc.checkWarning?_eq

end Matches

end BreakpointTable

/-! ### Histories -/

namespace History.Matches

variable {g k : History} (h : g.Matches N k)

include h

/-- A snapshot is taken under the next number of each history, and these numbers match. -/
theorem capture (m : Machine) (label : Option String) : (g.capture m label).Matches N (k.capture m label) where
  snapshots := by
    unfold History.capture
    rw [Array.toList_push, Array.toList_push]
    exact List.rel_append h.snapshots (.cons ⟨h.next 0, rfl, rfl⟩ .nil)
  next := fun n => by
    change N.snapshot ⟨g.taken + 1 + n⟩ ⟨k.taken + 1 + n⟩
    rw [Nat.add_assoc, Nat.add_assoc, Nat.add_comm 1 n]
    exact h.next (n + 1)

theorem find? (hN : N.Unique) {r r' : Reference SnapshotId} (hr : r.Matches N.snapshot r') :
    Option.Rel (Snapshot.Matches N) (g.find? r) (k.find? r') := by
  unfold History.find?
  rw [← Array.find?_toList, ← Array.find?_toList]
  exact rel_find? h.snapshots fun _ _ hxy => hr.isTo_eq hN.snapshot hxy.id

/-- A comparison does not name what it compares. -/
theorem compare? (hN : N.Unique) {r r' q q' : Reference SnapshotId} (hr : r.Matches N.snapshot r')
    (hq : q.Matches N.snapshot q') : g.compare? r q = k.compare? r' q' := by
  unfold History.compare?
  rcases cases_of_rel (h.find? hN hr) with ⟨hg, hk⟩ | ⟨x, y, hg, hk, hxy⟩
  · rw [hg, hk]
    rfl
  · rw [hg, hk]
    rcases cases_of_rel (h.find? hN hq) with ⟨hg', hk'⟩ | ⟨x', y', hg', hk', hxy'⟩
    · rw [hg', hk']
      rfl
    · -- a comparison reads the machines of the snapshots, and those are the same
      rw [hg', hk']
      change some (Comparison.between x x') = some (Comparison.between y y')
      unfold Comparison.between
      rw [hxy.machine, hxy'.machine]

/-- Nor does a record of a snapshot. -/
theorem records_eq : g.records = k.records := by
  have hrecord : ∀ x y : Snapshot, x.Matches N y → SnapshotRecord.ofSnapshot x = SnapshotRecord.ofSnapshot y := by
    intro x y hxy
    unfold SnapshotRecord.ofSnapshot
    rw [hxy.machine, hxy.label]
  have hmap : List.Forall₂ (· = ·) g.records k.records := List.rel_map hrecord h.snapshots
  rwa [List.forall₂_eq_eq_eq] at hmap

/-- Nor does a text of a history, whatever writes it. -/
theorem written_eq (yaml : List SnapshotRecord → String) (form : ExportFormat) :
    g.written yaml form = k.written yaml form := by
  unfold written toJson
  rw [h.records_eq]

end History.Matches

end Y86
