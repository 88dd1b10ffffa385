import Y86.Snapshot.Record

/-!
# The history of a run

A history lists snapshots in the order in which they were taken. Identifiers are numbered through for the life of a
history, also when it is cleared, so no two snapshots share one.
-/

namespace Y86

/-- Snapshots in the order in which they were taken. -/
structure History where
  snapshots : Array Snapshot := #[]
  /-- How many snapshots have been taken so far, those included that are gone. -/
  taken : Nat := 0

namespace History

def size (h : History) : Nat := h.snapshots.size

/-- The snapshot that is taken next of a machine. -/
def snapshotOf (h : History) (m : Machine) (label : Option String) : Snapshot :=
  { id := ⟨h.taken⟩, machine := m.copy, label }

/-- Takes a snapshot of a machine. -/
def capture (h : History) (m : Machine) (label : Option String) : History where
  snapshots := h.snapshots.push (h.snapshotOf m label)
  taken := h.taken + 1

/-- The snapshot that a reference is to. -/
def find? (h : History) (r : Reference SnapshotId) : Option Snapshot := h.snapshots.find? fun s => r.isTo s.id

/-- The position of the snapshot that a reference is to. -/
def indexOf? (h : History) (r : Reference SnapshotId) : Option Nat := h.snapshots.findIdx? fun s => r.isTo s.id

def latest? (h : History) : Option Snapshot := h.snapshots.back?

def clear (h : History) : History := { h with snapshots := #[] }

/-- The comparison of two snapshots, given by references. -/
def compare? (h : History) (first second : Reference SnapshotId) : Option Comparison := do
  return .between (← h.find? first) (← h.find? second)

def records (h : History) : List SnapshotRecord := h.snapshots.toList.map .ofSnapshot

end History

end Y86
