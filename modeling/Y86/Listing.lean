import Y86.Operation.Decode

/-!
# Listings

A listing shows a range of memory as rows: the address, the bytes, and the instruction that they encode. A byte
that starts no instruction is a row of its own. Each row begins where the one before it ends, and the listing
ends with the first row that reaches the end of the range or of memory.
-/

namespace Y86

open Text

structure ListingRow where
  /-- The address of the first byte. -/
  address : Nat
  /-- The bytes of the row. -/
  bytes : List UInt8
  /-- The instruction, or the byte as data. -/
  text : String
  deriving DecidableEq, Repr

namespace ListingRow

/-- The bytes as pairs of upper-case digits with spaces between them. -/
def hex (row : ListingRow) : String := " ".intercalate (row.bytes.map Hex.byteUpper)

end ListingRow

namespace Memory

/-- The bytes and the text of what starts at a position inside memory: an instruction, or one byte of data. -/
def rowAt (m : Memory) (address : Nat) : ListingRow :=
  let opcode := m.byteAt address
  match Operation.decode m address with
  | .ok op => ⟨address, opcode :: op.operandBytes, op.text⟩
  | .error _ => ⟨address, [opcode], ".byte 0x" ++ Hex.byte opcode⟩

/-- The row at an address, if that is inside memory. -/
def row? (m : Memory) (address : Int) : Option ListingRow :=
  if 0 ≤ address ∧ address < m.size then some (m.rowAt address.toNat) else none

theorem length_rowAt_pos (m : Memory) (address : Nat) : 0 < (m.rowAt address).bytes.length := by
  unfold rowAt
  split <;> simp

/-- The rows from a position on that start before `stop`. -/
def rowsUntil (m : Memory) (stop address : Nat) : List ListingRow :=
  if _h : address < stop ∧ address < m.size then
    let row := m.rowAt address
    row :: m.rowsUntil stop (address + row.bytes.length)
  else []
termination_by stop - address
decreasing_by
  -- a row has a byte at least, so that the next one begins further on
  have := m.length_rowAt_pos address
  omega

/-- The listing of `length` bytes from `start` on. -/
def listing (m : Memory) (start length : Int) : List ListingRow :=
  if 0 ≤ start then m.rowsUntil (start + length).toNat start.toNat else []

end Memory

end Y86
