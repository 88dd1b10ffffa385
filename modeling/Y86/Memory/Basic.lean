import Y86.Fault
import Y86.Word

/-!
# Memory

A memory is a positive number of bytes, addressed from zero. Multi-byte transfers are eight bytes wide and
little-endian, at any alignment. Beside the bytes it records which aligned words a write has met since the
record was last cleared, so that a trace entry can hold only what changed.

* `Memory.byte?` is the view of a memory by address; every operation says what it does to it.
* `Memory.write` and `Memory.writeQuad` fail outside memory and otherwise record the words that they meet.
* `Memory.wordAt` reads an aligned word, and `Memory.applyWords` lays words over a memory; both cut the last
  word at the end of memory.
-/

namespace Y86

/-- The bytes of a memory, with the record of the aligned words that were written. -/
structure Memory where
  /-- The contents, by address. -/
  bytes : ByteArray
  /-- The addresses of the words written since the record was cleared, ascending. -/
  touched : List Nat
  /-- A memory has at least one byte. -/
  size_pos : 0 < bytes.size

namespace Memory

/-- The width of an aligned word and of a quad transfer, in bytes. -/
abbrev wordSize : Nat := 8

/-- The number of bytes of a memory when none is asked for. -/
abbrev defaultSize : Nat := 0x8000

def size (m : Memory) : Nat := m.bytes.size

def zeros (size : Nat) (h : 0 < size) : Memory where
  bytes := ⟨Array.replicate size 0⟩
  touched := []
  size_pos := by simpa [ByteArray.size] using h

instance : Inhabited Memory := ⟨zeros defaultSize (by decide)⟩

/-- A size has to be less than `2 ^ 63`, so that 64 bits hold it with its sign. -/
abbrev sizeBound : Nat := 9223372036854775808

/-- Why there is no memory of a requested size. -/
inductive SizeError where
  /-- The size is zero or negative. -/
  | notPositive
  /-- The size is out of bounds. -/
  | tooLarge
  deriving DecidableEq, Repr

/-- What is said of an error, beside its kind. -/
def SizeError.message? : SizeError → Option String
  | notPositive => some "Memory size must be a positive integer."
  | tooLarge => none

/-- A requested size, which has to be positive and in bounds. -/
def checkSize (size : Int) : Except SizeError { n : Nat // 0 < n ∧ n < sizeBound } :=
  if hp : 0 < size.toNat then
    if hb : size.toNat < sizeBound then .ok ⟨size.toNat, hp, hb⟩ else .error .tooLarge
  else .error .notPositive

def ofSize (size : Int) : Except SizeError Memory := (checkSize size).map fun n => zeros n.val n.property.1

/-- A memory with the given contents; there is none without bytes. -/
def ofBytes (bytes : ByteArray) : Except SizeError Memory :=
  if h : 0 < bytes.size then .ok ⟨bytes, [], h⟩ else .error .notPositive

/-! ### The view by address -/

/-- The byte at an address, if there is one. -/
def byte? (m : Memory) (address : Int) : Option UInt8 :=
  if 0 ≤ address then m.bytes[address.toNat]? else none

/-- The byte at a position, zero outside memory. -/
def byteAt (m : Memory) (i : Nat) : UInt8 := m.bytes[i]?.getD 0

/-- Fails unless `length` bytes from `address` on lie inside memory. -/
def require (m : Memory) (direction : Transfer) (address : Int) (length : Nat) : Except Fault Unit :=
  if 0 ≤ address ∧ address + length ≤ m.size then .ok ()
  else .error (.transfer direction address m.size)

/-! ### Bytes laid over bytes -/

/-- Lays `values` over `bytes` from position `i` on; what would lie past the end is dropped. -/
def overlay (bytes : ByteArray) (i : Nat) : List UInt8 → ByteArray
  | [] => bytes
  | v :: vs => if h : i < bytes.size then overlay (bytes.set i v h) (i + 1) vs else bytes

@[simp] theorem size_set (bytes : ByteArray) (i : Nat) (v : UInt8) (h : i < bytes.size) :
    (bytes.set i v h).size = bytes.size := by
  cases bytes
  exact Array.size_set h

/-- Bytes that are laid over others stay within them. -/
@[simp] theorem size_overlay (bytes : ByteArray) (i : Nat) (values : List UInt8) :
    (overlay bytes i values).size = bytes.size := by
  induction values generalizing bytes i with
  | nil => rfl
  | cons v vs ih =>
    unfold overlay
    split
    · rw [ih, size_set]
    · rfl

/-- Where `values` cover a position of `bytes`, they are read there; elsewhere nothing changes. -/
theorem getElem?_overlay (bytes : ByteArray) (i : Nat) (values : List UInt8) (j : Nat) :
    (overlay bytes i values)[j]?
      = if i ≤ j ∧ j < i + values.length ∧ j < bytes.size then values[j - i]? else bytes[j]? := by
  show (overlay bytes i values).data[j]? = if _ then _ else bytes.data[j]?
  induction values generalizing bytes i with
  | nil => simp only [overlay, List.length_nil]; rw [if_neg (by omega)]
  | cons v vs ih =>
    unfold overlay
    split
    case isTrue h =>
      rw [ih, size_set]
      -- the first value is at `i`, and the others begin behind it
      by_cases hj : i = j
      · subst hj
        rw [if_neg (by omega), if_pos ⟨Nat.le_refl i, by simp, h⟩]
        simp [ByteArray.set]
      · by_cases hc : i + 1 ≤ j ∧ j < i + 1 + vs.length ∧ j < bytes.size
        · rw [if_pos hc, if_pos ⟨by omega, by simp; omega, hc.2.2⟩]
          have : j - i = (j - (i + 1)) + 1 := by omega
          rw [this, List.getElem?_cons_succ]
        · rw [if_neg hc, if_neg (by simp only [List.length_cons]; omega)]
          simp [ByteArray.set, hj]
    -- behind the end nothing is written
    case isFalse h => rw [if_neg (by omega)]

/-! ### Touched words -/

/-- Adds a word to an ascending list of words, at its place and only once. -/
def insertWord (base : Nat) : List Nat → List Nat
  | [] => [base]
  | b :: bs =>
    if base < b then base :: b :: bs
    else if base = b then b :: bs
    else b :: insertWord base bs

/-- Words in ascending order, each of them once. -/
def sortWords (bases : List Nat) : List Nat := bases.foldr insertWord []

/-- The words that the `length` bytes from `address` on meet, ascending. -/
def wordsMet (address length : Nat) : List Nat :=
  let first := address / wordSize
  -- of the last byte, not of the one behind it
  let last := (address + length - 1) / wordSize
  (List.range (last + 1 - first)).map fun k => (first + k) * wordSize

/-- Records the words that the `length` bytes from `address` on meet. -/
def touch (m : Memory) (address length : Nat) : Memory :=
  { m with touched := (wordsMet address length).foldl (fun ts base => insertWord base ts) m.touched }

def clearTouched (m : Memory) : Memory := { m with touched := [] }

/-- Lays bytes over memory without recording it. -/
def lay (m : Memory) (i : Nat) (values : List UInt8) : Memory where
  bytes := overlay m.bytes i values
  touched := m.touched
  size_pos := by rw [size_overlay]; exact m.size_pos

@[simp] theorem size_zeros (size : Nat) (h : 0 < size) : (zeros size h).size = size :=
  Array.size_replicate

/-- No operation changes the size of a memory. -/
@[simp] theorem size_lay (m : Memory) (i : Nat) (values : List UInt8) :
    (m.lay i values).size = m.size := size_overlay _ _ _

@[simp] theorem size_touch (m : Memory) (address length : Nat) : (m.touch address length).size = m.size := rfl

@[simp] theorem size_clearTouched (m : Memory) : m.clearTouched.size = m.size := rfl

/-- The record of touched words is not seen by a read. -/
@[simp] theorem byteAt_touch (m : Memory) (address length i : Nat) :
    (m.touch address length).byteAt i = m.byteAt i := rfl

@[simp] theorem byteAt_clearTouched (m : Memory) (i : Nat) : m.clearTouched.byteAt i = m.byteAt i := rfl

/-! ### Transfers -/

/-- The byte at an address inside memory. -/
def read (m : Memory) (address : Int) : Except Fault UInt8 := do
  m.require .read address 1
  return m.byteAt address.toNat

/-- Writes a value to one byte; the address is looked at before the value. -/
def write (m : Memory) (address value : Int) : Except Fault Memory := do
  m.require .write address 1
  if 0 ≤ value ∧ value ≤ 0xFF then
    return (m.lay address.toNat [UInt8.ofNat value.toNat]).touch address.toNat 1
  else throw (.byte value)

/-- The write of a byte fails for its address alone. -/
theorem write_eq_error {m : Memory} {address value : Int} {fault : Fault} (hvalue : 0 ≤ value ∧ value ≤ 0xFF)
    (h : m.write address value = .error fault) :
    ¬(0 ≤ address ∧ address + (1 : Nat) ≤ m.size) ∧ fault = .transfer .write address m.size := by
  unfold write require at h
  by_cases hrange : 0 ≤ address ∧ address + (1 : Nat) ≤ m.size
  · rw [if_pos hrange] at h
    change (if 0 ≤ value ∧ value ≤ 0xFF then _ else _) = _ at h
    rw [if_pos hvalue] at h
    cases h
  · rw [if_neg hrange] at h
    exact ⟨hrange, (Except.error.inj h).symm⟩

/-- The `length` bytes from position `i` on, zero outside memory. -/
def window (m : Memory) (i length : Nat) : List UInt8 := (List.range length).map fun k => m.byteAt (i + k)

/-- A number of bytes from an address on, read one after the other. -/
def readBytes (m : Memory) (address : Int) : Nat → Except Fault (List UInt8)
  | 0 => return []
  | length + 1 => do
    let byte ← m.read address
    let bytes ← m.readBytes (address + 1) length
    return byte :: bytes

/-- The word in the eight bytes from an address on, unsigned. -/
def readQuad (m : Memory) (address : Int) : Except Fault Nat := do
  m.require .read address wordSize
  return Word.ofBytes (m.window address.toNat wordSize)

/-- The word in the eight bytes from an address on, signed. -/
def readSigned (m : Memory) (address : Int) : Except Fault Int :=
  (m.readQuad address).map fun n => Word.signed n

/-- Writes the word of an integer to the eight bytes from an address on. -/
def writeQuad (m : Memory) (address value : Int) : Except Fault Memory := do
  m.require .write address wordSize
  return (m.lay address.toNat (Word.toBytes value)).touch address.toNat wordSize

/-! ### Words and images -/

/-- The word from `base` on, unsigned; bytes past the end of memory count as zero. -/
def wordAt (m : Memory) (base : Nat) : Nat := Word.ofBytes (m.window base wordSize)

/-- Lays one word over memory, cut at its end; a word that starts outside memory is left out. -/
def applyWord (m : Memory) (base value : Int) : Memory :=
  if 0 ≤ base ∧ base < m.size then m.lay base.toNat (Word.toBytes value) else m

/-- Lays words over memory one after the other, without recording it. -/
def applyWords (m : Memory) (words : List (Int × Int)) : Memory :=
  words.foldl (fun m w => m.applyWord w.1 w.2) m

@[simp] theorem size_applyWord (m : Memory) (base value : Int) : (m.applyWord base value).size = m.size := by
  unfold applyWord
  split
  · exact size_lay _ _ _
  · rfl

/-- Words that are laid over a memory are cut at its end. -/
@[simp] theorem size_applyWords (m : Memory) (words : List (Int × Int)) :
    (m.applyWords words).size = m.size := by
  unfold applyWords
  induction words generalizing m with
  | nil => rfl
  | cons w ws ih => rw [List.foldl_cons, ih, size_applyWord]

/-- The aligned blocks that hold a byte other than zero, ascending; the last block may be short. -/
def blocks (m : Memory) : List (Nat × List UInt8) :=
  (List.range ((m.size + wordSize - 1) / wordSize)).filterMap fun k =>
    let base := k * wordSize
    let block := m.window base (min wordSize (m.size - base))
    if block.all (· == 0) then none else some (base, block)

end Memory

end Y86
