import Y86.Fault
import Y86.Word

/-!
# Registers

There are fifteen registers. A register field of an instruction holds a register or nothing: the sixteenth code
stands for the absence of a register, written here as `none`.

A `RegisterFile` keeps one word per register and shows it by its signed reading: what is read is
`Word.signed` of what was last written (`RegisterFile.get_set_self`), whatever was written to the others
(`RegisterFile.get_set_of_ne`).
-/

namespace Y86

/-- A general register, in the order of the codes. -/
inductive Register where
  | rax | rcx | rdx | rbx | rsp | rbp | rsi | rdi | r8 | r9 | r10 | r11 | r12 | r13 | r14
  deriving DecidableEq, Repr, Inhabited

namespace Register

def index : Register → Fin 15
  | rax => 0 | rcx => 1 | rdx => 2 | rbx => 3 | rsp => 4 | rbp => 5 | rsi => 6 | rdi => 7
  | r8 => 8 | r9 => 9 | r10 => 10 | r11 => 11 | r12 => 12 | r13 => 13 | r14 => 14

def name : Register → String
  | rax => "rax" | rcx => "rcx" | rdx => "rdx" | rbx => "rbx" | rsp => "rsp" | rbp => "rbp"
  | rsi => "rsi" | rdi => "rdi" | r8 => "r8" | r9 => "r9" | r10 => "r10" | r11 => "r11"
  | r12 => "r12" | r13 => "r13" | r14 => "r14"

def all : List Register :=
  [rax, rcx, rdx, rbx, rsp, rbp, rsi, rdi, r8, r9, r10, r11, r12, r13, r14]

def ofCode? (code : Nat) : Option Register := all[code]?

def ofName? (name : String) : Option Register := all.find? (·.name == name)

theorem mem_all (r : Register) : r ∈ all := by cases r <;> decide

/-- A register is found by its index. -/
theorem ofCode?_index (r : Register) : ofCode? r.index = some r := by cases r <;> rfl

theorem index_injective {r s : Register} (h : r.index = s.index) : r = s := by
  have hr := ofCode?_index r
  rw [h, ofCode?_index s] at hr
  exact (Option.some.inj hr).symm

/-- A register as an operand. -/
def operand (r : Register) : String := "%" ++ r.name

/-- How registers are grouped for display: the groups' names and members. -/
def layout : List (String × List Register) := [("General", all.take 8), ("Extended", all.drop 8)]

/-- The width of a register in bits. -/
def width : Nat := 64

end Register

/-- The fifteen registers' words. -/
structure RegisterFile where
  words : Vector Int64 15
  deriving DecidableEq

namespace RegisterFile

def zeros : RegisterFile := ⟨Vector.replicate 15 0⟩

instance : Inhabited RegisterFile := ⟨zeros⟩

/-- The signed value of a register. -/
def get (f : RegisterFile) (r : Register) : Int := f.words[r.index.val].toInt

/-- Stores the word of an integer in a register. -/
def set (f : RegisterFile) (r : Register) (value : Int) : RegisterFile :=
  ⟨f.words.set r.index (Int64.ofInt value)⟩

/-- A register holds the signed reading of what was assigned to it last. -/
@[simp] theorem get_set_self (f : RegisterFile) (r : Register) (value : Int) :
    (f.set r value).get r = Word.signed value := by
  simp only [get, set, Vector.getElem_set_self]
  exact Int64.toInt_ofInt

/-- An assignment leaves all other registers alone. -/
theorem get_set_of_ne (f : RegisterFile) {r s : Register} (h : r ≠ s) (value : Int) :
    (f.set r value).get s = f.get s := by
  have hne : (r.index : Nat) ≠ s.index := fun e => h (Register.index_injective (Fin.ext e))
  simp only [get, set]
  rw [Vector.getElem_set_ne _ _ hne]

/-- A register holds a signed word. -/
theorem get_inRange (f : RegisterFile) (r : Register) : Word.InRange (f.get r) :=
  ⟨Int64.le_toInt _, Int64.toInt_lt _⟩

/-- The value named by a register field; an empty field has no storage. -/
def read (f : RegisterFile) : Option Register → Except Fault Int
  | some r => .ok (f.get r)
  | none => .error .storage

/-- Stores a value where a register field says; an empty field has no storage. -/
def write (f : RegisterFile) (value : Int) : Option Register → Except Fault RegisterFile
  | some r => .ok (f.set r value)
  | none => .error .storage

/-- The values in the order of the codes. -/
def toList (f : RegisterFile) : List Int := Register.all.map f.get

/-- The file that holds the given values in the order of the codes; missing ones are zero. -/
def ofList (values : List Int) : RegisterFile :=
  (Register.all.zip values).foldl (fun f rv => f.set rv.1 rv.2) zeros

/-- The values with their registers, in the order of the codes. -/
def pairs (f : RegisterFile) : List (Register × Int) := Register.all.map fun r => (r, f.get r)

end RegisterFile

end Y86
