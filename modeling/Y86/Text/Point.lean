/-!
# Code points

Most texts are made of characters. A document can also name a code point by its number, and the surrogates have
numbers without being characters, so its texts are made of code points.

`chars` is the view of such a text as characters: a surrogate is seen as the replacement character, which like it is
neither a letter nor a digit nor a blank.
-/

namespace Y86.Text

/-- The number of code points. -/
abbrev pointCount : Nat := 0x110000

/-- A code point. -/
structure Point where
  /-- The number of the code point. -/
  value : Nat
  /-- The numbers are bounded. -/
  value_lt : value < pointCount
  deriving DecidableEq, Repr

namespace Point

def ofChar (c : Char) : Point :=
  ⟨c.toNat, by
    have h := c.valid
    simp only [UInt32.isValidChar, Nat.isValidChar] at h
    show c.val.toNat < 0x110000
    omega⟩

/-- The character of a code point, if it is not a surrogate. -/
def char? (p : Point) : Option Char :=
  if h : p.value.isValidChar then some (Char.ofNatAux p.value h) else none

/-- The code point as a character; a surrogate is seen as the replacement character. -/
def toChar (p : Point) : Char := p.char?.getD '\ufffd'

@[simp] theorem toChar_ofChar (c : Char) : (ofChar c).toChar = c := by
  have h : c.toNat.isValidChar := c.valid
  unfold toChar char? ofChar
  rw [dif_pos (show c.toNat.isValidChar from h)]
  exact Char.ext (UInt32.toNat_inj.mp (UInt32.toNat_ofNatLT ..))

end Point

/-- A string of characters as code points. -/
def points (s : String) : List Point := s.toList.map .ofChar

/-- A text as characters. -/
def chars (ps : List Point) : List Char := ps.map Point.toChar

/-- A text of characters has no code points that are none. -/
@[simp] theorem chars_points (s : String) : chars (points s) = s.toList := by
  simp [chars, points, List.map_map, Function.comp_def]

end Y86.Text
