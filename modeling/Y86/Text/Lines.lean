/-!
# Lines

A line ends with one of eleven marks, which is not part of it; a carriage return and the line feed behind it are
one mark. Text behind the last mark is a line of its own, unless it is empty.
-/

namespace Y86.Text

/-- Being the end of a line, as a single character. -/
def isLineEnd (c : Char) : Bool :=
  let n := c.toNat
  (0x0a ≤ n && n ≤ 0x0d) || (0x1c ≤ n && n ≤ 0x1e) || n == 0x85 || n == 0x2028 || n == 0x2029

/-- Puts a character in front of the first line. -/
def consFirst (c : Char) : List (List Char) → List (List Char)
  | [] => [[c]]
  | line :: lines => (c :: line) :: lines

/-- The lines of a text, without their ends. -/
def lines : List Char → List (List Char)
  | [] => []
  | '\r' :: '\n' :: cs => [] :: lines cs
  | c :: cs => if isLineEnd c then [] :: lines cs else consFirst c (lines cs)

end Y86.Text
