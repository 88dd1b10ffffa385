/-!
# Blanks and words

White space is a property of characters that the Unicode standard lists; the four information separators of
ASCII count as well. A text is trimmed by leaving out the blanks at its ends, and its words are the longest
stretches without blanks.
-/

namespace Y86.Text

/-- The code points of white space outside the ranges `U+0009`–`U+000D` and `U+2000`–`U+200A`. -/
def singleSpaces : List Nat := [0x20, 0x85, 0xa0, 0x1680, 0x2028, 0x2029, 0x202f, 0x205f, 0x3000]

/-- Being white space. -/
def isSpace (c : Char) : Bool :=
  let n := c.toNat
  (0x09 ≤ n && n ≤ 0x0d) || (0x2000 ≤ n && n ≤ 0x200a) || singleSpaces.contains n

/-- Being white space or an information separator. -/
def isBlank (c : Char) : Bool := isSpace c || (0x1c ≤ c.toNat && c.toNat ≤ 0x1f)

/-- A text without the characters of a class at its ends. -/
def trimOf (p : Char → Bool) (cs : List Char) : List Char := ((cs.dropWhile p).reverse.dropWhile p).reverse

/-- A text without the blanks at its ends. -/
def trim (cs : List Char) : List Char := trimOf isBlank cs

/-- The word in front of a text, and the words behind it: the value is the first word, which is empty if the text
starts with a blank, and the rest. -/
def wordsFrom : List Char → List Char × List (List Char)
  | [] => ([], [])
  | c :: cs =>
    let (word, words) := wordsFrom cs
    if isBlank c then ([], if word.isEmpty then words else word :: words)
    else (c :: word, words)

/-- The words of a text. -/
def words (cs : List Char) : List (List Char) :=
  let (word, words) := wordsFrom cs
  if word.isEmpty then words else word :: words

end Y86.Text
