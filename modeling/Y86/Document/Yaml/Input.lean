import Y86.Text.Point

/-!
# Input

Documents do not admit every character. A string is looked through before anything else is done, so it is read as a
whole or not at all. A file comes in pieces, and each piece is looked through when it comes in: what goes wrong in the
pieces in front of it is found first.

An input is what can be read of a text, with whether it is cut off there.
-/

namespace Y86.Document.Yaml

open Text

/-- A character that may occur in a document. -/
def isAdmitted (c : Char) : Bool :=
  let n := c.toNat
  c == '\t' || c == '\n' || c == '\r' || (0x20 ≤ n && n ≤ 0x7e) || n == 0x85 || (0xa0 ≤ n && n ≤ 0xd7ff)
    || (0xe000 ≤ n && n ≤ 0xfffd) || 0x10000 ≤ n

/-- What can be read of a text. -/
structure Input where
  /-- The characters. -/
  chars : List Char
  /-- Whether the text goes on behind them, with something that cannot be read. -/
  cut : Bool

namespace Input

/-- A string as an input. A surrogate is no character, and not admitted. -/
def ofString (text : List Point) : Input :=
  if text.all fun p => p.char?.any isAdmitted then ⟨Text.chars text, false⟩ else ⟨[], true⟩

/-- The usual number of characters of a piece. -/
abbrev pieceSize : Nat := 4096

/-- The beginning of the piece that a character of a file lies in; the first piece is of twice the usual size. -/
def pieceStart (k : Nat) : Nat := if k < 2 * pieceSize then 0 else k - k % pieceSize

/-- The lines of a file all end in a line feed. -/
def plainBreaks : List Char → List Char
  | '\r' :: '\n' :: cs => '\n' :: plainBreaks cs
  | c :: cs => (if c = '\r' then '\n' else c) :: plainBreaks cs
  | [] => []

/-- A file as an input, up to the piece with the first character that is not admitted. -/
def ofFile (text : List Point) : Input :=
  let cs := plainBreaks (Text.chars text)
  let readable := cs.takeWhile isAdmitted
  if readable.length = cs.length then ⟨cs, false⟩ else ⟨readable.take (pieceStart readable.length), true⟩

end Input

end Y86.Document.Yaml
