import Y86.Document.Yaml.Input
import Y86.Text.Hex

/-!
# Places in a YAML text

A cursor is a place in a text: what lies ahead, and how many characters, lines and columns lie behind. Blanks and
line breaks decide almost everything in YAML, so the classes of characters that they belong to stand here, too. The
end of the text belongs to each of these classes.
-/

namespace Y86.Document.Yaml

open Text

/-- Ending a line. -/
def isBreak (c : Char) : Bool := ['\n', '\r', '\x85', '\u2028', '\u2029'].contains c

/-- Being a letter or digit of ASCII, a hyphen or an underscore. -/
def isWord (c : Char) : Bool := c.isAlphanum || c == '-' || c == '_'

/-- A line break or the end. -/
def atBreak (c : Option Char) : Bool := c.all isBreak

/-- A space, a line break or the end. -/
def atSpace (c : Option Char) : Bool := c.all fun c => c == ' ' || isBreak c

/-- A space, a tab, a line break or the end. -/
def atBlank (c : Option Char) : Bool := c.all fun c => c == ' ' || c == '\t' || isBreak c

/-- A place in a text. -/
structure Cursor where
  /-- What lies ahead. -/
  rest : List Char
  /-- How many characters the text has. -/
  size : Nat
  /-- How many characters lie behind. -/
  index : Nat := 0
  /-- How many lines lie behind. -/
  line : Nat := 0
  /-- How many characters of the line lie behind. -/
  column : Nat := 0
  /-- Whether the text goes on behind what lies ahead, with something that cannot be read. -/
  cut : Bool := false

namespace Cursor

/-- The beginning of an input. -/
def start (input : Input) : Cursor := { rest := input.chars, size := input.chars.length, cut := input.cut }

/-- How many characters lie ahead. -/
def left (c : Cursor) : Nat := c.size - c.index

/-- The next character. -/
def peek (c : Cursor) : Option Char := c.rest.head?

/-- The character that is `k` ahead of the next one. -/
def ahead (c : Cursor) (k : Nat) : Option Char := c.rest[k]?

/-- Whether what lies ahead cannot be read. -/
def isCut (c : Cursor) : Bool := c.cut && c.rest.isEmpty

/-- The place behind the next character. A carriage return and a line feed end one line, and a byte order mark
takes no column. -/
def next (c : Cursor) : Cursor :=
  match c.rest with
  | [] => c
  | ch :: rest =>
    if isBreak ch && !(ch == '\r' && rest.head? == some '\n') then
      { c with rest, index := c.index + 1, line := c.line + 1, column := 0 }
    else { c with rest, index := c.index + 1, column := if ch == '\ufeff' then c.column else c.column + 1 }

/-- The place behind the next `n` characters. -/
def skip : Nat → Cursor → Cursor
  | 0, c => c
  | n + 1, c => skip n c.next

/-- The characters ahead that have a property. -/
def run (p : Char → Bool) (c : Cursor) : List Char := c.rest.takeWhile p

/-- The place behind the characters ahead that have a property. -/
def skipWhile (p : Char → Bool) (c : Cursor) : Cursor := c.skip (c.run p).length

/-- The place behind the spaces ahead. -/
def skipSpaces (c : Cursor) : Cursor := c.skipWhile (· == ' ')

/-- The line break ahead, in its plain form, and the place behind it. -/
def lineBreak? (c : Cursor) : Option (Char × Cursor) :=
  match c.rest with
  | '\r' :: '\n' :: _ => some ('\n', c.skip 2)
  | ch :: _ =>
    if isBreak ch then some (if ch == '\u2028' || ch == '\u2029' then ch else '\n', c.next) else none
  | [] => none

/-- The place behind the line break ahead, if there is one. -/
def skipBreak (c : Cursor) : Cursor := (c.lineBreak?.map (·.2)).getD c

/-- The place behind the comment ahead, if there is one. -/
def skipComment (c : Cursor) : Cursor := if c.peek = some '#' then c.skipWhile (!isBreak ·) else c

/-- The place behind the rest of a line that only holds spaces and a comment. -/
def skipLine? (c : Cursor) : Option Cursor :=
  let c := c.skipSpaces.skipComment
  if atBreak c.peek then some c.skipBreak else none

/-- Whether the mark of a document lies ahead, three of a character at the beginning of a line. -/
def atMark (mark : Char) (c : Cursor) : Bool := c.rest.take 3 == [mark, mark, mark] && atBlank (c.ahead 3)

/-- Whether a mark between documents lies ahead. -/
def atDocument (c : Cursor) : Bool := c.atMark '-' || c.atMark '.'

end Cursor

end Y86.Document.Yaml
