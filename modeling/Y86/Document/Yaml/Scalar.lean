import Y86.Document.Yaml.Cursor
import Y86.Document.Yaml.Error

/-!
# Texts of scalars

A scalar is written plainly, between quotes, or as a block of lines. A single line break between two pieces of a
plain or quoted scalar stands for a space, and a blank line for a line break.

The readers below take the place of a scalar and give its text with the place behind it. They count down from the
length of what lies ahead, which is more than they need, since each turn takes a character.
-/

namespace Y86.Document.Yaml

open Text

/-! ### Line breaks -/

/-- What a line break and the blank lines behind it stand for. -/
def folded (first : Char) (more : List Char) : List Char :=
  if first ≠ '\n' then first :: more
  else if more.isEmpty then [' ']
  else more

/-- The line breaks of blank lines ahead, in which there may be characters of `blanks`, and the place behind them;
none if a mark between documents comes in the way. -/
def blankLines? (blanks : List Char) : Nat → Cursor → Option (List Char × Cursor)
  | 0, _ => none
  | fuel + 1, c =>
    if c.column = 0 && c.atDocument then none
    else
      let c := c.skipWhile blanks.contains
      match c.lineBreak? with
      | some (ch, c) => (blankLines? blanks fuel c).map fun (more, c) => (ch :: more, c)
      | none => some ([], c)

/-! ### Quoted scalars -/

/-- The characters that are written as a backslash and a letter or sign. -/
def escapes : List (Char × Char) := [
  ('0', '\x00'), ('a', '\x07'), ('b', '\x08'), ('t', '\t'), ('\t', '\t'), ('n', '\n'), ('v', '\x0b'),
  ('f', '\x0c'), ('r', '\r'), ('e', '\x1b'), (' ', ' '), ('"', '"'), ('\\', '\\'), ('/', '/'), ('N', '\x85'),
  ('_', '\xa0'), ('L', '\u2028'), ('P', '\u2029')]

/-- How many hexadecimal digits follow a letter behind a backslash. -/
def codeLength? (ch : Char) : Option Nat :=
  if ch = 'x' then some 2 else if ch = 'u' then some 4 else if ch = 'U' then some 8 else none

/-- The code point with a number. -/
def pointOf (n : Nat) : Scan Point :=
  if h : n < pointCount then .ok ⟨n, h⟩
  else if n < Nat.pow 2 31 then .error .codePoint
  else .error .wideCode

/-- What a backslash and the characters behind it stand for, and the place behind them. -/
def escaped (c : Cursor) : Scan (List Point × Cursor) := do
  let ch ← present (c.ahead 1)
  match escapes.lookup ch with
  | some meant => return ([.ofChar meant], c.skip 2)
  | none =>
    match codeLength? ch with
    | some n =>
      let digits := (c.rest.drop 2).take n
      require (digits.length = n && digits.all Hex.isDigit)
      return ([← pointOf (Hex.value digits)], c.skip (2 + n))
    | none =>
      require (isBreak ch)
      let (breaks, c) ← present (blankLines? [' ', '\t'] (c.left + 1) c.next.skipBreak)
      return (breaks.map .ofChar, c)

/-- The quote that ends a quoted scalar. -/
def closingQuote (double : Bool) : Char := if double then '"' else '\''

/-- The text of a quoted scalar up to a blank or the closing quote, and the place behind it. -/
def quotedWord (double : Bool) : Nat → Cursor → Scan (List Point × Cursor)
  | 0, _ => .error .malformed
  | fuel + 1, c => do
    match c.peek with
    | none => return ([], c)
    | some ch =>
      let closes := ch == closingQuote double && (double || c.ahead 1 != some '\'')
      if atBlank (some ch) || closes then return ([], c)
      let (ps, c) ←
        if double && ch == '\\' then escaped c
        else pure ([Point.ofChar ch], c.skip (if !double && ch == '\'' then 2 else 1))
      let (rest, c) ← quotedWord double fuel c
      return (ps ++ rest, c)

/-- What the blanks inside a quoted scalar stand for, and the place behind them; the text must not end there. -/
def quotedBlanks? (c : Cursor) : Option (List Char × Cursor) :=
  let blanks := c.run fun ch => ch == ' ' || ch == '\t'
  let c := c.skip blanks.length
  if c.peek = none then none
  else match c.lineBreak? with
    | none => some (blanks, c)
    | some (first, c) => (blankLines? [' ', '\t'] (c.left + 1) c).map fun (more, c) => (folded first more, c)

/-- The rest of a quoted scalar, up to its closing quote. -/
def quotedRest (double : Bool) : Nat → Cursor → Scan (List Point × Cursor)
  | 0, _ => .error .malformed
  | fuel + 1, c => do
    let (word, c) ← quotedWord double (c.left + 1) c
    if c.peek = some (closingQuote double) then return (word, c.next)
    let (blanks, c) ← present (quotedBlanks? c)
    let (rest, c) ← quotedRest double fuel c
    return (word ++ blanks.map .ofChar ++ rest, c)

/-- The quoted scalar ahead, and the place behind it. -/
def quoted (double : Bool) (c : Cursor) : Scan (List Point × Cursor) := quotedRest double (c.left + 1) c.next

/-! ### Plain scalars -/

/-- The signs that separate the parts of a collection between brackets. -/
def isFlowSign (ch : Char) : Bool := ",[]\x7b\x7d".toList.contains ch

/-- The characters of a plain scalar up to a blank, a colon that ends a key, or, between brackets, a sign of the
collection. -/
def plainWord (flow : Bool) : List Char → List Char
  | [] => []
  | ch :: rest =>
    let next := rest.head?
    let ends := atBlank (some ch) || (ch == ':' && (atBlank next || (flow && next.any isFlowSign)))
      || (flow && (ch == '?' || isFlowSign ch))
    if ends then [] else ch :: plainWord flow rest

/-- What the blanks behind a word of a plain scalar stand for, the place behind them, and whether there is a line
break among them. They stand for nothing if the scalar ends with the word. -/
def plainBlanks (c : Cursor) : List Char × Cursor × Bool :=
  let spaces := c.run (· == ' ')
  let c := c.skip spaces.length
  match c.lineBreak? with
  | none => (spaces, c, false)
  | some (first, c) =>
    match blankLines? [' '] (c.left + 1) c with
    | some (more, c) => (folded first more, c, true)
    | none => ([], c, true)

/-- A plain scalar of words and blanks between them: the text, the place behind it, and whether a line break has
been passed since its last word. Outside brackets a line of it is indented by at least `indent`. -/
def plainRest (flow : Bool) (indent : Int) : Nat → Cursor → List Char → Bool → List Char × Cursor × Bool
  | 0, c, _, passed => ([], c, passed)
  | fuel + 1, c, blanks, passed =>
    let word := if c.peek = some '#' then [] else plainWord flow c.rest
    if word.isEmpty then ([], c, passed)
    else
      let (between, c, passed) := plainBlanks (c.skip word.length)
      if between.isEmpty || c.peek = some '#' || (!flow && (c.column : Int) < indent) then
        (blanks ++ word, c, passed)
      else
        let (rest, c, passed) := plainRest flow indent fuel c between passed
        (blanks ++ word ++ rest, c, passed)

/-- The plain scalar ahead, the place behind it, and whether a line break lies between. -/
def plain (flow : Bool) (indent : Int) (c : Cursor) : List Char × Cursor × Bool :=
  plainRest flow indent (c.left + 1) c [] false

/-! ### Blocks of lines -/

/-- What becomes of the line breaks at the end of a block. -/
inductive Chomping where
  | strip | clip | keep
  deriving DecidableEq, Repr

/-- The sign of a chomping. -/
def chomping? (ch : Char) : Option Chomping :=
  if ch = '+' then some .keep else if ch = '-' then some .strip else none

/-- The digit of an indentation, which is not zero. -/
def increment? (ch : Char) : Option Nat :=
  if '1' ≤ ch ∧ ch ≤ '9' then some (ch.toNat - 48) else none

/-- The signs in the first line of a block, in either order, and the place behind them. -/
def blockSigns (c : Cursor) : Option Chomping × Option Nat × Cursor :=
  let first := c.peek
  match first.bind chomping? with
  | some chomping =>
    match (c.ahead 1).bind increment? with
    | some n => (some chomping, some n, c.skip 2)
    | none => (some chomping, none, c.next)
  | none =>
    match first.bind increment? with
    | some n =>
      match (c.ahead 1).bind chomping? with
      | some chomping => (some chomping, some n, c.skip 2)
      | none => (none, some n, c.next)
    | none => (none, none, c)

/-- The place behind at most as many spaces as lead to a column. -/
def indentTo (column : Nat) (c : Cursor) : Cursor :=
  c.skip (min (column - c.column) (c.run (· == ' ')).length)

/-- The line breaks of the lines ahead that hold no more than the indentation, and the place behind them, indented
as far as it is. -/
def blockBreaks (indent : Nat) : Nat → Cursor → List Char × Cursor
  | 0, c => ([], c)
  | fuel + 1, c =>
    let c := indentTo indent c
    match c.lineBreak? with
    | some (ch, c) =>
      let (more, c) := blockBreaks indent fuel c
      (ch :: more, c)
    | none => ([], c)

/-- The line breaks in front of a block, the place behind them and its spaces, and the greatest column among
them. -/
def blockIndent : Nat → Cursor → Nat → List Char × Cursor × Nat
  | 0, c, width => ([], c, width)
  | fuel + 1, c, width =>
    let c := c.skipSpaces
    let width := max width c.column
    match c.lineBreak? with
    | some (ch, c) =>
      let (more, c, width) := blockIndent fuel c width
      (ch :: more, c, width)
    | none => ([], c, width)

/-- The lines of a block: their text but for the last line break, that line break, the breaks behind it, and the
place behind them. -/
def blockLines (fold : Bool) (indent : Nat) :
    Nat → Cursor → List Char → List Char × Option Char × List Char × Cursor
  | 0, c, breaks => ([], none, breaks, c)
  | fuel + 1, c, breaks =>
    if c.column ≠ indent ∨ c.peek = none then ([], none, breaks, c)
    else
      let solid (c : Cursor) : Bool := !(c.peek = some ' ' || c.peek = some '\t')
      let line := c.run (!isBreak ·)
      let behind := c.skip line.length
      let lineBreak := behind.lineBreak?.map (·.1)
      let (more, next) := blockBreaks indent (c.left + 1) behind.skipBreak
      if next.column = indent ∧ next.peek ≠ none then
        let joint :=
          if fold && lineBreak = some '\n' && solid c && solid next then
            if more.isEmpty then [' '] else []
          else lineBreak.toList
        let (rest, last, trailing, c) := blockLines fold indent fuel next more
        (breaks ++ line ++ joint ++ rest, last, trailing, c)
      else (breaks ++ line, lineBreak, more, next)

/-- The block of lines ahead, and the place behind it. Its lines are indented by more than `indent`. -/
def block? (fold : Bool) (indent : Int) (c : Cursor) : Option (List Char × Cursor) := do
  let (chomping, increment, c) := blockSigns c.next
  guard (atSpace c.peek)
  let c ← c.skipLine?
  let least := max 1 (indent + 1).toNat
  let fuel := c.left + 1
  let (column, breaks, c) := match increment with
    | some n =>
      let (breaks, c) := blockBreaks (least + n - 1) fuel c
      (least + n - 1, breaks, c)
    | none =>
      let (breaks, c, width) := blockIndent fuel c 0
      (max least width, breaks, c)
  let (text, last, trailing, c) := blockLines fold column fuel c breaks
  let ending := match chomping.getD .clip with
    | .strip => []
    | .clip => last.toList
    | .keep => last.toList ++ trailing
  return (text ++ ending, c)

end Y86.Document.Yaml
