import Y86.Document.Yaml.Cursor
import Y86.Document.Yaml.Kind

/-!
# Writing texts as YAML scalars

A text is written plainly if it then reads as itself. Else it is put between single quotes, and if it holds
characters that these do not admit, between double quotes, where everything can be written. Long scalars are folded:
once a line has more than eighty characters, it ends at the next place where the style allows it.
-/

namespace Y86.Document.Yaml

open Text

/-- The width beyond which a line is folded. -/
abbrev lineWidth : Nat := 80

/-- Ending a line in a text that is written; a carriage return is no line break there. -/
def isWrittenBreak (c : Char) : Bool := ['\n', '\x85', '\u2028', '\u2029'].contains c

/-- A character that only double quotes admit. -/
def isSpecial (c : Char) : Bool :=
  let n := c.toNat
  !(c == '\n' || (0x20 ≤ n && n ≤ 0x7e) || n == 0x85 || (0xa0 ≤ n && n ≤ 0xd7ff)
    || (0xe000 ≤ n && n ≤ 0xfffd && n != 0xfeff) || (0x10000 ≤ n && n < 0x10ffff))

/-- Whether a character that `p` admits is followed by one that `q` admits. -/
def hasNeighbours (p q : Char → Bool) (cs : List Char) : Bool := (cs.zip (cs.drop 1)).any fun (c, d) => p c && q d

/-- A blank, the null character, or the end. -/
def atGap (c : Option Char) : Bool := c == some '\x00' || atBlank c

/-- Whether a character means something where it stands, seeing the ones before and behind it. At the beginning of
a text there is none before it. -/
def isSign (before : Option Char) (c : Char) (behind : Option Char) : Bool :=
  match before with
  | none => "#,[]\x7b\x7d&*!|>'\"%@\x60".toList.contains c || ("?:-".toList.contains c && atGap behind)
  | some b => (c == ':' && atGap behind) || (c == '#' && atGap (some b))

/-- Whether a character of a text means something where it stands. -/
def hasSign : Option Char → List Char → Bool
  | _, [] => false
  | before, c :: cs => isSign before c cs.head? || hasSign (some c) cs

/-- Whether a text begins with the mark of a document. -/
def startsDocument (cs : List Char) : Bool := cs.take 3 == ['-', '-', '-'] || cs.take 3 == ['.', '.', '.']

/-- How a scalar is written. -/
inductive Style where
  | plain | single | double
  deriving DecidableEq, Repr

/-- Whether a text can stand between single quotes. -/
def admitsSingle (cs : List Char) : Bool :=
  !(cs.any isSpecial || hasNeighbours (· == ' ') isWrittenBreak cs || hasNeighbours isWrittenBreak (· == ' ') cs)

/-- Whether a text can stand without quotes. -/
def admitsPlain (cs : List Char) : Bool :=
  admitsSingle cs && !(cs.any isWrittenBreak || cs.head? == some ' ' || cs.getLast? == some ' ' || startsDocument cs
    || hasSign none cs)

/-- How a text is written. -/
def styleOf (text : String) : Style :=
  let cs := text.toList
  if admitsPlain cs && Kind.ofPlain cs == .text then .plain
  else if admitsSingle cs then .single
  else .double

/-- A new line with its indentation. -/
def newLine (indent : Nat) : List Char := '\n' :: List.replicate indent ' '

/-- A text without quotes. A line is folded at a space that stands alone. -/
def writePlain (indent : Nat) : Nat → Option Char → List Char → List Char
  | _, _, [] => []
  | column, before, c :: cs =>
    if c = ' ' && before ≠ some ' ' && cs.head? ≠ some ' ' && lineWidth < column then
      newLine indent ++ writePlain indent indent (some c) cs
    else c :: writePlain indent (column + 1) (some c) cs

/-- A text between single quotes, without these. A quote is written twice, and so is the first of some line breaks; a
line is folded at a space that stands alone, between two other characters. -/
def writeSingle (indent : Nat) : Nat → Option Char → List Char → List Char
  | _, _, [] => []
  | column, before, c :: cs =>
    if isWrittenBreak c then
      let first := if c = '\n' && !before.any isWrittenBreak then ['\n'] else []
      let last := if cs.head?.any isWrittenBreak then [] else List.replicate indent ' '
      first ++ c :: last ++ writeSingle indent indent (some c) cs
    else if c = '\'' then '\'' :: '\'' :: writeSingle indent (column + 2) (some c) cs
    else if c = ' ' && before.any (· ≠ ' ') && cs.head?.any (· ≠ ' ') && lineWidth < column then
      newLine indent ++ writeSingle indent indent (some c) cs
    else c :: writeSingle indent (column + 1) (some c) cs

/-- The letter or sign that stands for a character behind a backslash. -/
def escapeSign? (c : Char) : Option Char :=
  [('\x00', '0'), ('\x07', 'a'), ('\x08', 'b'), ('\t', 't'), ('\n', 'n'), ('\x0b', 'v'), ('\x0c', 'f'), ('\r', 'r'),
    ('\x1b', 'e'), ('"', '"'), ('\\', '\\'), ('\x85', 'N'), ('\u2028', 'L'), ('\u2029', 'P')].lookup c

/-- A character by its code point, in capital digits. -/
def escapeCode (c : Char) : List Char :=
  let digits := (Hex.digits c.toNat).map Char.toUpper
  if c.toNat ≤ 0xff then 'x' :: Hex.zeroFill 2 digits
  else if c.toNat ≤ 0xffff then 'u' :: Hex.zeroFill 4 digits
  else 'U' :: Hex.zeroFill 8 digits

/-- What a character is written as behind a backslash, if it cannot stand for itself between double quotes. -/
def escape? (c : Char) : Option (List Char) :=
  let n := c.toNat
  match escapeSign? c with
  | some sign => some [sign]
  | none =>
    if (0x20 ≤ n && n ≤ 0x7e) || (0xa0 ≤ n && n ≤ 0xd7ff) || (0xe000 ≤ n && n ≤ 0xfffd && n != 0xfeff) then none
    else some (escapeCode c)

/-- A fold between double quotes, in front of `next`: a backslash ends the line, and another one keeps a space in
front of the next line. The value is the fold with the column behind it. -/
def doubleFold (indent : Nat) (next : Option Char) : List Char × Nat :=
  if next = some ' ' then ('\\' :: newLine indent ++ ['\\'], indent + 1) else ('\\' :: newLine indent, indent)

/-- A text between double quotes, without these. A line is folded in front of a space and on both sides of an escaped
character, but not in front of the first or the last character; `escaped` tells that the character before was
escaped. -/
def writeDouble (indent : Nat) : Nat → Bool → Bool → List Char → List Char
  | _, _, _, [] => []
  | column, first, escaped, c :: cs =>
    let inner := !first && !cs.isEmpty
    match escape? c with
    | some code =>
      let column := column + code.length + 1
      let (fold, column) := if inner && lineWidth + 1 < column then doubleFold indent cs.head? else ([], column)
      '\\' :: code ++ fold ++ writeDouble indent column false true cs
    | none =>
      let (fold, column) :=
        if inner && (c = ' ' || escaped) && lineWidth < column then doubleFold indent (some c) else ([], column)
      fold ++ c :: writeDouble indent (column + 1) false false cs

/-- A text as a scalar with a space in front of it, which stands at `column`; further lines are indented. -/
def scalar (column indent : Nat) (text : String) : String :=
  let cs := text.toList
  " " ++ match styleOf text with
    | .plain => String.ofList (writePlain indent (column + 1) none cs)
    | .single => "'" ++ String.ofList (writeSingle indent (column + 2) none cs) ++ "'"
    | .double => "\"" ++ String.ofList (writeDouble indent (column + 2) true false cs) ++ "\""

/-- A truth value as a scalar. -/
def truth (b : Bool) : String := if b then " true" else " false"

/-- A field of a mapping whose value is a text. -/
def textField (indent : Nat) (name text : String) : String :=
  let head := String.ofList (List.replicate indent ' ') ++ name ++ ":"
  head ++ scalar head.length (indent + 2) text

end Y86.Document.Yaml
