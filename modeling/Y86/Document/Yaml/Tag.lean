import Y86.Document.Yaml.Cursor
import Y86.Document.Yaml.Error

/-!
# Anchors, tags and directives

An anchor names a node, and a tag says what kind of node it is. A tag is written in full between angle brackets, or
as a handle with a suffix; directives in front of a document say what the handles stand for.
-/

namespace Y86.Document.Yaml

open Text

/-- A tag as it is written. -/
inductive Tag where
  /-- The whole tag; the lone exclamation mark leaves the kind of the node open. -/
  | whole (name : String)
  /-- A handle that stands for the beginning of the tag, and the rest of it. -/
  | short (handle suffix : String)
  deriving DecidableEq, Repr

/-- A line in front of a document. -/
inductive Directive where
  /-- The version of YAML that the document is written in. -/
  | version (major minor : Nat)
  /-- What a handle stands for. -/
  | handle (name stem : String)
  /-- Something else, which is passed over. -/
  | other
  deriving DecidableEq, Repr

/-- The name behind the sign of an anchor or an alias, and the place behind it. -/
def anchorName? (c : Cursor) : Option (String × Cursor) := do
  let c := c.next
  let name := c.run isWord
  let c := c.skip name.length
  guard (!name.isEmpty && (atBlank c.peek || c.peek.any fun ch => "?:,]\x7d%@\x60".toList.contains ch))
  return (String.ofList name, c)

/-- Being a character of a tag that stands for itself. -/
def isTagChar (ch : Char) : Bool := ch.isAlphanum || "-;/?:@&=+$,_.!~*'()[]".toList.contains ch

/-- The bytes that are written as percent signs with two hexadecimal digits. -/
def escapedBytes? : List Char → Option (List UInt8)
  | '%' :: high :: low :: cs => do
    let h ← Hex.digit? high
    let l ← Hex.digit? low
    let bytes ← escapedBytes? cs
    return UInt8.ofNat (16 * h + l) :: bytes
  | '%' :: _ => none
  | _ => some []

/-- The characters of a tag, and the place behind them. -/
def tagText? : Nat → Cursor → Option (List Char × Cursor)
  | 0, _ => none
  | fuel + 1, c =>
    match c.peek with
    | some '%' => do
      let bytes ← escapedBytes? c.rest
      let text ← String.fromUTF8? ⟨bytes.toArray⟩
      let (more, c) ← tagText? fuel (c.skip (3 * bytes.length))
      return (text.toList ++ more, c)
    | some ch =>
      if isTagChar ch then do
        let (more, c) ← tagText? fuel c.next
        return (ch :: more, c)
      else some ([], c)
    | none => some ([], c)

/-- The text of a tag, which must not be empty, and the place behind it. -/
def tagSuffix? (c : Cursor) : Option (String × Cursor) := do
  let (text, behind) ← tagText? (c.left + 1) c
  guard (!text.isEmpty)
  return (String.ofList text, behind)

/-- The handle ahead, from an exclamation mark to the next one, and the place behind it. A space may follow the
first mark at once. -/
def tagHandle? (c : Cursor) : Option (String × Cursor) := do
  guard (c.peek = some '!')
  if c.ahead 1 = some ' ' then return ("!", c.next)
  let name := c.next.run isWord
  let behind := c.next.skip name.length
  guard (behind.peek = some '!')
  return (String.ofList ('!' :: name ++ ['!']), behind.next)

/-- Whether another exclamation mark follows before the tag ends. -/
def hasHandle (c : Cursor) : Bool := (c.next.run fun ch => !(ch == ' ' || isBreak ch)).contains '!'

/-- The tag ahead, and the place behind it. -/
def tag? (c : Cursor) : Option (Tag × Cursor) := do
  let (tag, behind) ←
    if c.ahead 1 = some '<' then do
      let (name, behind) ← tagSuffix? (c.skip 2)
      guard (behind.peek = some '>')
      pure (Tag.whole name, behind.next)
    else if atBlank (c.ahead 1) then pure (Tag.whole "!", c.next)
    else if hasHandle c then do
      let (handle, behind) ← tagHandle? c
      let (suffix, behind) ← tagSuffix? behind
      pure (Tag.short handle suffix, behind)
    else do
      let (suffix, behind) ← tagSuffix? c.next
      pure (Tag.short "!" suffix, behind)
  guard (atSpace behind.peek)
  return (tag, behind)

/-- The decimal number ahead, and the place behind it. All digits have to be there before it is read. -/
def number (c : Cursor) : Scan (Nat × Cursor) := do
  let digits := c.run Char.isDigit
  let behind := c.skip digits.length
  require (!digits.isEmpty && !behind.isCut)
  match Integer.read 10 (digits.map .ofChar) with
  | .ok n => return (n.toNat, behind)
  | .error cause => throw (.integer cause)

/-- The version of a directive. -/
def version (c : Cursor) : Scan (Directive × Cursor) := do
  let (major, c) ← number c.skipSpaces
  require (c.peek = some '.')
  let (minor, c) ← number c.next
  require (atSpace c.peek)
  return (.version major minor, c)

/-- The handle of a directive, and what it stands for. -/
def handleMeaning? (c : Cursor) : Option (Directive × Cursor) := do
  let (handle, c) ← tagHandle? c.skipSpaces
  guard (c.peek = some ' ')
  let (stem, c) ← tagSuffix? c.skipSpaces
  guard (atSpace c.peek)
  return (.handle handle stem, c)

/-- The directive behind a percent sign, and the place behind its line. -/
def directive (c : Cursor) : Scan (Directive × Cursor) := do
  let c := c.next
  let name := c.run isWord
  let c := c.skip name.length
  require (!name.isEmpty && atSpace c.peek)
  let (directive, c) ←
    match String.ofList name with
    | "YAML" => version c
    | "TAG" => present (handleMeaning? c)
    | _ => pure (Directive.other, c.skipWhile (!isBreak ·))
  return (directive, ← present c.skipLine?)

end Y86.Document.Yaml
