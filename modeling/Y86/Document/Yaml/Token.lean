import Y86.Document.Yaml.Scalar
import Y86.Document.Yaml.Tag

/-!
# Tokens of a YAML text

The tokens of a text are its signs, names and scalars. Outside brackets the indentation counts: a line that is
indented more deeply than the collection around it can start a block collection, and one that is indented less
ends it. A key need not be marked: the colon behind it tells that what came before was one, if that lies on the
same line and began at most 1024 characters ago. So every place where such a key may have begun is remembered until
its colon comes or the line ends, one place for each level of brackets. No token behind such a place counts before
it is known whether a key begins there.

The tokens of a text that goes wrong end with a token that says so. It is up to the reader of the tokens whether they
go wrong earlier in another way.
-/

namespace Y86.Document.Yaml

open Text

/-- How far behind the beginning of a key may lie that is not marked. -/
abbrev keyReach : Nat := 1024

inductive Token where
  /-- A line in front of a document. -/
  | directive (directive : Directive)
  | documentStart
  | documentEnd
  /-- A place where the indentation starts a list. -/
  | blockListStart
  /-- A place where the indentation starts a mapping. -/
  | blockMappingStart
  /-- A place where the indentation ends a collection. -/
  | blockEnd
  | listStart
  | listEnd
  | mappingStart
  | mappingEnd
  | item
  /-- A comma between brackets. -/
  | comma
  /-- The beginning of a key. -/
  | key
  /-- The colon in front of a value. -/
  | value
  /-- A node that has been named before. -/
  | alias (name : String)
  /-- The name of the next node. -/
  | anchor (name : String)
  /-- The tag of the next node. -/
  | tag (tag : Tag)
  /-- A scalar, with whether it is written plainly. -/
  | scalar (text : List Point) (plain : Bool)
  /-- A place from which on there are no tokens. -/
  | broken (cause : ReadError)
  deriving DecidableEq, Repr

/-- A place where a key may have begun that is not marked. -/
structure PendingKey where
  /-- How many tokens come before it. -/
  position : Nat
  /-- Whether there has to be a key, since nothing else can stand there. -/
  required : Bool
  /-- The place. -/
  cursor : Cursor

/-- Tokens that are being read. -/
structure Tokenizer where
  /-- How many collections may lie inside each other. -/
  room : Nat
  /-- Where the next token begins. -/
  cursor : Cursor
  /-- The tokens so far, the last one first. -/
  tokens : List Token := []
  /-- How many tokens there are so far. -/
  count : Nat := 0
  /-- The column of the innermost block collection. -/
  indent : Int := -1
  /-- The columns of the block collections around it. -/
  indents : List Int := []
  /-- Whether a key may begin here that is not marked. -/
  keyAllowed : Bool := true
  /-- Where a key may have begun, outside brackets. -/
  pending : Option PendingKey := none
  /-- Where a key may have begun, for the levels of brackets around this place; if there are any, the one in front
  is for the innermost level around this one. -/
  outer : List (Option PendingKey) := []

namespace Tokenizer

/-- Whether this place is between brackets. -/
def inFlow (s : Tokenizer) : Bool := !s.outer.isEmpty

/-- Adds a token. -/
def push (s : Tokenizer) (t : Token) : Tokenizer := { s with tokens := t :: s.tokens, count := s.count + 1 }

/-- Puts a token behind the first `position` tokens. -/
def insert (s : Tokenizer) (position : Nat) (t : Token) : Tokenizer :=
  let behind := s.count - position
  { s with tokens := s.tokens.take behind ++ t :: s.tokens.drop behind, count := s.count + 1 }

/-- Whether a place is too far behind to be the beginning of a key. -/
def isStale (s : Tokenizer) (k : PendingKey) : Bool :=
  k.cursor.line != s.cursor.line || keyReach < s.cursor.index - k.cursor.index

/-- Forgets a place; it must not be one where there has to be a key. -/
def forget (pending : Option PendingKey) : Scan Unit := require (pending.all (!·.required))

/-- A place where a key may have begun, unless it is too far behind. -/
def refresh (s : Tokenizer) (pending : Option PendingKey) : Scan (Option PendingKey) := do
  if pending.any s.isStale then
    forget pending
    return none
  else return pending

/-- Forgets the places that are too far behind. -/
def dropStale (s : Tokenizer) : Scan Tokenizer := do
  return { s with pending := ← s.refresh s.pending, outer := ← s.outer.mapM s.refresh }

/-- Forgets where a key may have begun on this level. -/
def dropKey (s : Tokenizer) : Scan Tokenizer := do
  forget s.pending
  return { s with pending := none }

/-- Remembers that a key may begin here. -/
def saveKey (s : Tokenizer) : Scan Tokenizer :=
  if s.keyAllowed then do
    let s ← s.dropKey
    let required := !s.inFlow && s.indent == s.cursor.column
    return { s with pending := some { position := s.count, required, cursor := s.cursor } }
  else return s

/-- The columns of the block collections that are indented no more deeply than a given one, the innermost first, and
how many others have ended. -/
def unwound (column : Int) (indent : Int) (indents : List Int) (ended : Nat) : Int × List Int × Nat :=
  if indent ≤ column then (indent, indents, ended)
  else match indents with
    | [] => (-1, [], ended + 1)
    | outer :: indents => unwound column outer indents (ended + 1)

/-- Ends the block collections that are indented more deeply than a column. -/
def unwind (s : Tokenizer) (column : Int) : Tokenizer :=
  if s.inFlow then s
  else
    let (indent, indents, ended) := unwound column s.indent s.indents 0
    { s with indent, indents, tokens := List.replicate ended .blockEnd ++ s.tokens, count := s.count + ended }

/-- Starts a block collection at a column, unless there is one already; `position` is where its token goes. -/
def startBlock (s : Tokenizer) (column position : Nat) (t : Token) : Tokenizer :=
  if s.indent < column then
    { s.insert position t with indent := column, indents := s.indent :: s.indents }
  else s

/-- The place of the next token: spaces, comments and line breaks are passed over, and outside brackets a key may
begin behind a line break. -/
def skipBlank : Nat → Cursor → Bool → Cursor × Bool
  | 0, c, passed => (c, passed)
  | fuel + 1, c, passed =>
    let c := c.skipSpaces.skipComment
    match c.lineBreak? with
    | some (_, c) => skipBlank fuel c true
    | none => (c, passed)

/-- Goes on to the next token. -/
def toNext (s : Tokenizer) : Tokenizer :=
  let start := if s.cursor.index = 0 && s.cursor.peek = some '\ufeff' then s.cursor.next else s.cursor
  let (cursor, passed) := skipBlank (start.left + 1) start false
  { s with cursor, keyAllowed := s.keyAllowed || (passed && !s.inFlow) }

/-- Takes a token of `length` characters. -/
def take (s : Tokenizer) (t : Token) (length : Nat) : Tokenizer :=
  { s.push t with cursor := s.cursor.skip length }

/-- A token that ends all block collections. -/
def documentToken (s : Tokenizer) (t : Token) (cursor : Cursor) : Scan Tokenizer := do
  let s ← (s.unwind (-1)).dropKey
  return { s.push t with keyAllowed := false, cursor }

/-- An opening bracket. -/
def openBracket (s : Tokenizer) (t : Token) : Scan Tokenizer := do
  let s ← s.saveKey
  return { s.take t 1 with pending := none, outer := s.pending :: s.outer, keyAllowed := true }

/-- A closing bracket, which needs an open one. -/
def closeBracket (s : Tokenizer) (t : Token) : Scan Tokenizer := do
  let s ← s.dropKey
  match s.outer with
  | [] => throw .malformed
  | pending :: outer => return { s.take t 1 with pending, outer, keyAllowed := false }

/-- A comma between brackets. -/
def comma (s : Tokenizer) : Scan Tokenizer := do
  let s ← s.dropKey
  return { s.take .comma 1 with keyAllowed := true }

/-- The hyphen of an item. -/
def item (s : Tokenizer) : Scan Tokenizer := do
  require (s.inFlow || s.keyAllowed)
  let s := if s.inFlow then s else s.startBlock s.cursor.column s.count .blockListStart
  let s ← s.dropKey
  return { s.take .item 1 with keyAllowed := true }

/-- The question mark of a marked key. -/
def markedKey (s : Tokenizer) : Scan Tokenizer := do
  require (s.inFlow || s.keyAllowed)
  let s := if s.inFlow then s else s.startBlock s.cursor.column s.count .blockMappingStart
  let s ← s.dropKey
  return { s.take .key 1 with keyAllowed := !s.inFlow }

/-- The colon in front of a value: it makes a key of what began at the remembered place. -/
def value (s : Tokenizer) : Scan Tokenizer :=
  match s.pending with
  | some k =>
    let s := { s.insert k.position .key with pending := none, keyAllowed := false }
    let s := if s.inFlow then s else s.startBlock k.cursor.column k.position .blockMappingStart
    return s.take .value 1
  | none => do
    require (s.inFlow || s.keyAllowed)
    let s := if s.inFlow then s else s.startBlock s.cursor.column s.count .blockMappingStart
    return { s.take .value 1 with keyAllowed := !s.inFlow }

/-- A name, a tag or a quoted scalar, which may begin a key. -/
def property (s : Tokenizer) (read : Cursor → Scan (Token × Cursor)) : Scan Tokenizer := do
  let s ← s.saveKey
  let (t, cursor) ← read s.cursor
  return { s.push t with keyAllowed := false, cursor }

/-- A block of lines. -/
def block (s : Tokenizer) (fold : Bool) : Scan Tokenizer := do
  let s ← s.dropKey
  let (text, cursor) ← present (block? fold s.indent s.cursor)
  return { s.push (.scalar (text.map .ofChar) false) with keyAllowed := true, cursor }

/-- A plain scalar, which may begin a key. -/
def plainScalar (s : Tokenizer) : Scan Tokenizer := do
  let s ← s.saveKey
  let (text, cursor, passed) := plain s.inFlow (s.indent + 1) s.cursor
  return { s.push (.scalar (text.map .ofChar) true) with keyAllowed := passed, cursor }

/-- Whether a plain scalar can begin with a character, seeing the one behind it. -/
def startsPlain (flow : Bool) (ch : Char) (next : Option Char) : Bool :=
  if "-?:".toList.contains ch then !atBlank next && (ch == '-' || !flow)
  else !atBlank (some ch) && !",[]\x7b\x7d#&*!|>'\"%@\x60".toList.contains ch

/-- Reads the token ahead. -/
def next (s : Tokenizer) (ch : Char) : Scan Tokenizer :=
  let c := s.cursor
  let behind := c.ahead 1
  let atStart := c.column = 0
  if ch = '%' && atStart then (directive c).bind fun (d, c) => s.documentToken (.directive d) c
  else if atStart && c.atMark '-' then s.documentToken .documentStart (c.skip 3)
  else if atStart && c.atMark '.' then s.documentToken .documentEnd (c.skip 3)
  else if ch = '[' then s.openBracket .listStart
  else if ch = '\x7b' then s.openBracket .mappingStart
  else if ch = ']' then s.closeBracket .listEnd
  else if ch = '\x7d' then s.closeBracket .mappingEnd
  else if ch = ',' then s.comma
  else if ch = '-' && atBlank behind then s.item
  else if ch = '?' && (s.inFlow || atBlank behind) then s.markedKey
  else if ch = ':' && (s.inFlow || atBlank behind) then s.value
  else if ch = '*' then s.property fun c => (present (anchorName? c)).map fun (name, c) => (.alias name, c)
  else if ch = '&' then s.property fun c => (present (anchorName? c)).map fun (name, c) => (.anchor name, c)
  else if ch = '!' then s.property fun c => (present (tag? c)).map fun (tag, c) => (.tag tag, c)
  else if ch = '|' && !s.inFlow then s.block false
  else if ch = '>' && !s.inFlow then s.block true
  else if ch = '\'' || ch = '"' then
    s.property fun c => (quoted (ch == '"') c).map fun (text, c) => (.scalar text false, c)
  else if startsPlain s.inFlow ch behind then s.plainScalar
  else .error .malformed

/-- The first token that may still turn out to be a key, or the number of all tokens. -/
def firstPending (s : Tokenizer) : Nat :=
  (s.pending :: s.outer).foldl
    (fun n pending => ((pending.filter (!s.isStale ·)).map fun k => min n k.position).getD n) s.count

/-- The tokens that count when what is ahead goes wrong. -/
def broken (s : Tokenizer) (cause : ReadError) : List Token :=
  (.broken cause :: s.tokens.drop (s.count - s.firstPending)).reverse

/-- Whether there are so many brackets around this place that they are too deep. Those within reach may still turn out
to be keys, but the ones in front of them count by now, and are too deep by themselves. -/
def isTooDeep (s : Tokenizer) : Bool := s.room + keyReach < s.outer.length

/-- Reads the next token, and tells whether there was one. -/
def fetch (s : Tokenizer) : Scan (Bool × Tokenizer) := do
  if s.isTooDeep then throw .tooDeep
  let s ← s.toNext.dropStale
  let s := s.unwind s.cursor.column
  match s.cursor.peek with
  | some ch =>
    let s ← s.next ch
    require !s.cursor.isCut
    return (true, s)
  | none =>
    require !s.cursor.isCut
    return (false, ← (s.unwind (-1)).dropKey)

/-- Reads tokens to the end, or to where they go wrong. -/
def run : Nat → Tokenizer → List Token
  | 0, s => s.broken .malformed
  | fuel + 1, s =>
    match s.fetch with
    | .error cause => s.broken cause
    | .ok (true, s) => run fuel s
    | .ok (false, s) => s.tokens.reverse

end Tokenizer

/-- The tokens of an input, where there is room for a number of collections inside each other. -/
def tokensOf (room : Nat) (input : Input) : List Token :=
  let start := Cursor.start input
  Tokenizer.run (start.left + 1) { room, cursor := start }

end Y86.Document.Yaml
