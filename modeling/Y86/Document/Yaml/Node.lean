import Y86.Document.Yaml.Kind
import Y86.Document.Yaml.Token

/-!
# Nodes of a YAML document

The tokens of a text form nodes, which are numbered in the order in which they are complete or, if they are
collections, begin. A node can be named, and named once only. An alias stands for the node of that name, and since a
collection has its name from its beginning on, it can lie inside itself. What is left out, such as a value behind a
colon, is an empty scalar.

A text holds one document at most. The nodes are read with a count that goes down at each node and at each part of a
collection; since each of them takes a token, the number of tokens bounds it.
-/

namespace Y86.Document.Yaml

open Text

/-- What a node is made of; the nodes inside a collection are given by their numbers. -/
inductive Content where
  | scalar (text : List Point)
  | list (items : List Nat)
  | mapping (fields : List (Nat × Nat))
  deriving Repr

/-- A node. -/
structure Node where
  /-- What it stands for. -/
  kind : Kind
  /-- What it is made of. -/
  content : Content
  deriving Repr

namespace Node

/-- What is left of a text, with what its tags and aliases refer to. -/
structure Source where
  /-- How many collections may lie inside each other. -/
  room : Nat
  /-- The tokens ahead. -/
  tokens : List Token
  /-- What the handles of tags stand for. -/
  handles : List (String × String) := [("!", "!"), ("!!", "tag:yaml.org,2002:")]
  /-- The names that have been given. -/
  anchors : List (String × Nat) := []
  /-- The nodes so far. -/
  nodes : Array Node := #[]

/-- A reading of tokens, which can fail. -/
abbrev Reader := StateT Source Scan

/-- Gives up on a text that is no document. -/
def fail : Reader α := throw .malformed

/-- Gives up unless a condition holds. -/
def demand (condition : Bool) : Reader Unit := unless condition do fail

/-- The token ahead; it must not be one that tells of a fault. -/
def peek : Reader (Option Token) := do
  match (← get).tokens.head? with
  | some (.broken cause) => throw cause
  | next => return next

/-- Passes over the token ahead. -/
def advance : Reader Unit := modify fun s => { s with tokens := s.tokens.tail }

/-- Passes over the token ahead if it is a given one, and tells whether it was. -/
def accept (t : Token) : Reader Bool := do
  if (← peek) = some t then
    advance
    return true
  else return false

/-- Whether the token ahead is one of some tokens. -/
def isAt (ts : List Token) : Reader Bool := return (← peek).any ts.contains

/-- The tag ahead, if there is one. -/
def tagAhead : Reader (Option Tag) := do
  match ← peek with
  | some (.tag t) =>
    advance
    return some t
  | _ => return none

/-- The anchor ahead, if there is one. -/
def anchorAhead : Reader (Option String) := do
  match ← peek with
  | some (.anchor name) =>
    advance
    return some name
  | _ => return none

/-- The whole name of a tag. -/
def tagName : Tag → Reader String
  | .whole name => return name
  | .short handle suffix => do
    match (← get).handles.lookup handle with
    | some stem => return stem ++ suffix
    | none => fail

/-- What stands in front of a node. -/
structure Properties where
  /-- The name of the node. -/
  anchor : Option String := none
  /-- The name of its tag. -/
  tag : Option String := none

namespace Properties

/-- Whether there is something in front of the node. -/
def isPresent (p : Properties) : Bool := p.anchor.isSome || p.tag.isSome

/-- The kind of the node, or another one if its tag leaves it open. -/
def kind (p : Properties) (otherwise : Kind) : Kind :=
  match p.tag with
  | none => otherwise
  | some name => if name = "!" then otherwise else .ofTag name

end Properties

/-- The anchor and the tag in front of a node, in either order. -/
def properties : Reader Properties := do
  let first ← anchorAhead
  let tag ← tagAhead
  let anchor ← if first.isNone && tag.isSome then anchorAhead else pure first
  match tag with
  | none => return { anchor }
  | some t => return { anchor, tag := some (← tagName t) }

/-- Adds a node, and gives its number. The name must be new. -/
def add (anchor : Option String) (node : Node) : Reader Nat := do
  let s ← get
  let number := s.nodes.size
  let anchors ← match anchor with
    | none => pure s.anchors
    | some name =>
      demand (s.anchors.lookup name).isNone
      pure ((name, number) :: s.anchors)
  set { s with anchors, nodes := s.nodes.push node }
  return number

/-- Completes the content of a node. -/
def complete (number : Nat) (content : Content) : Reader Nat := do
  modify fun s => { s with nodes := s.nodes.modify number fun node => { node with content } }
  return number

/-- A scalar. The lone exclamation mark makes a plain one of it. -/
def ofScalar (p : Properties) (text : List Point) (plain : Bool) : Reader Nat :=
  add p.anchor ⟨p.kind (if plain || p.tag.isSome then .ofPlain (chars text) else .text), .scalar text⟩

/-- A node that is left out. -/
def missing (p : Properties) : Reader Nat := ofScalar p [] true

/-- A collection without its content. It must not lie too deep. -/
def begin (depth : Nat) (p : Properties) (kind : Kind) : Reader Nat := do
  let number ← add p.anchor ⟨p.kind kind, .list []⟩
  if (← get).room ≤ depth then throw .tooDeep
  return number

mutual

/-- The node ahead, inside `depth` collections. Block collections are admitted outside brackets, and a list that is no
deeper than the mapping around it where `indentless` says so. -/
def read : Nat → Nat → Bool → Bool → Reader Nat
  | 0, _, _, _ => fail
  | fuel + 1, depth, block, indentless => do
    match ← peek with
    | some (.alias name) =>
      advance
      match (← get).anchors.lookup name with
      | some number => return number
      | none => fail
    | _ => bare fuel depth block indentless (← properties)

/-- The node ahead without its anchor and tag. It may be left out only behind one of these. -/
def bare : Nat → Nat → Bool → Bool → Properties → Reader Nat
  | 0, _, _, _, _ => fail
  | fuel + 1, depth, block, indentless, p => do
    let list (items : Reader (List Nat)) : Reader Nat := do
      let number ← begin depth p .list
      complete number (.list (← items))
    let mapping (fields : Reader (List (Nat × Nat))) : Reader Nat := do
      let number ← begin depth p .mapping
      complete number (.mapping (← fields))
    let next ← peek
    if indentless && next = some .item then list (indentlessItems fuel (depth + 1))
    else match next with
      | some (.scalar text plain) =>
        advance
        ofScalar p text plain
      | some .listStart =>
        advance
        list (flowItems fuel (depth + 1) true)
      | some .mappingStart =>
        advance
        mapping (flowFields fuel (depth + 1) true)
      | some .blockListStart =>
        demand block
        advance
        list (blockItems fuel (depth + 1))
      | some .blockMappingStart =>
        demand block
        advance
        mapping (blockFields fuel (depth + 1))
      | _ =>
        demand p.isPresent
        missing p

/-- The node ahead, or a missing one if one of some tokens lies ahead. -/
def readUnless : Nat → Nat → List Token → Bool → Bool → Reader Nat
  | 0, _, _, _, _ => fail
  | fuel + 1, depth, ends, block, indentless => do
    if ← isAt ends then missing {} else read fuel depth block indentless

/-- The value ahead of a field; without a colon it is left out. -/
def readValue : Nat → Nat → List Token → Bool → Reader Nat
  | 0, _, _, _ => fail
  | fuel + 1, depth, ends, block => do
    if ← accept .value then readUnless fuel depth ends block block else missing {}

/-- The items of a block list, up to its end. -/
def blockItems : Nat → Nat → Reader (List Nat)
  | 0, _ => fail
  | fuel + 1, depth => do
    if ← accept .blockEnd then return []
    demand (← accept .item)
    let item ← readUnless fuel depth [.item, .blockEnd] true false
    return item :: (← blockItems fuel depth)

/-- The items of a list that is no deeper than the mapping around it. -/
def indentlessItems : Nat → Nat → Reader (List Nat)
  | 0, _ => fail
  | fuel + 1, depth => do
    if ← accept .item then
      let item ← readUnless fuel depth [.item, .key, .value, .blockEnd] true false
      return item :: (← indentlessItems fuel depth)
    else return []

/-- The fields of a block mapping, up to its end. -/
def blockFields : Nat → Nat → Reader (List (Nat × Nat))
  | 0, _ => fail
  | fuel + 1, depth => do
    if ← accept .blockEnd then return []
    demand (← accept .key)
    let key ← readUnless fuel depth [.key, .value, .blockEnd] true true
    let value ← readValue fuel depth [.key, .value, .blockEnd] true
    return (key, value) :: (← blockFields fuel depth)

/-- The items of a list between brackets, up to its end. An item that has a key is a mapping of one field. -/
def flowItems : Nat → Nat → Bool → Reader (List Nat)
  | 0, _, _ => fail
  | fuel + 1, depth, first => do
    if ← accept .listEnd then return []
    unless first do demand (← accept .comma)
    if ← accept .listEnd then return []
    let item ← if ← accept .key then flowPair fuel depth else read fuel depth false false
    return item :: (← flowItems fuel depth false)

/-- A mapping of one field, behind the beginning of its key. -/
def flowPair : Nat → Nat → Reader Nat
  | 0, _ => fail
  | fuel + 1, depth => do
    let number ← begin depth {} .mapping
    let key ← readUnless fuel (depth + 1) [.value, .comma, .listEnd] false false
    let value ← readValue fuel (depth + 1) [.comma, .listEnd] false
    complete number (.mapping [(key, value)])

/-- The fields of a mapping between braces, up to its end. A node without a colon is a key without a value. -/
def flowFields : Nat → Nat → Bool → Reader (List (Nat × Nat))
  | 0, _, _ => fail
  | fuel + 1, depth, first => do
    if ← accept .mappingEnd then return []
    unless first do demand (← accept .comma)
    if ← accept .mappingEnd then return []
    let marked ← accept .key
    let key ←
      if marked then readUnless fuel depth [.value, .comma, .mappingEnd] false false else read fuel depth false false
    let value ← if marked then readValue fuel depth [.comma, .mappingEnd] false else missing {}
    return (key, value) :: (← flowFields fuel depth false)

end

/-- The directives in front of a document: at most one version, which has to be a first one, and at most one meaning
for each handle. -/
def directives : Nat → Bool → List (String × String) → Reader (List (String × String))
  | 0, _, _ => fail
  | fuel + 1, versioned, handles => do
    match ← peek with
    | some (.directive (.version major _)) =>
      advance
      demand (!versioned && major = 1)
      directives fuel true handles
    | some (.directive (.handle name stem)) =>
      advance
      demand (handles.lookup name).isNone
      directives fuel versioned ((name, stem) :: handles)
    | some (.directive .other) =>
      advance
      directives fuel versioned handles
    | _ => return handles

/-- Passes over the marks behind a document. -/
def skipEnds : Nat → Reader Unit
  | 0 => return
  | fuel + 1 => do if ← accept .documentEnd then skipEnds fuel

/-- Nothing behind a document; another document would have to be one up to its start. -/
def textEnd (fuel : Nat) : Reader Unit := do
  if (← peek).isSome then
    let _ ← directives fuel false []
    fail

/-- The root of the only document of a text; none if there is no document. -/
def document (fuel : Nat) : Reader (Option Nat) := do
  match ← peek with
  | none => return none
  | some first =>
    let marked := first matches .directive _ | .documentStart
    if marked then
      let handles ← directives fuel false []
      modify fun s => { s with handles := handles ++ s.handles }
      demand (← accept .documentStart)
    let next ← peek
    let empty := marked && next.all fun t => t matches .directive _ | .documentStart | .documentEnd
    let root ← if empty then missing {} else read fuel 0 true false
    skipEnds fuel
    textEnd fuel
    return some root

/-- The nodes that tokens form, with the number of the root if there is a document. -/
def ofTokens (room : Nat) (tokens : List Token) : Scan (Array Node × Option Nat) := do
  let (root, s) ← (document (4 * tokens.length + 4)).run { room, tokens }
  return (s.nodes, root)

end Node

end Y86.Document.Yaml
