import Y86.Document.Graph
import Y86.Document.Yaml.Node
import Y86.Document.Yaml.ScalarValue

/-!
# Objects of a YAML document

Every node that can be reached from the root becomes one object, wherever it occurs. A scalar is read at once. A
collection is empty at first and waits to be filled, so it can lie inside itself; those that wait are filled one after
the other, the one that has waited longest first. This order decides which of several faults is found.

A mapping takes in the fields of the mappings that are merged into it, before its own. Of two fields with one key, the
first gives the key and the last the value.
-/

namespace Y86.Document.Yaml

open Text

/-- A document that is being built. -/
structure Construction where
  /-- The nodes. -/
  nodes : Array Node
  /-- The objects so far; the first one is the undefined number, which all its words stand for. -/
  objects : Array Object := #[.scalar (.float Decimal.undefined)]
  /-- The objects of the nodes, as far as they have one. -/
  made : Array (Option Nat)
  /-- The nodes of the collections that wait to be filled, the last one first. -/
  waiting : List Nat := []

namespace Construction

/-- A step of building, which can fail. -/
abbrev Builder := StateT Construction Scan

/-- Gives up on a node that is no value. -/
def fail : Builder α := throw .malformed

/-- The node with a number. -/
def node (c : Construction) (k : Nat) : Node := (c.nodes[k]?).getD ⟨.null, .scalar []⟩

/-- The fields of a node that is a mapping. -/
def fields? (c : Construction) (k : Nat) : Option (List (Nat × Nat)) :=
  match (c.node k).content with
  | .mapping fields => some fields
  | .list _ => none
  | .scalar _ => none

/-- How many nodes may be looked through for the text of a scalar. -/
abbrev maxScalarDepth : Nat := 984

/-- How many mappings may be merged into one another, each into the one before. -/
abbrev maxMergeDepth : Nat := 986

/-- The text that a node stands for as a scalar: its own, or that of the value that a mapping has for the default
key. The count is for the nodes that may still be looked through. -/
def scalarText (c : Construction) : Nat → Nat → Scan (List Point)
  | 0, _ => .error .tooDeep
  | depth + 1, k =>
    match (c.node k).content with
    | .scalar text => .ok text
    | .list _ => .error .malformed
    | .mapping fields =>
      match fields.find? fun field => (c.node field.1).kind == .default with
      | some (_, value) => c.scalarText depth value
      | none => .error .malformed

/-! ### Merging -/

/-- Changes a node. -/
def change (k : Nat) (f : Node → Node) : Builder Unit := modify fun c => { c with nodes := c.nodes.modify k f }

/-- Gives a mapping other fields. -/
def setFields (k : Nat) (fields : List (Nat × Nat)) : Builder Unit :=
  change k fun node => { node with content := .mapping fields }

/-- The fields of a node, which has to be a mapping. -/
def fieldsOf (k : Nat) : Builder (List (Nat × Nat)) := do
  match (← get).fields? k with
  | some fields => return fields
  | none => fail

/-- Makes plain texts of the default keys of a mapping. -/
def plainKeys (fields : List (Nat × Nat)) : Builder Unit :=
  fields.forM fun field => change field.1 fun node =>
    { node with kind := if node.kind = .default then .text else node.kind }

/-- Takes the fields that are merged into a mapping in front of its own. `depth` says how many mappings it is merged
into. The count is for the keys that merge: one of them is removed before the next is looked for, here or in a mapping
that is merged. -/
def flatten : Nat → Nat → Nat → Builder Unit
  | 0, _, _ => fail
  | fuel + 1, depth, k => do
    if maxMergeDepth < depth then throw .tooDeep
    let fields ← fieldsOf k
    plainKeys fields
    let c ← get
    let isMerge (field : Nat × Nat) : Bool := (c.node field.1).kind == .merge
    match fields.find? isMerge with
    | none => return
    | some (_, source) =>
      setFields k (fields.eraseP isMerge)
      let flattened (k : Nat) : Builder (List (Nat × Nat)) := do
        flatten fuel (depth + 1) k
        fieldsOf k
      let merged ← match (c.node source).content with
        | .mapping _ => flattened source
        | .list items => do pure (← items.mapM flattened).reverse.flatten
        | .scalar _ => fail
      flatten fuel depth k
      setFields k (merged ++ (← fieldsOf k))

/-- The number of all fields of mappings. -/
def fieldCount (c : Construction) : Nat :=
  c.nodes.foldl (fun n node => match node.content with | .mapping fields => n + fields.length | _ => n) 0

/-! ### Objects -/

/-- Adds an object. -/
def add (o : Object) : Builder Nat := do
  let c ← get
  set { c with objects := c.objects.push o }
  return c.objects.size

/-- An empty collection that waits to be filled. -/
def begin (k : Nat) (empty : Object) : Builder Nat := do
  let o ← add empty
  modify fun c => { c with waiting := k :: c.waiting }
  return o

/-- A new object for a node. -/
def newObject (k : Nat) : Builder Nat := do
  let c ← get
  let kind := (c.node k).kind
  match kind with
  | .list => begin k (.list [])
  | .pairs => begin k (.pairs [])
  | .set => begin k (.set [])
  | .mapping => begin k (.mapping [])
  | .merge => fail
  | .default => fail
  | .unknown => fail
  | _ =>
    let text ← c.scalarText maxScalarDepth k
    if kind = .date && (c.fields? k).isSome then throw .mappedDate
    if kind = .float && isUndefinedWord text then return 0
    add (.scalar (← scalarValue kind text))

/-- The object of a node. -/
def objectOf (k : Nat) : Builder Nat := do
  match ((← get).made[k]?).join with
  | some o => return o
  | none =>
    let o ← newObject k
    modify fun c => { c with made := c.made.setIfInBounds k (some o) }
    return o

/-- The scalar that an object is. -/
def scalar? (c : Construction) (o : Nat) : Option Value :=
  match c.objects[o]? with
  | some (.scalar value) => some value
  | _ => none

/-- Whether two objects are one as keys. -/
def isSameKey (c : Construction) (a b : Nat) : Bool :=
  a == b || match c.scalar? a, c.scalar? b with
    | some x, some y => x.sameKey y
    | _, _ => false

/-- Gives a key a value: in its place if it has one already, and otherwise at the end. -/
def put (c : Construction) (key value : Nat) : List (Nat × Nat) → List (Nat × Nat)
  | [] => [(key, value)]
  | field :: fields => if c.isSameKey field.1 key then (field.1, value) :: fields else field :: c.put key value fields

/-- The objects of a field. A key has to be a scalar. -/
def fieldObjects (field : Nat × Nat) : Builder (Nat × Nat) := do
  let key ← objectOf field.1
  if ((← get).scalar? key).isNone then fail
  return (key, ← objectOf field.2)

/-- The fields of a mapping, merged ones included. -/
def mappingFields (k : Nat) : Builder (List (Nat × Nat)) := do
  if ((← get).fields? k).isNone then fail
  flatten ((← get).fieldCount + 1) 0 k
  let fields ← (← fieldsOf k).mapM fieldObjects
  let c ← get
  return fields.foldl (fun done field => c.put field.1 field.2 done) []

/-- The items of a list. -/
def listItems (k : Nat) : Builder (List Nat) := do
  match ((← get).node k).content with
  | .list items => return items
  | _ => fail

/-- The objects of an item that is a mapping with one field. -/
def pairObjects (k : Nat) : Builder (Nat × Nat) := do
  match (← get).fields? k with
  | some [(key, value)] => return (← objectOf key, ← objectOf value)
  | _ => fail

/-- The content of a collection. -/
def filled (k : Nat) : Builder Object := do
  match ((← get).node k).kind with
  | .pairs => return .pairs (← (← listItems k).mapM pairObjects)
  | .set => return .set ((← mappingFields k).map (·.1))
  | .mapping => return .mapping (← mappingFields k)
  | _ => return .list (← (← listItems k).mapM objectOf)

/-- Fills a collection. -/
def fill (k : Nat) : Builder Unit := do
  let o ← objectOf k
  let content ← filled k
  modify fun c => { c with objects := c.objects.setIfInBounds o content }

/-- Fills the collections that wait, in rounds. Each node waits once, so there are no more rounds than nodes. -/
def fillAll : Nat → Builder Unit
  | 0 => fail
  | fuel + 1 => do
    let waiting := (← get).waiting
    unless waiting.isEmpty do
      modify fun c => { c with waiting := [] }
      waiting.reverse.forM fill
      fillAll fuel

/-- Builds everything that can be reached from a root. -/
def build (root : Nat) : Builder Nat := do
  let o ← objectOf root
  fillAll ((← get).nodes.size + 1)
  return o

end Construction

/-- The document with given nodes and a root among them. -/
def graphOf (nodes : Array Node) (root : Nat) : Scan Graph := do
  let (root, c) ← (Construction.build root).run { nodes, made := Array.replicate nodes.size none }
  return { objects := c.objects, root }

end Y86.Document.Yaml
