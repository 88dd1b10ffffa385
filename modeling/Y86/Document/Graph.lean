import Y86.Document.SetTable

/-!
# Documents as graphs

In a document a collection can occur in several places, and even inside itself, so a document is a graph of objects. An
object is known by its position.

`Graph.value` is the value that begins at an object. A collection that is met again inside itself ends it, and a set is
put into the order of its table.
-/

namespace Y86.Document

/-- An object of a document; the objects inside a collection are given by their positions. -/
inductive Object where
  | scalar (value : Value)
  | list (items : List Nat)
  | pairs (fields : List (Nat × Nat))
  | set (items : List Nat)
  | mapping (fields : List (Nat × Nat))
  deriving Inhabited

/-- The name of an object's kind. -/
def Object.kind : Object → String
  | scalar value => value.kind
  | list _ => "list"
  | pairs _ => "list"
  | set _ => "set"
  | mapping _ => "dict"

/-- A document. -/
structure Graph where
  objects : Array Object
  /-- The position of the object that stands for the whole document. -/
  root : Nat

namespace Graph

/-- The object at a position; nothing is there beyond the last one. -/
def object (g : Graph) (k : Nat) : Object := (g.objects[k]?).getD (.scalar .null)

/-- The value at a position, with a count of the positions that can still be new and the positions around this one. -/
def valueWithin (g : Graph) : Nat → List Nat → Nat → Value
  | 0, _, _ => .null
  | fuel + 1, around, k =>
    let inner := g.valueWithin fuel (k :: around)
    let both (field : Nat × Nat) := (inner field.1, inner field.2)
    match g.object k with
    | .scalar value => value
    | .list items => if around.contains k then .listAgain else .list (items.map inner)
    | .pairs fields => if around.contains k then .listAgain else .pairs (fields.map both)
    | .set items => .set (SetTable.arranged (items.map inner))
    | .mapping fields => if around.contains k then .mappingAgain else .mapping (fields.map both)

/-- The value at a position. -/
def value (g : Graph) (k : Nat) : Value := g.valueWithin (g.objects.size + 1) [] k

/-- Whether an object is a given text. -/
def isText (g : Graph) (name : String) (k : Nat) : Bool :=
  match g.object k with
  | .scalar value => value.isText name
  | _ => false

/-- The value that a mapping has for a name. -/
def get? (g : Graph) (name : String) (fields : List (Nat × Nat)) : Option Value :=
  (fields.find? fun field => g.isText name field.1).map fun field => g.value field.2

end Graph

end Y86.Document
