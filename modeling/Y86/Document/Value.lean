import Y86.Decimal.Notation
import Y86.Document.Moment
import Y86.Text.Integer
import Y86.Text.Quoted

/-!
# Document values

What a document holds: scalars and collections. Lists and mappings keep the order in which their items came in.
Two keys are one if they are equal, whether a number is written as an integer or not and whether a truth value stands
for zero or one.

`Value.shown` is a value as it is shown inside another one, and `Value.display` a value that is shown by itself; they
only differ on texts and dates. A value cannot be shown if an integer in it has too many digits, or if it holds values
inside each other more deeply than there is room for. The first such place is the cause. How much room there is depends
on where the program runs and on what has called it, so it is a parameter.
-/

namespace Y86.Document

open Text

/-- A value of a document. -/
inductive Value where
  | null
  | bool (b : Bool)
  | int (n : Int)
  | float (x : Float)
  | text (ps : List Point)
  | bytes (bs : List UInt8)
  | date (d : Date)
  | moment (m : Moment)
  | list (items : List Value)
  /-- A list of pairs, which is an ordered mapping. -/
  | pairs (fields : List (Value × Value))
  | set (items : List Value)
  | mapping (fields : List (Value × Value))
  /-- A list that lies inside itself. -/
  | listAgain
  /-- A mapping that lies inside itself. -/
  | mappingAgain
  deriving Inhabited

/-- Why a value cannot be shown. -/
inductive ShowError where
  /-- An integer has too many digits. -/
  | tooLong
  /-- Values lie inside each other too deeply. -/
  | tooDeep
  deriving DecidableEq, Repr

/-- What is said of an error, beside its kind. -/
def ShowError.message? : ShowError → Option String
  | tooLong => some Integer.unwritableMessage
  | tooDeep => none

namespace Value

/-- The name of a value's kind. -/
def kind : Value → String
  | null => "NoneType"
  | bool _ => "bool"
  | int _ => "int"
  | float _ => "float"
  | text _ => "str"
  | bytes _ => "bytes"
  | date _ => "date"
  | moment _ => "datetime"
  | list _ => "list"
  | pairs _ => "list"
  | set _ => "set"
  | mapping _ => "dict"
  | listAgain => "list"
  | mappingAgain => "dict"

/-! ### Mappings -/

/-- The integer that a value is equal to. -/
def integer? : Value → Option Int
  | bool b => some (if b then 1 else 0)
  | int n => some n
  | float x => Decimal.integer? x
  | _ => none

/-- Whether two keys of a mapping are one. The undefined number is no other number, and not even itself. -/
def sameKey (a b : Value) : Bool :=
  match a, b with
  | null, null => true
  | text s, text t => s == t
  | bytes s, bytes t => s == t
  | date d, date e => d == e
  | moment m, moment n => m.isSame n
  | float x, float y => x == y
  | a, b =>
    match a.integer?, b.integer? with
    | some m, some n => m == n
    | _, _ => false

/-- Gives a key a value: in its place if it has one already, and otherwise at the end. -/
def put (key value : Value) : List (Value × Value) → List (Value × Value)
  | [] => [(key, value)]
  | field :: fields => if sameKey field.1 key then (field.1, value) :: fields else field :: put key value fields

/-- The mapping of a list of fields; of two values for a key the later one counts. -/
def ofFields (fields : List (Value × Value)) : Value :=
  mapping (fields.foldl (fun done field => put field.1 field.2 done) [])

/-- Whether a value is a given text. -/
def isText (name : String) : Value → Bool
  | text ps => ps == points name
  | _ => false

/-- The value that a mapping has for a name. -/
def get? (name : String) (fields : List (Value × Value)) : Option Value :=
  (fields.find? (·.1.isText name)).map (·.2)

/-! ### Texts -/

/-- Items in a row. -/
def listed (items : List String) : String := ", ".intercalate items

/-- A date inside another value. -/
def shownDate (name : String) (parts : List Nat) (more : List String) : String :=
  name ++ "(" ++ listed (parts.map toString ++ more) ++ ")"

/-- A distance from universal time inside another value. -/
def shownOffset (minutes : Int) : String :=
  let zone := "tzinfo=datetime.timezone"
  if minutes = 0 then zone ++ ".utc" else zone ++ "(" ++ stretchText minutes ++ ")"

/-- The items of a set; the empty set has a form of its own. -/
def shownSet (items : List String) : String :=
  if items.isEmpty then "set()" else "\x7b" ++ listed items ++ "\x7d"

/-- An integer as it is shown. -/
def shownInteger (n : Int) : Except ShowError String :=
  match Integer.write? n with
  | some numeral => .ok numeral
  | none => .error .tooLong

mutual

/-- A value inside another one, with a count of how deeply values may still lie inside each other. The pairs of an
ordered mapping count for themselves, and so does the list of the items of a set. -/
def shown : Nat → Value → Except ShowError String
  | 0, _ => .error .tooDeep
  | _ + 1, null => .ok "None"
  | _ + 1, bool b => .ok (if b then "True" else "False")
  | _ + 1, int n => shownInteger n
  | _ + 1, float x => .ok (Decimal.text x)
  | _ + 1, text ps => .ok (Quoted.quotedPoints ps)
  | _ + 1, bytes bs => .ok (Quoted.quotedBytes bs)
  | _ + 1, date d => .ok (shownDate "datetime.date" [d.year, d.month, d.day] [])
  | _ + 1, moment m =>
    let parts := [m.date.year, m.date.month, m.date.day] ++ m.time.parts
    .ok (shownDate "datetime.datetime" parts (m.time.offset.map shownOffset).toList)
  | depth + 1, list items => (shownItems depth items).map fun texts => "[" ++ listed texts ++ "]"
  | depth + 1, pairs fields =>
    (shownFields (depth - 1) "(" ", " ")" fields).map fun texts => "[" ++ listed texts ++ "]"
  | depth + 1, set items => (shownItems (depth - 1) items).map shownSet
  | depth + 1, mapping fields =>
    (shownFields depth "" ": " "" fields).map fun texts => "\x7b" ++ listed texts ++ "\x7d"
  | _ + 1, listAgain => .ok "[...]"
  | _ + 1, mappingAgain => .ok "\x7b...\x7d"

/-- The items of a list. -/
def shownItems (depth : Nat) : List Value → Except ShowError (List String)
  | [] => .ok []
  | item :: items => do
    let text ← shown depth item
    return text :: (← shownItems depth items)

/-- The fields of a mapping, each with something before it, between its key and its value, and behind it. -/
def shownFields (depth : Nat) (before between behind : String) :
    List (Value × Value) → Except ShowError (List String)
  | [] => .ok []
  | (key, value) :: fields => do
    let k ← shown depth key
    let v ← shown depth value
    return (before ++ k ++ between ++ v ++ behind) :: (← shownFields depth before between behind fields)

end

/-- A value by itself, where there is room for values that lie inside each other up to a depth. -/
def display (room : Nat) : Value → Except ShowError String
  | .text ps => .ok (String.ofList (chars ps))
  | .date d => .ok d.text
  | .moment m => .ok m.text
  | v => v.shown room

end Value

end Y86.Document
