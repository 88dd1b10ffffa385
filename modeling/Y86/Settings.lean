import Y86.Document.Graph
import Y86.Memory.Basic
import Y86.Text.Integer
import Y86.Trace.Build

/-!
# Settings

A simulator is set up by the size of its memory, the bound on the steps of a run, and the pause between the ticks of
a continuous run. Each of the three is given in a document under its name, as an integer or as a text that denotes
one, and has a default.

`Settings.ofNames` reads all three before it looks whether they are positive, both times in the order of
`Setting.all`.
-/

namespace Y86

open Document Text

/-- What can be set. -/
inductive Setting where
  | memorySize | maxSteps | tickInterval
  deriving DecidableEq, Repr

namespace Setting

def all : List Setting := [memorySize, maxSteps, tickInterval]

def name : Setting → String
  | memorySize => "memory_size"
  | maxSteps => "max_steps"
  | tickInterval => "tick_interval_ms"

/-- The value of a setting that is not given. -/
def default : Setting → Nat
  | memorySize => Memory.defaultSize
  | maxSteps => Trace.defaultMaxSteps
  | tickInterval => 100

end Setting

/-- Why a document holds no settings. -/
inductive SettingsError where
  /-- The document is no mapping; this is the name of its kind. -/
  | root (kind : String)
  /-- A value is neither an integer nor a text. -/
  | format (value : Value)
  /-- A text denotes no integer. -/
  | integer (cause : Integer.Error)
  /-- A value is zero or negative. -/
  | notPositive (setting : Setting) (value : Int)

/-- The wording of an error. There is none if it would show a value that cannot be shown in the room there is. -/
def SettingsError.message (room : Nat) : SettingsError → Except ShowError String
  | root kind => .ok ("Config root must be a mapping, got " ++ kind)
  | format value => (value.display room).map ("Invalid integer format: " ++ ·)
  | integer cause => .ok cause.message
  | notPositive setting value =>
    (Value.shownInteger value).map (setting.name ++ " must be a positive integer: " ++ ·)

structure Settings where
  /-- The size of memory in bytes. -/
  memorySize : Nat := Setting.memorySize.default
  maxSteps : Nat := Setting.maxSteps.default
  /-- The pause between two ticks, in milliseconds. -/
  tickInterval : Nat := Setting.tickInterval.default
  deriving DecidableEq, Repr

namespace Settings

/-- Whether a text begins with the mark of base sixteen. -/
def isMarked (cs : List Char) : Bool :=
  match cs with
  | '0' :: 'x' :: _ => true
  | '0' :: 'X' :: _ => true
  | _ => false

/-- The integer that a value stands for. Truth values are no integers. -/
def integerOf : Value → Except SettingsError Int
  | .int n => .ok n
  | .text ps =>
    match Integer.read (if isMarked (chars ps) then 16 else 10) ps with
    | .ok n => .ok n
    | .error cause => .error (.integer cause)
  | value => .error (.format value)

/-- The integer that is given for a setting, or its default. -/
def lookUp (given? : String → Option Value) (s : Setting) : Except SettingsError Int :=
  match given? s.name with
  | some value => integerOf value
  | none => .ok s.default

/-- A value that has to be positive. -/
def positive (s : Setting) (value : Int) : Except SettingsError Nat :=
  if 0 < value then .ok value.toNat else .error (.notPositive s value)

/-- The settings that are given by their names. -/
def ofNames (given? : String → Option Value) : Except SettingsError Settings := do
  let memorySize ← lookUp given? .memorySize
  let maxSteps ← lookUp given? .maxSteps
  let tickInterval ← lookUp given? .tickInterval
  return {
    memorySize := ← positive .memorySize memorySize
    maxSteps := ← positive .maxSteps maxSteps
    tickInterval := ← positive .tickInterval tickInterval }

/-- The settings in a value; no value gives none. -/
def ofValue : Value → Except SettingsError Settings
  | .null => ofNames fun _ => none
  | .mapping fields => ofNames fun name => Value.get? name fields
  | value => .error (.root value.kind)

/-- The settings in a document; a document without a value gives none. -/
def ofGraph (g : Graph) : Except SettingsError Settings :=
  match g.object g.root with
  | .scalar .null => ofNames fun _ => none
  | .mapping fields => ofNames fun name => g.get? name fields
  | root => .error (.root root.kind)

/-- The settings in a text, of which a parser makes a document. A text that is no document has an error of the parser. -/
def parsed {α ε : Type} (parse : α → Except ε Graph) (input : α) : Except (ε ⊕ SettingsError) Settings :=
  match parse input with
  | .ok g => (ofGraph g).mapError .inr
  | .error e => .error (.inl e)

end Settings

end Y86
