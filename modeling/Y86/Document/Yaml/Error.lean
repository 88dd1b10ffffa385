import Y86.Document.Moment
import Y86.Text.Integer

/-!
# Why a text has no value

Most texts that fail are no documents, and nothing more is said of them. A document can also hold a scalar that denotes
nothing, and each such case has a cause of its own.
-/

namespace Y86.Document.Yaml

open Text

/-- Why a text has no value. -/
inductive ReadError where
  /-- The text is no document, or a node is no value. -/
  | malformed
  /-- A number behind a backslash is no code point. -/
  | codePoint
  /-- A number behind a backslash has more than 31 binary digits. -/
  | wideCode
  /-- Collections lie inside each other too deeply, or a scalar is looked for without end. -/
  | tooDeep
  /-- A number has no digits at all. -/
  | noDigits
  /-- An integer cannot be read. -/
  | integer (cause : Integer.Error)
  /-- A number with a fraction cannot be read. -/
  | float (text : List Point)
  /-- A number in base sixty has more places than can be weighed. -/
  | places
  /-- A truth value is no word for truth or falsehood. -/
  | truth (word : List Point)
  /-- A date has another form. -/
  | undated
  /-- A date is not written as a scalar. -/
  | mappedDate
  /-- A part of a date or time is out of range. -/
  | moment (cause : MomentError)
  deriving DecidableEq, Repr

/-- What is said of an error, beside its kind. -/
def ReadError.message? : ReadError → Option (List Point)
  | malformed => none
  | codePoint => some (points "chr() arg not in range(0x110000)")
  | wideCode => none
  | tooDeep => none
  | noDigits => none
  | integer cause => some (points cause.message)
  | float text => some (points ("could not convert string to float: " ++ Quoted.quotedPoints text))
  | places => none
  | truth word => some word
  | undated => none
  | mappedDate => none
  | moment cause => some (points cause.message)

/-- A reading that can fail. -/
abbrev Scan := Except ReadError

/-- Fails unless a condition holds. -/
def require (condition : Bool) : Scan Unit := if condition then .ok () else .error .malformed

/-- A value that has to be there. -/
def present : Option α → Scan α
  | some a => .ok a
  | none => .error .malformed

end Y86.Document.Yaml
