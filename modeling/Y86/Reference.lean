/-!
# References

What comes into being during a run is called by an identifier that is handed out with it. A request refers to a thing by
words; either they are those of an identifier that was handed out, or they are others, which refer to nothing, although an
answer may have to name them.
-/

namespace Y86

/-- What a request refers to by a name. -/
inductive Reference (α : Type) where
  /-- An identifier that was handed out. -/
  | id (id : α)
  /-- Words that are those of no identifier that was handed out. -/
  | text (text : String)
  deriving DecidableEq, Repr

namespace Reference

/-- Whether a reference is one to the thing with an identifier. -/
def isTo [DecidableEq α] (own : α) : Reference α → Bool
  | id other => own = other
  | text _ => false

/-- A reference in words, given the words for identifiers. -/
def named (name : α → String) : Reference α → String
  | id own => name own
  | text words => words

/-- A reference by an identifier is one to the thing that bears it, and to no other. -/
@[simp] theorem isTo_id [DecidableEq α] (own other : α) : (id other).isTo own = decide (own = other) := rfl

/-- Other words refer to nothing. -/
@[simp] theorem isTo_text [DecidableEq α] (own : α) (words : String) : (text words).isTo own = false := rfl

end Reference

end Y86
