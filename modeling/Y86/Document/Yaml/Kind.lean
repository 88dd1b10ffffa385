/-!
# Kinds of nodes

The kind of a node is given by its tag. A plain scalar without a tag has the kind that its text looks like:
truth values, numbers, dates and the absence of a value have forms of their own, two signs have a meaning in
mappings, and everything else is text.
-/

namespace Y86.Document.Yaml

/-- What a node stands for. -/
inductive Kind where
  | null
  | bool
  | int
  | float
  | date
  | bytes
  | text
  | list
  /-- A list of mappings with one field each, which is an ordered mapping. -/
  | pairs
  /-- A mapping whose keys alone count. -/
  | set
  | mapping
  /-- The key whose value is merged into its mapping. -/
  | merge
  /-- The key that stands for the value of a mapping as a whole. -/
  | default
  /-- What has no meaning here. -/
  | unknown
  deriving DecidableEq, Repr

namespace Kind

/-- The kind that a tag names. -/
def ofTag (tag : String) : Kind :=
  let names := [("null", null), ("bool", bool), ("int", int), ("float", float), ("timestamp", date),
    ("binary", bytes), ("str", text), ("seq", list), ("omap", pairs), ("pairs", pairs), ("set", set), ("map", mapping),
    ("merge", merge), ("value", default)]
  ((names.find? fun name => "tag:yaml.org,2002:" ++ name.1 == tag).map (·.2)).getD unknown

/-! ### What plain scalars look like -/

/-- The words for truth. -/
def trueWords : List String := ["yes", "Yes", "YES", "true", "True", "TRUE", "on", "On", "ON"]

/-- The words for falsehood. -/
def falseWords : List String := ["no", "No", "NO", "false", "False", "FALSE", "off", "Off", "OFF"]

/-- The words for the absence of a value. -/
def nullWords : List String := ["", "~", "null", "Null", "NULL"]

/-- Being a decimal digit or an underscore. -/
def isDigitPart (c : Char) : Bool := c.isDigit || c == '_'

/-- What is behind a sign. -/
def unsigned : List Char → List Char
  | '-' :: cs => cs
  | '+' :: cs => cs
  | cs => cs

/-- Whether a text is a row of numbers below sixty, each behind a colon. -/
def isSixties : List Char → Bool
  | [] => true
  | [':', c] => c.isDigit
  | ':' :: c :: d :: cs =>
    if d = ':' then c.isDigit && isSixties (d :: cs)
    else '0' ≤ c && c ≤ '5' && d.isDigit && isSixties cs
  | _ => false

/-- Whether a text looks like an integer. -/
def isInt (text : List Char) : Bool :=
  match unsigned text with
  | '0' :: 'b' :: cs => !cs.isEmpty && cs.all fun c => c == '0' || c == '1' || c == '_'
  | '0' :: 'x' :: cs =>
    !cs.isEmpty && cs.all fun c => isDigitPart c || ('a' ≤ c && c ≤ 'f') || ('A' ≤ c && c ≤ 'F')
  | '0' :: cs => cs.all fun c => ('0' ≤ c && c ≤ '7') || c == '_'
  | c :: cs => '1' ≤ c && c ≤ '9' && isSixties (cs.dropWhile isDigitPart)
  | [] => false

/-- Whether a text is an exponent with its sign, or empty. -/
def isExponent : List Char → Bool
  | [] => true
  | e :: sign :: cs => (e == 'e' || e == 'E') && (sign == '-' || sign == '+') && !cs.isEmpty && cs.all Char.isDigit
  | _ => false

/-- Whether a text is a decimal point with digits behind it and perhaps an exponent. -/
def isFraction (leading : Bool) : List Char → Bool
  | '.' :: cs => (leading || cs.head?.any Char.isDigit) && isExponent (cs.dropWhile isDigitPart)
  | _ => false

/-- Whether a text looks like a number with a fraction. -/
def isFloat (text : List Char) : Bool :=
  let cs := unsigned text
  let word := String.ofList cs
  if word ∈ [".inf", ".Inf", ".INF"] then true
  else if String.ofList text ∈ [".nan", ".NaN", ".NAN"] then true
  else if cs.head?.any Char.isDigit then
    let rest := cs.dropWhile isDigitPart
    let sixties := rest.takeWhile (· != '.')
    let fraction := rest.dropWhile (· != '.')
    if sixties.isEmpty then isFraction true fraction
    else isSixties sixties && fraction.head? == some '.' && (fraction.drop 1).all isDigitPart
  else isFraction false text

/-- Whether a text has the shape of a pattern, where a nine stands for any digit. -/
def matchesShape (shape : String) (text : List Char) : Bool :=
  text.length == shape.length
    && (shape.toList.zip text).all fun (s, c) => if s = '9' then c.isDigit else s == c

/-- The longest of the shapes that a text begins with, and what is behind it. -/
def shaped? (shapes : List String) (text : List Char) : Option (List Char × List Char) :=
  shapes.findSome? fun shape =>
    let n := shape.length
    if matchesShape shape (text.take n) then some (text.take n, text.drop n) else none

/-- The parts of a text that looks like a date, perhaps with a time. -/
structure DateParts where
  /-- The year, the month and the day. -/
  day : List Char
  /-- The hour, the minute and the second. -/
  time : Option (List Char) := none
  /-- The digits behind the decimal point of the seconds. -/
  fraction : List Char := []
  /-- The sign and the digits of the distance from universal time, with a colon if there are minutes; the letter of
  universal time itself has no distance. -/
  zone : Option (List Char) := none

/-- The parts of a time zone at the end of a text; no zone at all is one of the possibilities. -/
def zone? (text : List Char) : Option (Option (List Char)) :=
  match text.dropWhile fun c => c == ' ' || c == '\t' with
  | [] => if text.isEmpty then some none else none
  | ['Z'] => some (some [])
  | sign :: cs =>
    if (sign = '-' ∨ sign = '+') ∧ ["9", "99", "9:99", "99:99"].any (matchesShape · cs) then some (some (sign :: cs))
    else none

/-- The parts of a date in a text. A date that is tagged as one may have a month or day of one digit also where no time
follows. -/
def dateParts? (text : List Char) (tagged : Bool := false) : Option DateParts :=
  if matchesShape "9999-99-99" text then some { day := text }
  else do
    let (day, rest) ← shaped? ["9999-99-99", "9999-99-9", "9999-9-99", "9999-9-9"] text
    if tagged && rest.isEmpty then return { day := text }
    let rest ← match rest with
      | 'T' :: cs => some cs
      | 't' :: cs => some cs
      | c :: cs => if c = ' ' ∨ c = '\t' then some (cs.dropWhile fun c => c == ' ' || c == '\t') else none
      | [] => none
    let (time, rest) ← shaped? ["99:99:99", "9:99:99"] rest
    let (fraction, rest) := match rest with
      | '.' :: cs => (cs.takeWhile Char.isDigit, cs.dropWhile Char.isDigit)
      | cs => ([], cs)
    let zone ← zone? rest
    return { day, time := some time, fraction, zone }

/-- The kind of a plain scalar in one line. -/
def ofLine (cs : List Char) : Kind :=
  let word := String.ofList cs
  if word ∈ trueWords ∨ word ∈ falseWords then bool
  else if isFloat cs then float
  else if isInt cs then int
  else if word = "<<" then merge
  else if word ∈ nullWords then null
  else if (dateParts? cs).isSome then date
  else if word = "=" then default
  else if word ∈ ["!", "&", "*"] then unknown
  else text

/-- The kind of a plain scalar. A line break at its end does not matter. -/
def ofPlain (cs : List Char) : Kind :=
  if cs = ['\n'] then text
  else if cs.getLast? = some '\n' then ofLine cs.dropLast
  else ofLine cs

end Kind

end Y86.Document.Yaml
