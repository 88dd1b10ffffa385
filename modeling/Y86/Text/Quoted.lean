import Y86.Text.Hex
import Y86.Text.Point
import Y86.Text.Printable

/-!
# Quoted text

A text is quoted with single quotes, or with double quotes when it holds single ones and no double ones. Inside,
the backslash and the quote in use are escaped, three controls have letters, and every other code point that is
not printable is written by its number.

A byte string is quoted in the same way, behind a letter; there, only the characters of ASCII are printable.
-/

namespace Y86.Text.Quoted

/-- The quote that a text is put into. -/
def quoteFor (cs : List Char) : Char := if cs.contains '\'' && !cs.contains '"' then '"' else '\''

/-- A code point by its number. -/
def encodeNumber (n : Nat) : List Char :=
  let digits := Hex.digits n
  if n ≤ 0xff then '\\' :: 'x' :: Hex.zeroFill 2 digits
  else if n ≤ 0xffff then '\\' :: 'u' :: Hex.zeroFill 4 digits
  else '\\' :: 'U' :: Hex.zeroFill 8 digits

/-- A character between quotes, where `plain` says which characters stand for themselves. -/
def encodeChar (plain : Char → Bool) (quote c : Char) : List Char :=
  if c = quote ∨ c = '\\' then ['\\', c]
  else if c = '\n' then ['\\', 'n']
  else if c = '\r' then ['\\', 'r']
  else if c = '\t' then ['\\', 't']
  else if plain c then [c]
  else encodeNumber c.toNat

/-- A code point between quotes. -/
def encodePoint (quote : Char) (p : Point) : List Char :=
  match p.char? with
  | some c => encodeChar isPrintable quote c
  | none => encodeNumber p.value

/-- A text in quotes. -/
def encode (ps : List Point) : List Char :=
  let quote := quoteFor (chars ps)
  quote :: ps.flatMap (encodePoint quote) ++ [quote]

/-- A text in quotes, as a string. -/
def quotedPoints (ps : List Point) : String := String.ofList (encode ps)

/-- A string in quotes. -/
def quoted (s : String) : String := quotedPoints (points s)

/-- A byte string in quotes. -/
def quotedBytes (bytes : List UInt8) : String :=
  let cs := bytes.map fun b => Char.ofNat b.toNat
  let quote := quoteFor cs
  let plain (c : Char) : Bool := ' ' ≤ c && c ≤ '~'
  "b" ++ String.ofList (quote :: cs.flatMap (encodeChar plain quote) ++ [quote])

end Y86.Text.Quoted
