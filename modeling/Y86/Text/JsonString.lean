import Y86.Text.Hex

/-!
# Texts in JSON

Between double quotes, the quote and the backslash are escaped, five controls have letters, and the other controls
below the space are written by their code points. Every other character stands for itself.
-/

namespace Y86.Text.JsonString

/-- A character of a text. -/
def encodeChar (c : Char) : List Char :=
  match [('"', '"'), ('\\', '\\'), ('\n', 'n'), ('\r', 'r'), ('\t', 't'), ('\x08', 'b'), ('\x0c', 'f')].lookup c with
  | some sign => ['\\', sign]
  | none => if c.toNat < 0x20 then '\\' :: 'u' :: Hex.zeroFill 4 (Hex.digits c.toNat) else [c]

/-- A text between its quotes. -/
def encode (s : String) : String := "\"" ++ String.ofList (s.toList.flatMap encodeChar) ++ "\""

end Y86.Text.JsonString
