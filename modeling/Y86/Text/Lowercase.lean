import Y86.Text.LetterCase
import Y86.Text.Point

/-!
# Small letters

Every capital letter is replaced by its small form. Two letters are special: the dotted capital I becomes an i with
a separate dot, and a capital sigma at the end of a word becomes the small sigma that ends words.
-/

namespace Y86.Text

/-- The small form of a letter; other characters are their own. -/
def smallLetter (c : Char) : Char :=
  let n := c.toNat
  match capitalRanges.find? fun r => r.first ≤ n && n ≤ r.last && (n - r.first) % r.step == 0 with
  | some r => Char.ofNat (n + r.shift).toNat
  | none => c

/-- Whether the letter next to a place has a case, where characters that do not separate letters are passed over. -/
def meetsCased (cs : List Char) : Bool := (cs.dropWhile isJoined).head?.any isCased

/-- The small form of a character behind `before`, which is listed backwards, and in front of `behind`. -/
def smallForm (before : List Char) (c : Char) (behind : List Point) : List Char :=
  if c = 'İ' then ['i', '\u0307']
  else if c = 'Σ' then if meetsCased before && !meetsCased (chars behind) then ['ς'] else ['σ']
  else [smallLetter c]

/-- A text in small letters behind `before`, which is listed backwards. -/
def lowercaseFrom (before : List Char) : List Point → List Point
  | [] => []
  | p :: ps =>
    let c := p.toChar
    let small := match p.char? with
      | some c => (smallForm before c ps).map .ofChar
      | none => [p]
    small ++ lowercaseFrom (c :: before) ps

/-- A text in small letters. -/
def lowercase (ps : List Point) : List Point := lowercaseFrom [] ps

end Y86.Text
