import Y86.Text.Blank
import Y86.Text.Hex

/-!
# Object code records

A line of an object code listing holds a record if, once a comment is cut off, it begins with a marked address
and a colon, and at least one hexadecimal digit follows. The bytes of the record are written as words of digits;
the first word may have any number of digits, a later one only an even number, and the first that does not
belong to the bytes ends them. A comment starts at `#` or at `|`.
-/

namespace Y86

open Text

/-- One record: where its bytes go, and their digits. -/
structure ObjectRecord where
  /-- The address of the first byte. -/
  address : Nat
  /-- The digits of the bytes, in order. -/
  digits : List Char
  deriving DecidableEq, Repr

namespace ObjectRecord

/-- The bytes that digits denote, two digits each; an odd last digit is a byte of its own. -/
def bytesOf : List Char → List UInt8
  | [] => []
  | [d] => [UInt8.ofNat (Hex.value [d])]
  | high :: low :: rest => UInt8.ofNat (Hex.value [high, low]) :: bytesOf rest

/-- The bytes of a record. -/
def bytes (r : ObjectRecord) : List UInt8 := bytesOf r.digits

/-- The position behind the last byte. -/
def stop (r : ObjectRecord) : Nat := r.address + r.bytes.length

/-- The part of a line in front of the first comment. -/
def uncomment (line : List Char) : List Char :=
  trim (((line.takeWhile (· != '#')).takeWhile (· != '|')))

/-- The words of digits at the start of a text, after blanks, up to the first character that is neither a digit
nor a blank. A word that such a character cuts short counts with the digits it has. -/
def digitWords (cs : List Char) : List (List Char) := words (cs.takeWhile fun c => Hex.isDigit c || isBlank c)

/-- The digits of the words that belong to the bytes: the first word, and then all words up to the first with an
odd number of digits. -/
def joinWords : List (List Char) → List Char
  | [] => []
  | word :: words => word ++ (words.takeWhile (·.length % 2 == 0)).flatten

/-- The record of a line, if it holds one. -/
def ofLine? (line : List Char) : Option ObjectRecord :=
  match uncomment line with
  | '0' :: 'x' :: rest =>
    let address := rest.takeWhile Hex.isDigit
    match rest.dropWhile Hex.isDigit with
    | ':' :: data =>
      -- a line without data is no record, whatever its address
      match joinWords (digitWords data) with
      | [] => none
      | digits => if address.isEmpty then none else some ⟨Hex.value address, digits⟩
    | _ => none
  | _ => none

end ObjectRecord

end Y86
