namespace SequenceDiagram

/-!
# Hexadecimal digits

`hexValue?` is the number that some digits stand for, and `codePoint?` the character of that number.
-/

/-- A hexadecimal digit, in either case. -/
def isHexDigit (c : Char) : Bool := c.isDigit || ('a' ≤ c.toLower && c.toLower ≤ 'f')

/-- The value of a hexadecimal digit. -/
def hexDigitValue (c : Char) : Nat :=
  if c.isDigit then c.toNat - '0'.toNat else c.toLower.toNat - 'a'.toNat + 10

/-- The number that hexadecimal digits stand for. -/
def hexValue? (digits : List Char) : Option Nat :=
  if digits.all isHexDigit then
    some (digits.foldl (fun n c => 16 * n + hexDigitValue c) 0)
  else none

/-- The character whose number is given by hexadecimal digits. -/
def codePoint? (digits : List Char) : Option Char :=
  (hexValue? digits).bind fun n => if n.isValidChar then some (Char.ofNat n) else none

end SequenceDiagram
