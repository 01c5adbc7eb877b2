import SequenceDiagram.Binary32.Basic

namespace SequenceDiagram

/-!
# Decimal numerals and the numbers nearest to them

* `Decimal` is a signed coefficient times a power of ten.
* `Decimal.toBinary32` rounds it once; `Decimal.toBinary32ViaBinary64` rounds it to the 53 bits of
  binary64 first, as every format does whose numbers are binary64.
* `Binary32.ofText?` reads a numeral: an optional sign, then digits with an optional point and an
  optional exponent, or one of the words `inf`, `infinity` and `nan` in any case.
-/

/-- The number `± coefficient * 10 ^ exponent`. -/
structure Decimal where
  negative : Bool
  coefficient : Nat
  exponent : Int
  deriving DecidableEq

namespace Decimal

/-! ### Rounding -/

/-- The number nearest to the absolute value among those with `p` significant bits, in units of
    `2 ^ (-scale)`. Nothing is computed beyond `10 ^ 400`, which is past the range of every format
    here, and what is below `10 ^ (-400)` counts as zero. -/
def scaled? (p scale : Nat) (d : Decimal) : Option Nat :=
  if d.coefficient = 0 then some 0
  else match d.exponent with
    | .ofNat e =>
      if 400 < e then none
      else some (roundBits p (d.coefficient * Nat.pow 10 e * Nat.pow 2 scale) 1)
    | .negSucc e =>
      if d.coefficient.log2 + 400 < e then some 0
      else some (roundBits p (d.coefficient * Nat.pow 2 scale) (Nat.pow 10 (e + 1)))

/-- The nearest binary32 number. -/
def toBinary32 (d : Decimal) : Binary32 :=
  match d.scaled? 24 149 with
  | some units => .ofRatio d.negative units 1
  | none => .infinite d.negative

/-- The binary32 number nearest to the nearest binary64 number; there is none beyond the range of
    binary64. -/
def viaBinary64? (d : Decimal) : Option Binary32 :=
  match d.scaled? 53 1074 with
  | some units =>
    if units < Nat.pow 2 (1024 + 1074) then some (.ofRatio d.negative units (Nat.pow 2 925))
    else none
  | none => none

/-- The binary32 number nearest to the nearest binary64 number, which may be infinite. -/
def toBinary32ViaBinary64 (d : Decimal) : Binary32 := d.viaBinary64?.getD (.infinite d.negative)

/-! ### Reading -/

/-- The number that a list of decimal digits stands for. -/
def digitsValue (digits : List Char) : Nat :=
  digits.foldl (fun n c => 10 * n + (c.toNat - '0'.toNat)) 0

/-- The decimal with these digits before and after the point. -/
def ofDigits (negative : Bool) (whole fraction : List Char) (exponent : Int) : Decimal :=
  ⟨negative, digitsValue (whole ++ fraction), exponent - fraction.length⟩

/-- A leading sign, and what follows it. -/
def splitSign : List Char → Bool × List Char
  | '-' :: rest => (true, rest)
  | '+' :: rest => (false, rest)
  | rest => (false, rest)

/-- The end of a numeral: nothing, or `e` and a signed number. -/
def exponent? : List Char → Option Int
  | [] => some 0
  | c :: rest =>
    let (negative, digits) := splitSign rest
    if c.toLower = 'e' ∧ digits ≠ [] ∧ digits.all Char.isDigit then
      some (if negative then -(digitsValue digits : Int) else digitsValue digits)
    else none

/-- A numeral without its sign. At least one digit stands before or after the point. -/
def unsigned? (negative : Bool) (cs : List Char) : Option Decimal :=
  let (whole, rest) := cs.span Char.isDigit
  let (fraction, rest) := match rest with
    | '.' :: rest => rest.span Char.isDigit
    | rest => ([], rest)
  if whole = [] ∧ fraction = [] then none
  else (exponent? rest).map (ofDigits negative whole fraction)

end Decimal

/-- The number that a text stands for. -/
def Binary32.ofText? (text : String) : Option Binary32 :=
  let (negative, rest) := Decimal.splitSign text.toList
  let word := String.ofList (rest.map Char.toLower)
  if word = "inf" ∨ word = "infinity" then some (.infinite negative)
  else if word = "nan" then some .nan
  else (Decimal.unsigned? negative rest).map Decimal.toBinary32

end SequenceDiagram
