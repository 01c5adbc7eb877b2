import SequenceDiagram.Binary32.Decimal

namespace SequenceDiagram

/-!
# The shortest decimal that reads back

* `Magnitude.shortest` is the decimal with the fewest digits among those that round to a given
  magnitude, and the nearest to it of those with that many digits.
* `Binary32.toText` writes it in positional notation whatever its size, without a point for a whole
  number. Of two decimals that are equally near it takes the larger.
* `Binary32.toJson?` writes it as a JSON number: always with a point or an exponent, positional from
  `10 ^ (-6)` up to below `10 ^ 13`. Of two decimals that are equally near it takes the even one.
  What is not finite has no JSON number.
-/

/-! ### The digits -/

/-- The decimals that round to a magnitude, as a range in quarters of a unit. Both ends belong to
    it if the significand is even. -/
structure RoundingRange where
  low : Nat
  high : Nat
  closed : Bool

/-- The range ends half a step above and half a step below, and a quarter of a step below a power
    of two, where the steps get shorter. -/
def Magnitude.roundingRange (m : Magnitude) : RoundingRange :=
  let shift := m.units.log2 + 1 - 24
  let step := Nat.pow 2 shift
  let atPower := 0 < shift ∧ m.units = Nat.pow 2 23 * step
  { low := 4 * m.units - if atPower then step else 2 * step
    high := 4 * m.units + 2 * step
    closed := m.units / step % 2 = 0 }

/-- `coefficient * 10 ^ exponent` lies in the range. -/
def RoundingRange.contains (r : RoundingRange) (coefficient : Nat) (exponent : Int) : Bool :=
  let value := coefficient * Nat.pow 10 exponent.toNat * (4 * Magnitude.one)
  let down := Nat.pow 10 (-exponent).toNat
  if r.closed then r.low * down ≤ value ∧ value ≤ r.high * down
  else r.low * down < value ∧ value < r.high * down

/-- The least `k` with the magnitude below `10 ^ k`, found from its power of two. -/
def Magnitude.decimalPoint (m : Magnitude) : Int :=
  let k := ((m.units.log2 : Int) - 149) * 30103 / 100000 + 1
  if m.units * Nat.pow 10 (-k).toNat < Magnitude.one * Nat.pow 10 k.toNat then k else k + 1

/-- What is written for a magnitude halfway between two equally short decimals. -/
inductive TieRule where
  | up
  | even
  deriving DecidableEq

/-- The nearer of the two neighbours of the magnitude on the grid of `10 ^ exponent`, if one of
    them rounds to it. -/
def Magnitude.onGrid? (m : Magnitude) (tie : TieRule) (exponent : Int) : Option Nat :=
  let num := m.units * Nat.pow 10 (-exponent).toNat
  let den := Magnitude.one * Nat.pow 10 exponent.toNat
  let c := num / den
  match m.roundingRange.contains c exponent, m.roundingRange.contains (c + 1) exponent with
  | true, true =>
    some (if tie = .up ∧ den ≤ 2 * (num % den) then c + 1 else roundDiv num den)
  | true, false => some c
  | false, true => some (c + 1)
  | false, false => none

/-- The shortest decimal that reads back as the magnitude. Nine digits always suffice, and a
    coefficient of ten, which only the grid of one digit gives, is written as one. -/
def Magnitude.shortest (m : Magnitude) (tie : TieRule) : Decimal :=
  let grids := (List.range 9).map fun (d : Nat) => m.decimalPoint - (d + 1)
  let found := grids.findSome? fun e => (m.onGrid? tie e).map fun c => (c, e)
  match found with
  | some (10, e) => ⟨false, 1, e + 1⟩
  | some (c, e) => ⟨false, c, e⟩
  | none => ⟨false, 0, 0⟩

/-! ### Two ways to write it -/

/-- Positional notation: a point only where digits follow it. -/
def Decimal.positional (d : Decimal) : String :=
  let digits := Nat.toDigits 10 d.coefficient
  match d.exponent with
  | .ofNat e => String.ofList (digits ++ List.replicate e '0')
  | .negSucc e =>
    if e + 1 < digits.length then
      String.ofList (digits.take (digits.length - (e + 1)) ++ '.' ::
        digits.drop (digits.length - (e + 1)))
    else String.ofList ('0' :: '.' :: List.replicate (e + 1 - digits.length) '0' ++ digits)

/-- Scientific notation: one digit before the point, and an exponent that always has a sign. -/
def Decimal.scientific (d : Decimal) (power : Int) : String :=
  let mantissa := match Nat.toDigits 10 d.coefficient with
    | first :: second :: rest => first :: '.' :: second :: rest
    | digits => digits
  String.ofList (mantissa ++ 'e' :: (if power < 0 then '-' else '+') ::
    Nat.toDigits 10 power.natAbs)

/-- A JSON number, which shows that it need not be whole. -/
def Decimal.toJson (d : Decimal) : String :=
  let power : Int := (Nat.toDigits 10 d.coefficient).length - 1 + d.exponent
  if -6 ≤ power ∧ power ≤ 12 then
    if 0 ≤ d.exponent then d.positional ++ ".0" else d.positional
  else d.scientific power

namespace Binary32

/-- The sign that is written before the digits. -/
def signText (negative : Bool) : String := if negative then "-" else ""

/-- The number in positional notation. -/
def toText : Binary32 → String
  | nan => "NaN"
  | infinite s => signText s ++ "inf"
  | finite s m => signText s ++ if m.units = 0 then "0" else (m.shortest .up).positional

/-- The number as a JSON number. -/
def toJson? : Binary32 → Option String
  | finite s m => some (signText s ++ if m.units = 0 then "0.0" else (m.shortest .even).toJson)
  | _ => none

end Binary32

end SequenceDiagram
