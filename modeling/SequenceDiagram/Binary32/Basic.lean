import SequenceDiagram.Binary32.Rounding

namespace SequenceDiagram

/-!
# Binary32 numbers

A `Binary32` is not-a-number, a signed infinity, or a sign with a **magnitude**: a natural number of
units of `2 ^ (-149)` that has at most 24 significant bits and lies below `2 ^ 128`.

* Each operation computes its exact result and rounds it once, to nearest with ties to even
  (`Binary32.ofRatio`); what reaches `2 ^ 128` becomes an infinity.
* A sum that is exactly zero is positive, unless both terms are negative (`Binary32.add`).
* Comparisons go through `Binary32.rank`, the value in units; not-a-number compares with nothing.
* `Binary32.max` passes over not-a-number.
-/

/-! ### The numbers -/

/-- The number of units in one. -/
def Magnitude.one : Nat := Nat.pow 2 149

/-- The number of units in `2 ^ 128`, which no finite value reaches. -/
def Magnitude.limit : Nat := Nat.pow 2 128 * Magnitude.one

/-- A finite absolute value, in units of `2 ^ (-149)`. -/
structure Magnitude where
  units : Nat
  fewBits : FewBits 24 units
  lt_limit : units < Magnitude.limit
  deriving DecidableEq

/-- A number of the binary32 format. -/
inductive Binary32 where
  | nan
  | infinite (negative : Bool)
  | finite (negative : Bool) (magnitude : Magnitude)
  deriving DecidableEq

namespace Binary32

/-- The number nearest to `± num / den` units. -/
def ofRatio (negative : Bool) (num den : Nat) : Binary32 :=
  if h : roundBits 24 num den < Magnitude.limit then
    .finite negative ⟨roundBits 24 num den, fewBits_roundBits (by decide) num den, h⟩
  else .infinite negative

/-- The number nearest to an integer count of units; a zero gets the given sign. -/
def ofUnits (zeroNegative : Bool) (units : Int) : Binary32 :=
  if units = 0 then ofRatio zeroNegative 0 1 else ofRatio (units < 0) units.natAbs 1

/-- The number nearest to a natural number. -/
def ofNat (n : Nat) : Binary32 := ofRatio false (n * Magnitude.one) 1

instance (n : Nat) : OfNat Binary32 n := ⟨ofNat n⟩

instance : Inhabited Binary32 := ⟨ofNat 0⟩

/-- A signed magnitude as an integer count of units. -/
def signed (negative : Bool) (magnitude : Magnitude) : Int :=
  if negative then -(magnitude.units : Int) else magnitude.units

/-! ### Arithmetic -/

/-- The number of opposite sign. -/
protected def neg : Binary32 → Binary32
  | nan => nan
  | infinite s => infinite !s
  | finite s m => finite (!s) m

/-- The sum, rounded once. -/
protected def add : Binary32 → Binary32 → Binary32
  | nan, _ => nan
  | _, nan => nan
  | infinite s, infinite t => if s = t then infinite s else nan
  | infinite s, finite _ _ => infinite s
  | finite _ _, infinite t => infinite t
  | finite s a, finite t b => ofUnits (s && t) (signed s a + signed t b)

/-- The product, rounded once. -/
protected def mul : Binary32 → Binary32 → Binary32
  | nan, _ => nan
  | _, nan => nan
  | infinite s, infinite t => infinite (s != t)
  | infinite s, finite t b => if b.units = 0 then nan else infinite (s != t)
  | finite s a, infinite t => if a.units = 0 then nan else infinite (s != t)
  | finite s a, finite t b => ofRatio (s != t) (a.units * b.units) Magnitude.one

instance : Neg Binary32 := ⟨Binary32.neg⟩
instance : Add Binary32 := ⟨Binary32.add⟩
instance : Sub Binary32 := ⟨fun x y => x + -y⟩
instance : Mul Binary32 := ⟨Binary32.mul⟩

/-- Half of the number, rounded once. -/
def half : Binary32 → Binary32
  | nan => nan
  | infinite s => infinite s
  | finite s m => ofRatio s m.units 2

/-- The number without its sign. -/
def abs : Binary32 → Binary32
  | nan => nan
  | infinite _ => infinite false
  | finite _ m => finite false m

/-! ### Order -/

/-- Neither not-a-number nor an infinity. -/
def isFinite : Binary32 → Bool
  | finite _ _ => true
  | _ => false

/-- The value in units, an infinity counting as `2 ^ 128`; not-a-number has none. -/
def rank : Binary32 → Option Int
  | nan => none
  | infinite s => some (if s then -(Magnitude.limit : Int) else Magnitude.limit)
  | finite s m => some (signed s m)

/-- Strictly smaller; false as soon as one side is not a number. -/
def lt (x y : Binary32) : Bool :=
  match x.rank, y.rank with
  | some i, some j => decide (i < j)
  | _, _ => false

/-- Smaller or equal; false as soon as one side is not a number. -/
def le (x y : Binary32) : Bool :=
  match x.rank, y.rank with
  | some i, some j => decide (i ≤ j)
  | _, _ => false

instance : LT Binary32 := ⟨fun x y => x.lt y⟩
instance : LE Binary32 := ⟨fun x y => x.le y⟩
instance (x y : Binary32) : Decidable (x < y) := inferInstanceAs (Decidable (x.lt y = true))
instance (x y : Binary32) : Decidable (x ≤ y) := inferInstanceAs (Decidable (x.le y = true))

/-- The larger number; of two equal ones the first, and the other one if one is not a number. -/
protected def max (x y : Binary32) : Binary32 :=
  match x.rank, y.rank with
  | none, _ => y
  | _, none => x
  | some i, some j => if i < j then y else x

instance : Max Binary32 := ⟨Binary32.max⟩

/-! ### Constants -/

/-- The largest finite number, `(2 ^ 24 - 1) * 2 ^ 104`. -/
def largest : Binary32 :=
  ofRatio false ((Nat.pow 2 24 - 1) * Nat.pow 2 104 * Magnitude.one) 1

end Binary32

end SequenceDiagram
