import Mathlib.Tactic.Ring
import SequenceDiagram.Proofs.Binary32.Arithmetic

namespace SequenceDiagram

/-!
# Powers of two as bounds

A number is `Bounded k` if its absolute value is at most `2 ^ k`. Rounding never goes past a power of
two, so every operation has its bound whatever it rounds.

* `Binary32.Bounded.isFinite`: a bound below `2 ^ 128` makes a number finite.
* `Bounded.add`, `sub`, `half`, `mul` and `max` are the bounds of the operations.
* `Bounded.absorb`: a bound is kept by adding what is smaller by 25 powers, any number of times.
-/

/-! ### Rounding and powers of two -/

/-- What is at most a number that fits is not rounded past it. -/
theorem roundBits_le {p n num den : Nat} (hp : 0 < p) (hden : 0 < den) (hn : FewBits p n)
    (h : num ≤ n * den) : roundBits p num den ≤ n := by
  calc roundBits p num den ≤ roundBits p (n * den) den := roundBits_mono hp h den
    _ = roundBits p n 1 := roundBits_mul_self p n hden
    _ = n := roundBits_one hn

/-- A power of two has a single significant bit. -/
theorem fewBits_two_pow {p : Nat} (hp : 0 < p) (k : Nat) : FewBits p (2 ^ k) :=
  fewBits_of_dvd (s := k) (Nat.dvd_refl _) (Nat.pow_lt_pow_right (by omega) (by omega))

/-- A number that fills its bits is rounded in the same place after a shift. -/
theorem roundBits_two_pow_mul {p n : Nat} (k : Nat) (h : p ≤ n.log2 + 1) (hn : n ≠ 0) :
    roundBits p (2 ^ k * n) 1 = 2 ^ k * roundBits p n 1 := by
  have hlog : (2 ^ k * n).log2 = k + n.log2 := by
    rw [Nat.log2_eq_iff (Nat.mul_ne_zero (Nat.ne_of_gt (Nat.two_pow_pos k)) hn), Nat.pow_succ, Nat.pow_add]
    have hlow := Nat.mul_le_mul_left (2 ^ k) (Nat.log2_self_le hn)
    have hhigh := Nat.mul_lt_mul_of_pos_left (Nat.lt_log2_self (n := n)) (Nat.two_pow_pos k)
    rw [Nat.pow_succ] at hhigh
    exact ⟨hlow, by rwa [Nat.mul_assoc]⟩
  have hstep : k + n.log2 + 1 - p = (n.log2 + 1 - p) + k := by omega
  rw [roundBits_eq, roundBits_eq, Nat.div_one, Nat.div_one, hlog, hstep, Nat.one_mul, Nat.one_mul]
  simp only [Nat.pow_eq]
  rw [Nat.pow_add, Nat.mul_comm (2 ^ k) n, roundDiv_mul_right (Nat.two_pow_pos k),
    ← Nat.mul_assoc, Nat.mul_comm]

namespace Binary32

variable {x y : Binary32} {k l : Nat}

/-- The absolute value is at most `2 ^ k`. -/
def Bounded (k : Nat) (x : Binary32) : Prop :=
  ∃ i : Int, x.rank = some i ∧ i.natAbs ≤ 2 ^ k * Magnitude.one

theorem fewBits_bound (k : Nat) : FewBits 24 (2 ^ k * Magnitude.one) := by
  rw [Magnitude.one, Nat.pow_eq, ← Nat.pow_add]
  exact fewBits_two_pow (by decide) (k + 149)

theorem bound_mono (h : k ≤ l) : 2 ^ k * Magnitude.one ≤ 2 ^ l * Magnitude.one :=
  Nat.mul_le_mul_right _ (Nat.pow_le_pow_right (by omega) h)

theorem one_pos : 0 < Magnitude.one := Nat.two_pow_pos 149

theorem natAbs_signed (negative : Bool) (m : Magnitude) :
    (signed negative m).natAbs = m.units := by
  cases negative <;> simp [signed]

/-- Rounding goes by the absolute value. -/
theorem natAbs_rounded (i : Int) : (rounded i).natAbs = clipped (roundBits 24 i.natAbs 1) := by
  unfold rounded
  split <;> simp

namespace Bounded

theorem mono (h : Bounded k x) (hkl : k ≤ l) : Bounded l x := by
  obtain ⟨i, hi, hle⟩ := h
  exact ⟨i, hi, Nat.le_trans hle (bound_mono hkl)⟩

/-- **A bound below `2 ^ 128` makes a number finite.** -/
theorem isFinite (h : Bounded k x) (hk : k < 128) : x.isFinite := by
  obtain ⟨i, hi, hle⟩ := h
  have hlimit : 2 ^ k * Magnitude.one < Magnitude.limit :=
    Nat.mul_lt_mul_of_pos_right (Nat.pow_lt_pow_right (by omega) hk) one_pos
  exact (isFinite_iff hi).mpr ⟨by omega, by omega⟩

/-- A bounded number has a sign and a magnitude. -/
theorem exists_finite (h : Bounded k x) (hk : k < 128) :
    ∃ s m, x = .finite s m ∧ m.units ≤ 2 ^ k * Magnitude.one := by
  have hfin := h.isFinite hk
  obtain ⟨i, hi, hle⟩ := h
  cases x with
  | nan => cases hfin
  | infinite s => cases hfin
  | finite s m =>
    have hi : signed s m = i := Option.some.inj hi
    exact ⟨s, m, rfl, by rwa [← hi, natAbs_signed] at hle⟩

/-- What lies between zero and a bounded number is bounded. -/
theorem of_le (hx : 0 ≤ x) (h : x ≤ y) (hy : Bounded k y) : Bounded k x := by
  obtain ⟨m, hm⟩ := nonneg_iff.mp hx
  obtain ⟨n, hn⟩ := nonneg_iff.mp (nonneg_of_le hx h)
  obtain ⟨i, hi, hle⟩ := hy
  rw [hn, Option.some.injEq] at hi
  have hmn := (natCast_le_iff hm hn).mp h
  exact ⟨m, hm, by omega⟩

protected theorem zero : Bounded k 0 := ⟨0, rank_zero, Nat.zero_le _⟩

/-! ### What is rounded -/

/-- A quotient is rounded to at most the power of two that bounds it. -/
theorem ofRatio {num den : Nat} (negative : Bool) (hden : 0 < den)
    (h : num ≤ 2 ^ k * Magnitude.one * den) : Bounded k (Binary32.ofRatio negative num den) := by
  have hround := roundBits_le (p := 24) (by decide) hden (fewBits_bound k) h
  have hclip : clipped (roundBits 24 num den) ≤ roundBits 24 num den := Nat.min_le_left _ _
  refine ⟨_, rank_ofRatio negative num den, ?_⟩
  cases negative
  · exact Nat.le_trans hclip hround
  · show (-(clipped _ : Int)).natAbs ≤ _
    rw [Int.natAbs_neg, Int.natAbs_natCast]
    exact Nat.le_trans hclip hround

theorem ofUnits {units : Int} (zeroNegative : Bool) (h : units.natAbs ≤ 2 ^ k * Magnitude.one) :
    Bounded k (Binary32.ofUnits zeroNegative units) := by
  unfold Binary32.ofUnits
  split
  · exact ofRatio zeroNegative Nat.one_pos (Nat.zero_le _)
  · exact ofRatio _ Nat.one_pos (by rwa [Nat.mul_one])

/-- A natural number is at most itself. -/
theorem ofNat {n : Nat} (h : n ≤ 2 ^ k) : Bounded k (.ofNat n) :=
  ofRatio false Nat.one_pos (by rw [Nat.mul_one]; exact Nat.mul_le_mul_right _ h)

/-! ### Operations -/

protected theorem neg (h : Bounded k x) : Bounded k (-x) := by
  obtain ⟨i, hi, hle⟩ := h
  refine ⟨-i, ?_, by rwa [Int.natAbs_neg]⟩
  rw [rank_neg, hi]
  rfl

protected theorem abs (h : Bounded k x) : Bounded k x.abs := by
  obtain ⟨i, hi, hle⟩ := h
  exact ⟨i.natAbs, rank_abs hi, by rwa [Int.natAbs_natCast]⟩

protected theorem max (hx : Bounded k x) (hy : Bounded k y) : Bounded k (max x y) := by
  rcases max_eq_or x y with h | h
  · rwa [h]
  · rwa [h]

/-- A sum is bounded by twice the bound of its terms. -/
protected theorem add (hx : Bounded k x) (hy : Bounded k y) (hk : k < 128) :
    Bounded (k + 1) (x + y) := by
  obtain ⟨s, a, rfl, ha⟩ := hx.exists_finite hk
  obtain ⟨t, b, rfl, hb⟩ := hy.exists_finite hk
  refine ofUnits _ ?_
  calc (signed s a + signed t b).natAbs ≤ (signed s a).natAbs + (signed t b).natAbs :=
        Int.natAbs_add_le _ _
    _ = a.units + b.units := by rw [natAbs_signed, natAbs_signed]
    _ ≤ 2 ^ k * Magnitude.one + 2 ^ k * Magnitude.one := Nat.add_le_add ha hb
    _ = 2 ^ (k + 1) * Magnitude.one := by rw [Nat.pow_succ, Nat.mul_two, Nat.add_mul]

protected theorem sub (hx : Bounded k x) (hy : Bounded k y) (hk : k < 128) :
    Bounded (k + 1) (x - y) := hx.add hy.neg hk

protected theorem half (h : Bounded k x) (hk : k < 128) : Bounded k x.half := by
  obtain ⟨s, m, rfl, hm⟩ := h.exists_finite hk
  exact ofRatio s Nat.two_pos (by omega)

/-- The exponents of a product add up. -/
protected theorem mul (hx : Bounded k x) (hy : Bounded l y) (h : k + l < 128) :
    Bounded (k + l) (x * y) := by
  obtain ⟨s, a, rfl, ha⟩ := hx.exists_finite (by omega)
  obtain ⟨t, b, rfl, hb⟩ := hy.exists_finite (by omega)
  refine ofRatio (s != t) one_pos ?_
  calc a.units * b.units ≤ 2 ^ k * Magnitude.one * (2 ^ l * Magnitude.one) := Nat.mul_le_mul ha hb
    _ = 2 ^ (k + l) * Magnitude.one * Magnitude.one := by
        rw [Nat.pow_add]
        ac_rfl

/-- **A bound absorbs what is much smaller.** The sum is rounded down to the bound again, however
    often something is added. -/
theorem absorb (hx : Bounded (k + 25) x) (hy : Bounded k y) (hk : k + 25 < 128) :
    Bounded (k + 25) (x + y) := by
  obtain ⟨s, a, rfl, ha⟩ := hx.exists_finite hk
  obtain ⟨t, b, rfl, hb⟩ := hy.exists_finite (by omega)
  refine ⟨_, rank_ofUnits _ _, ?_⟩
  -- the largest sum is a power of two and a bit that is 25 places lower, which is rounded away
  have hbits : roundBits 24 (2 ^ 25 + 1) 1 = 2 ^ 25 := by decide +kernel
  have hlog : 24 ≤ (2 ^ 25 + 1).log2 + 1 := by decide +kernel
  have hsum : (signed s a + signed t b).natAbs ≤ 2 ^ (k + 149) * (2 ^ 25 + 1) := by
    calc (signed s a + signed t b).natAbs ≤ (signed s a).natAbs + (signed t b).natAbs :=
          Int.natAbs_add_le _ _
      _ = a.units + b.units := by rw [natAbs_signed, natAbs_signed]
      _ ≤ 2 ^ (k + 25) * Magnitude.one + 2 ^ k * Magnitude.one := Nat.add_le_add ha hb
      _ = 2 ^ (k + 149) * (2 ^ 25 + 1) := by
          rw [Magnitude.one, Nat.pow_eq, Nat.pow_add 2 k 25, Nat.pow_add 2 k 149]
          ring
  have hround : roundBits 24 (signed s a + signed t b).natAbs 1 ≤ 2 ^ (k + 25) * Magnitude.one := by
    calc roundBits 24 (signed s a + signed t b).natAbs 1
        ≤ roundBits 24 (2 ^ (k + 149) * (2 ^ 25 + 1)) 1 := roundBits_mono (by decide) hsum 1
      _ = 2 ^ (k + 149) * 2 ^ 25 := by rw [roundBits_two_pow_mul _ hlog (by decide), hbits]
      _ = 2 ^ (k + 25) * Magnitude.one := by
          rw [Magnitude.one, Nat.pow_eq, ← Nat.pow_add, ← Nat.pow_add]
  rw [natAbs_rounded]
  exact Nat.le_trans (Nat.min_le_left _ _) hround

end Bounded

end Binary32

end SequenceDiagram
