import SequenceDiagram.Binary32.Basic
import SequenceDiagram.Proofs.Binary32.Rounding

namespace SequenceDiagram

/-!
# The order of binary32 numbers

* `Binary32.le_iff` reduces every comparison to one of ranks; only not-a-number has none.
* `Binary32.rounded` is the rounding of an exact result, on ranks: `rank_ofUnits`. It is monotone
  and leaves alone what fits.
* `Binary32.le_max_left`, `le_max_right` and `max_le` say what `max` chooses.
-/

namespace Binary32

/-! ### Rounding -/

/-- The rank of a count of units that is rounded without a sign. -/
def clipped (units : Nat) : Nat := min units Magnitude.limit

/-- The rank of an exact count of units after one rounding. -/
def rounded (units : Int) : Int :=
  if units < 0 then -(clipped (roundBits 24 units.natAbs 1) : Int)
  else clipped (roundBits 24 units.natAbs 1)

theorem clipped_mono {m n : Nat} (h : m ≤ n) : clipped m ≤ clipped n := by
  unfold clipped
  omega

theorem rounded_mono {i j : Int} (h : i ≤ j) : rounded i ≤ rounded j := by
  unfold rounded
  by_cases hi : i < 0
  · rw [if_pos hi]
    by_cases hj : j < 0
    · -- below zero the larger number has fewer units
      rw [if_pos hj]
      have habs : j.natAbs ≤ i.natAbs := by omega
      have := clipped_mono (roundBits_mono (p := 24) (by decide) habs 1)
      omega
    · rw [if_neg hj]
      omega
  · have hj : ¬ j < 0 := by omega
    have habs : i.natAbs ≤ j.natAbs := by omega
    have := clipped_mono (roundBits_mono (p := 24) (by decide) habs 1)
    rw [if_neg hi, if_neg hj]
    omega

theorem rounded_natCast (n : Nat) : rounded n = clipped (roundBits 24 n 1) := by
  unfold rounded
  rw [if_neg (by omega), Int.natAbs_natCast]

/-- What fits is left as it is. -/
theorem rounded_signed (negative : Bool) (m : Magnitude) :
    rounded (signed negative m) = signed negative m := by
  have hclip : clipped (roundBits 24 m.units 1) = m.units := by
    rw [roundBits_one m.fewBits]
    exact Nat.min_eq_left (Nat.le_of_lt m.lt_limit)
  have habs : (signed negative m).natAbs = m.units := by
    cases negative <;> simp [signed]
  unfold rounded
  rw [habs, hclip]
  unfold signed
  cases negative
  · exact if_neg (Int.not_lt.mpr (Int.natCast_nonneg m.units))
  · -- the negative zero has no units, so its rank is that of zero
    simp only [if_true]
    split <;> omega

theorem rank_ofRatio (negative : Bool) (num den : Nat) : (ofRatio negative num den).rank =
    some (if negative then -(clipped (roundBits 24 num den) : Int)
      else clipped (roundBits 24 num den)) := by
  unfold ofRatio clipped
  by_cases h : roundBits 24 num den < Magnitude.limit
  · rw [dif_pos h, Nat.min_eq_left (Nat.le_of_lt h)]
    rfl
  · rw [dif_neg h, Nat.min_eq_right (Nat.le_of_not_lt h)]
    rfl

theorem rank_ofUnits (zeroNegative : Bool) (units : Int) :
    (ofUnits zeroNegative units).rank = some (rounded units) := by
  unfold ofUnits rounded
  by_cases hzero : units = 0
  · have hclip : clipped (roundBits 24 0 1) = 0 := by
      rw [roundBits_one (fewBits_zero 24)]
      exact Nat.zero_min _
    rw [if_pos hzero, rank_ofRatio, hzero, Int.natAbs_zero, hclip]
    cases zeroNegative <;> rfl
  · rw [if_neg hzero, rank_ofRatio]
    by_cases hneg : units < 0 <;> simp [hneg]

/-! ### Comparisons -/

variable {x y z x' y' : Binary32}

theorem le_iff : x ≤ y ↔ ∃ i j, x.rank = some i ∧ y.rank = some j ∧ i ≤ j := by
  show x.le y = true ↔ _
  unfold le
  constructor
  · intro h
    split at h
    · next i j hi hj => exact ⟨i, j, hi, hj, of_decide_eq_true h⟩
    · cases h
  · rintro ⟨i, j, hi, hj, hij⟩
    rw [hi, hj]
    exact decide_eq_true hij

theorem lt_iff : x < y ↔ ∃ i j, x.rank = some i ∧ y.rank = some j ∧ i < j := by
  show x.lt y = true ↔ _
  unfold lt
  constructor
  · intro h
    split at h
    · next i j hi hj => exact ⟨i, j, hi, hj, of_decide_eq_true h⟩
    · cases h
  · rintro ⟨i, j, hi, hj, hij⟩
    rw [hi, hj]
    exact decide_eq_true hij

theorem lt_iff_of_rank {i j : Int} (hi : x.rank = some i) (hj : y.rank = some j) :
    x < y ↔ i < j := by
  rw [lt_iff]
  constructor
  · rintro ⟨i', j', hi', hj', h⟩
    rw [hi, Option.some.injEq] at hi'
    rw [hj, Option.some.injEq] at hj'
    rwa [hi', hj']
  · exact fun h => ⟨i, j, hi, hj, h⟩

theorem limit_pos : (0 : Int) < Magnitude.limit := by decide +kernel

/-- A finite rank is strictly between those of the infinities. -/
theorem signed_lt_limit (negative : Bool) (m : Magnitude) :
    -(Magnitude.limit : Int) < signed negative m ∧ signed negative m < Magnitude.limit := by
  have := m.lt_limit
  unfold signed
  cases negative <;> simp <;> omega

/-- Every rank is between those of the infinities. -/
theorem rank_bounds {i : Int} (h : x.rank = some i) :
    -(Magnitude.limit : Int) ≤ i ∧ i ≤ Magnitude.limit := by
  cases x with
  | nan => cases h
  | infinite s =>
    cases h
    cases s <;> simp
  | finite s m =>
    cases h
    have hm := signed_lt_limit s m
    exact ⟨Int.le_of_lt hm.1, Int.le_of_lt hm.2⟩

/-- Only not-a-number has no rank. -/
theorem exists_rank (h : x ≠ nan) : ∃ i, x.rank = some i := by
  cases x with
  | nan => exact absurd rfl h
  | infinite s => exact ⟨_, rfl⟩
  | finite s m => exact ⟨_, rfl⟩

theorem ne_nan_of_rank {i : Int} (h : x.rank = some i) : x ≠ nan := by
  rintro rfl
  cases h

/-- A number is finite exactly if its rank is strictly between those of the infinities. -/
theorem isFinite_iff {i : Int} (h : x.rank = some i) :
    x.isFinite ↔ -(Magnitude.limit : Int) < i ∧ i < Magnitude.limit := by
  cases x with
  | nan => cases h
  | infinite s =>
    cases h
    refine iff_of_false Bool.false_ne_true ?_
    cases s <;> simp
  | finite s m =>
    cases h
    exact iff_of_true rfl (signed_lt_limit s m)

/-- Rounding leaves the rank of a finite number alone. -/
theorem rounded_rank {i : Int} (h : x.rank = some i) (hx : x.isFinite) : rounded i = i := by
  cases x with
  | nan => cases hx
  | infinite s => cases hx
  | finite s m =>
    cases h
    exact rounded_signed s m

theorem ne_nan_of_isFinite (h : x.isFinite) : x ≠ nan := by
  rintro rfl
  cases h

theorem ne_nan_of_le_left (h : x ≤ y) : x ≠ nan := by
  obtain ⟨i, j, hi, _⟩ := le_iff.mp h
  exact ne_nan_of_rank hi

theorem ne_nan_of_le_right (h : x ≤ y) : y ≠ nan := by
  obtain ⟨i, j, _, hj, _⟩ := le_iff.mp h
  exact ne_nan_of_rank hj

protected theorem le_refl (h : x ≠ nan) : x ≤ x := by
  obtain ⟨i, hi⟩ := exists_rank h
  exact le_iff.mpr ⟨i, i, hi, hi, Int.le_refl i⟩

protected theorem le_trans (h : x ≤ y) (h' : y ≤ z) : x ≤ z := by
  obtain ⟨i, j, hi, hj, hij⟩ := le_iff.mp h
  obtain ⟨j', k, hj', hk, hjk⟩ := le_iff.mp h'
  rw [hj] at hj'
  cases hj'
  exact le_iff.mpr ⟨i, k, hi, hk, Int.le_trans hij hjk⟩

instance : @Trans Binary32 Binary32 Binary32 (· ≤ ·) (· ≤ ·) (· ≤ ·) := ⟨Binary32.le_trans⟩

protected theorem lt_of_lt_of_le (h : x < y) (h' : y ≤ z) : x < z := by
  obtain ⟨i, j, hi, hj, hij⟩ := lt_iff.mp h
  obtain ⟨j', k, hj', hk, hjk⟩ := le_iff.mp h'
  rw [hj] at hj'
  cases hj'
  exact lt_iff.mpr ⟨i, k, hi, hk, Int.lt_of_lt_of_le hij hjk⟩

protected theorem le_of_lt (h : x < y) : x ≤ y := by
  obtain ⟨i, j, hi, hj, hij⟩ := lt_iff.mp h
  exact le_iff.mpr ⟨i, j, hi, hj, Int.le_of_lt hij⟩

/-- Two numbers can always be compared. -/
protected theorem not_lt (hx : x ≠ nan) (hy : y ≠ nan) : ¬ x < y ↔ y ≤ x := by
  obtain ⟨i, hi⟩ := exists_rank hx
  obtain ⟨j, hj⟩ := exists_rank hy
  rw [lt_iff, le_iff]
  simp only [hi, hj, Option.some.injEq]
  constructor
  · intro h
    refine ⟨j, i, rfl, rfl, ?_⟩
    exact Int.not_lt.mp fun hij => h ⟨i, j, rfl, rfl, hij⟩
  · rintro ⟨_, _, rfl, rfl, hji⟩ ⟨_, _, rfl, rfl, hij⟩
    omega

/-- Not-a-number is not larger than anything. -/
theorem not_lt_nan : ¬ x < nan := by
  intro h
  obtain ⟨i, j, _, hj, _⟩ := lt_iff.mp h
  cases hj

theorem rank_zero : (0 : Binary32).rank = some 0 := by
  show (ofRatio false (0 * Magnitude.one) 1).rank = some 0
  rw [Nat.zero_mul, rank_ofRatio, roundBits_one (fewBits_zero 24)]
  rfl

/-- A number that is not negative counts a natural number of units. -/
theorem nonneg_iff : 0 ≤ x ↔ ∃ n : Nat, x.rank = some (n : Int) := by
  rw [le_iff]
  constructor
  · rintro ⟨i, j, hi, hj, hij⟩
    rw [rank_zero] at hi
    cases hi
    obtain ⟨n, rfl⟩ := Int.eq_ofNat_of_zero_le hij
    exact ⟨n, hj⟩
  · rintro ⟨n, hn⟩
    exact ⟨0, n, rank_zero, hn, Int.natCast_nonneg n⟩

/-- An infinity that is not negative is the positive one. -/
theorem infinite_nonneg {negative : Bool} (h : 0 ≤ infinite negative) : negative = false := by
  have hpos := limit_pos
  obtain ⟨n, hn⟩ := nonneg_iff.mp h
  cases negative with
  | false => rfl
  | true =>
    have hn' : -(Magnitude.limit : Int) = n := Option.some.inj hn
    omega

/-- Numbers that are not negative compare like their counts of units. -/
theorem natCast_le_iff {m n : Nat} (hm : x.rank = some (m : Int)) (hn : y.rank = some (n : Int)) :
    x ≤ y ↔ m ≤ n := by
  rw [le_iff]
  constructor
  · rintro ⟨i, j, hi, hj, hij⟩
    rw [hm] at hi
    rw [hn] at hj
    cases hi
    cases hj
    exact Int.ofNat_le.mp hij
  · intro h
    exact ⟨m, n, hm, hn, Int.ofNat_le.mpr h⟩

/-- What is at least a number that is not negative is not negative either. -/
theorem nonneg_of_le (hx : 0 ≤ x) (h : x ≤ y) : 0 ≤ y := Binary32.le_trans hx h

/-! ### The larger number -/

theorem max_eq_or (x y : Binary32) : max x y = x ∨ max x y = y := by
  show x.max y = x ∨ x.max y = y
  unfold Binary32.max
  split
  · exact .inr rfl
  · exact .inl rfl
  · split
    · exact .inr rfl
    · exact .inl rfl

protected theorem le_max_left (hx : x ≠ nan) (y : Binary32) : x ≤ max x y := by
  obtain ⟨i, hi⟩ := exists_rank hx
  show x ≤ x.max y
  unfold Binary32.max
  rw [hi]
  cases hy : y.rank with
  | none => exact Binary32.le_refl hx
  | some j =>
    by_cases hij : i < j
    · simp only [if_pos hij]
      exact le_iff.mpr ⟨i, j, hi, hy, Int.le_of_lt hij⟩
    · simp only [if_neg hij]
      exact Binary32.le_refl hx

protected theorem le_max_right (x : Binary32) (hy : y ≠ nan) : y ≤ max x y := by
  obtain ⟨j, hj⟩ := exists_rank hy
  show y ≤ x.max y
  unfold Binary32.max
  rw [hj]
  cases hx : x.rank with
  | none => exact Binary32.le_refl hy
  | some i =>
    by_cases hij : i < j
    · simp only [if_pos hij]
      exact Binary32.le_refl hy
    · simp only [if_neg hij]
      exact le_iff.mpr ⟨j, i, hj, hx, Int.not_lt.mp hij⟩

theorem max_nan_right (x : Binary32) : max x nan = x := by
  show x.max nan = x
  cases x <;> rfl

protected theorem max_le (hx : x ≤ z) (hy : y ≤ z) : max x y ≤ z := by
  rcases max_eq_or x y with h | h
  · rwa [h]
  · rwa [h]

end Binary32

end SequenceDiagram
