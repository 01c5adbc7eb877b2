import SequenceDiagram.Proofs.Binary32.Arithmetic

namespace SequenceDiagram

/-!
# How precise binary32 numbers are

A finite result differs from the exact one by at most its own size divided by `2 ^ 24`.

* `Binary32.add_error` bounds the error of a sum of numbers that are not negative, in units, and
  `add_le_error` holds even if the sum overflows.
* `Binary32.half_error` and `ofNat_mul_le` are the bounds for halves and for multiples.
* `Binary32.lt_add_of_lt_mul` says when what is added to a number is not lost.
* `Binary32.sub_error` and `abs_sub_error` are the bounds for differences and for distances;
  `isFinite_sub` says that what is left of a finite number is finite.
* `Binary32.sub_neg_iff`: the sign of a rounded difference is that of the exact one.
-/

namespace Binary32

variable {x y : Binary32}

/-- A number in units of the least positive one; an infinity counts as `2 ^ 128`. -/
def units (x : Binary32) : Int := x.rank.getD 0

theorem units_eq {i : Int} (h : x.rank = some i) : x.units = i := by
  rw [units, h, Option.getD_some]

/-- A rank that is finite was not clipped. -/
theorem clipped_eq {n : Nat} (h : clipped n < Magnitude.limit) : clipped n = n := by
  unfold clipped at *
  omega

/-- A finite sum of numbers that are not negative is off by at most its size over `2 ^ 24`. -/
theorem add_error {m n : Nat} (hm : x.rank = some (m : Int)) (hn : y.rank = some (n : Int))
    (hfin : (x + y).isFinite) : ∃ k : Nat, (x + y).rank = some (k : Int) ∧
      Nat.pow 2 24 * (m + n) ≤ Nat.pow 2 24 * k + (m + n) ∧
      Nat.pow 2 24 * k ≤ Nat.pow 2 24 * (m + n) + (m + n) := by
  have hx : 0 ≤ x := nonneg_iff.mpr ⟨m, hm⟩
  have hy : 0 ≤ y := nonneg_iff.mpr ⟨n, hn⟩
  have hxlt := (isFinite_iff hm).mp (isFinite_of_le hx (Binary32.le_add_right hx hy) hfin)
  have hylt := (isFinite_iff hn).mp (isFinite_of_le hy (Binary32.le_add_left hx hy) hfin)
  have hsum : (x + y).rank = some (clipped (roundBits 24 (m + n) 1) : Int) := by
    rw [rank_add (ne_nan_of_isFinite hfin) hm hn, sumRank, if_neg (by omega), if_neg (by omega),
      ← Int.natCast_add, rounded_natCast]
  have hlt := (isFinite_iff hsum).mp hfin
  rw [clipped_eq (by omega)] at hsum
  exact ⟨_, hsum, roundBits_error (by decide) (m + n)⟩

/-- A half has at least half of the units, rounded down, up to their number over `2 ^ 24`. -/
theorem half_error {n : Nat} (hn : x.rank = some (n : Int)) (hx : x.isFinite) :
    ∃ k : Nat, x.half.rank = some (k : Int) ∧
      Nat.pow 2 24 * (n / 2) ≤ Nat.pow 2 24 * k + n / 2 := by
  refine ⟨_, rank_half hn hx, ?_⟩
  -- the half is at least that of the even number below, which is exact before it is rounded
  have heven : n / 2 * 2 ≤ n := Nat.div_mul_le_self n 2
  have hmono := roundBits_mono (p := 24) (by decide) heven 2
  rw [roundBits_mul_self 24 (n / 2) (by decide)] at hmono
  have herror := (roundBits_error (p := 24) (by decide) (n / 2)).1
  by_cases hclip : roundBits 24 n 2 ≤ Magnitude.limit
  · have heq : clipped (roundBits 24 n 2) = roundBits 24 n 2 := Nat.min_eq_left hclip
    rw [heq]
    exact Nat.le_trans herror (Nat.add_le_add_right (Nat.mul_le_mul_left _ hmono) _)
  · -- a half that is clipped is larger than any finite number
    have heq : clipped (roundBits 24 n 2) = Magnitude.limit := Nat.min_eq_right (by omega)
    have hlt := (isFinite_iff hn).mp hx
    have hle : n / 2 ≤ clipped (roundBits 24 n 2) := by omega
    exact Nat.le_trans (Nat.mul_le_mul_left _ hle) (Nat.le_add_right _ _)

/-- A multiple is too large by at most its size over `2 ^ 24`. -/
theorem ofNat_mul_le {k n : Nat} (hk : (ofNat k).rank = some ((k * Magnitude.one : Nat) : Int))
    (hkfin : (ofNat k).isFinite) (hn : x.rank = some (n : Int)) (hx : x.isFinite) :
    ∃ r : Nat, (ofNat k * x).rank = some (r : Int) ∧
      Nat.pow 2 24 * r ≤ Nat.pow 2 24 * (k * n) + k * n := by
  refine ⟨_, rank_mul hk hn hkfin hx, ?_⟩
  have hone : 0 < Magnitude.one := by decide +kernel
  -- the product of the counts has one factor too many of a unit, which cancels
  have hunits : k * Magnitude.one * n = k * n * Magnitude.one := by
    rw [Nat.mul_assoc, Nat.mul_comm Magnitude.one, Nat.mul_assoc]
  rw [hunits, roundBits_mul_self 24 (k * n) hone]
  have hclip : clipped (roundBits 24 (k * n) 1) ≤ roundBits 24 (k * n) 1 := Nat.min_le_left _ _
  exact Nat.le_trans (Nat.mul_le_mul_left _ hclip) (roundBits_error (by decide) (k * n)).2

/-- The count of units of a finite number that is not negative has few bits. -/
theorem fewBits_of_rank {n : Nat} (hn : x.rank = some (n : Int)) (hx : x.isFinite) :
    FewBits 24 n := by
  cases x with
  | nan => cases hx
  | infinite s => cases hx
  | finite s m =>
    obtain ⟨rfl, _⟩ := units_of_rank hn
    exact m.fewBits

/-- One changes nothing in a product. -/
theorem rank_one_mul {n : Nat} (hn : x.rank = some (n : Int)) (hx : x.isFinite) :
    (1 * x).rank = some (n : Int) := by
  have hone : (1 : Binary32).rank = some ((Magnitude.one : Nat) : Int) := by decide +kernel
  have hpos : 0 < Magnitude.one := by decide +kernel
  have hlt := (isFinite_iff hn).mp hx
  rw [rank_mul hone hn (by decide +kernel) hx, Nat.mul_comm, roundBits_mul_self 24 n hpos,
    roundBits_one (fewBits_of_rank hn hx)]
  unfold clipped
  congr 1
  omega

/-- **A sum is larger than its first term** unless that is `2 ^ 24` times as large as the second. -/
theorem lt_add_of_lt_mul (hx : 0 ≤ x) (hfin : x.isFinite) (hy : 0 ≤ y) (h : x < 16777216 * y) :
    x < x + y := by
  obtain ⟨m, hm⟩ := nonneg_iff.mp hx
  obtain ⟨n, hn⟩ := nonneg_iff.mp hy
  have hmlt := (isFinite_iff hm).mp hfin
  have hsum := add_ne_nan_of_nonneg hx hy
  by_cases hyfin : y.isFinite
  · have hylt := (isFinite_iff hn).mp hyfin
    -- the multiple is exact, unless it overflows
    have hprod : (16777216 * y).rank = some (clipped (Nat.pow 2 24 * n) : Int) := by
      have hfactor : (16777216 : Binary32).rank =
          some ((Nat.pow 2 24 * Magnitude.one : Nat) : Int) := by decide +kernel
      have hone : 0 < Magnitude.one := by decide +kernel
      rw [rank_mul hfactor hn (by decide +kernel) hyfin, Nat.mul_right_comm,
        roundBits_mul_self 24 _ hone,
        roundBits_one (fewBits_two_pow_mul 24 (fewBits_of_rank hn hyfin))]
    obtain ⟨i, j, hi, hj, hij⟩ := lt_iff.mp h
    rw [hm, Option.some.injEq] at hi
    rw [hprod, Option.some.injEq] at hj
    have hclip : clipped (Nat.pow 2 24 * n) ≤ Nat.pow 2 24 * n := Nat.min_le_left _ _
    have hround := lt_roundBits_add (p := 24) (m := m) (n := n) (by decide) (by omega)
    refine lt_iff.mpr ⟨m, _, hm, rank_add hsum hm hn, ?_⟩
    rw [sumRank, if_neg (by omega), if_neg (by omega), ← Int.natCast_add, rounded_natCast]
    unfold clipped
    omega
  · cases y with
    | nan => cases hn
    | finite t b => exact absurd rfl hyfin
    | infinite t =>
      -- an infinite sum is larger than every finite number
      rw [infinite_nonneg hy] at hsum hn ⊢
      refine lt_iff.mpr ⟨m, _, hm, rank_add hsum hm rfl, ?_⟩
      rw [sumRank, if_pos (.inr rfl)]
      exact hmlt.2

/-! ### Differences -/

theorem rank_sub {i j : Int} (hi : x.rank = some i) (hj : y.rank = some j) (hx : x.isFinite)
    (hy : y.isFinite) : (x - y).rank = some (rounded (i - j)) := by
  have hneg : (-y).rank = some (-j) := by
    rw [rank_neg, hj]
    rfl
  have hilt := (isFinite_iff hi).mp hx
  have hjlt := (isFinite_iff hj).mp hy
  show (x + -y).rank = _
  rw [rank_add (add_ne_nan_of_isFinite hx (neg_ne_nan (ne_nan_of_isFinite hy))) hi hneg, sumRank,
    if_neg (by omega), if_neg (by omega)]
  rfl

/-- Rounding takes no exact result to the other side of zero, nor to zero itself. -/
theorem rounded_neg_iff (i : Int) : rounded i < 0 ↔ i < 0 := by
  unfold rounded
  by_cases h : i < 0
  · have hunits : 1 ≤ i.natAbs := by omega
    have hbits := roundBits_mono (p := 24) (by decide) hunits 1
    rw [roundBits_one (show FewBits 24 1 by decide)] at hbits
    have hpos : clipped 1 = 1 := by decide +kernel
    have := clipped_mono hbits
    rw [if_pos h]
    omega
  · rw [if_neg h]
    omega

/-- The difference of two numbers is below zero exactly if the first is the smaller one. -/
theorem sub_neg_iff (hx : x.isFinite) (hy : y.isFinite) : x - y < 0 ↔ x < y := by
  obtain ⟨i, hi⟩ := exists_rank (ne_nan_of_isFinite hx)
  obtain ⟨j, hj⟩ := exists_rank (ne_nan_of_isFinite hy)
  rw [lt_iff_of_rank (rank_sub hi hj hx hy) rank_zero, lt_iff_of_rank hi hj, rounded_neg_iff]
  omega

/-- Rounding an exact result is off by at most its size over `2 ^ 24`, unless it overflows. -/
theorem rounded_error {i : Int} (h : i.natAbs ≤ Magnitude.limit) :
    Nat.pow 2 24 * i ≤ Nat.pow 2 24 * rounded i + i.natAbs ∧
      Nat.pow 2 24 * rounded i ≤ Nat.pow 2 24 * i + i.natAbs := by
  have hfits : FewBits 24 Magnitude.limit := by decide +kernel
  have hlimit := roundBits_mono (p := 24) (by decide) h 1
  rw [roundBits_one hfits] at hlimit
  have hclip : clipped (roundBits 24 i.natAbs 1) = roundBits 24 i.natAbs 1 :=
    Nat.min_eq_left hlimit
  obtain ⟨hlow, hhigh⟩ := roundBits_error (p := 24) (by decide) i.natAbs
  unfold rounded
  rw [hclip]
  simp only [Nat.pow_eq] at hlow hhigh ⊢
  split <;> omega

/-- A sum is too large by at most its size over `2 ^ 24`, even if it overflows. -/
theorem add_le_error {m n : Nat} (hm : x.rank = some (m : Int)) (hn : y.rank = some (n : Int)) :
    ∃ k : Nat, (x + y).rank = some (k : Int) ∧
      Nat.pow 2 24 * k ≤ Nat.pow 2 24 * (m + n) + (m + n) := by
  have hsum := rank_add (add_ne_nan_of_nonneg (nonneg_iff.mpr ⟨m, hm⟩) (nonneg_iff.mpr ⟨n, hn⟩))
    hm hn
  have herror := (roundBits_error (p := 24) (by decide) (m + n)).2
  unfold sumRank at hsum
  split at hsum
  · refine ⟨_, hsum, ?_⟩
    simp only [Nat.pow_eq] at herror ⊢
    omega
  · rw [if_neg (by omega), ← Int.natCast_add, rounded_natCast] at hsum
    have hclip : clipped (roundBits 24 (m + n) 1) ≤ roundBits 24 (m + n) 1 := Nat.min_le_left _ _
    exact ⟨_, hsum, Nat.le_trans (Nat.mul_le_mul_left _ hclip) herror⟩

/-- A difference of finite numbers that are not negative is finite, and off by at most the size of
    both over `2 ^ 24`. -/
theorem sub_error {m n : Nat} (hm : x.rank = some (m : Int)) (hn : y.rank = some (n : Int))
    (hx : x.isFinite) (hy : y.isFinite) : ∃ i : Int, (x - y).rank = some i ∧ (x - y).isFinite ∧
      -n ≤ i ∧ i ≤ m ∧ Nat.pow 2 24 * ((m : Int) - n) ≤ Nat.pow 2 24 * i + (m + n) := by
  have hrank := rank_sub hm hn hx hy
  have hmlt := (isFinite_iff hm).mp hx
  have hnlt := (isFinite_iff hn).mp hy
  -- rounding leaves both terms alone, and so the difference stays between them
  have hlow := rounded_mono (show -(n : Int) ≤ (m : Int) - n by omega)
  have hhigh := rounded_mono (show (m : Int) - n ≤ m by omega)
  have hself : rounded m = m := rounded_rank hm hx
  have hneg : rounded (-(n : Int)) = -n := by
    have h : (-y).rank = some (-(n : Int)) := by
      rw [rank_neg, hn]
      rfl
    exact rounded_rank h ((isFinite_iff h).mpr ⟨by omega, by omega⟩)
  have herror := (rounded_error (i := (m : Int) - n) (by omega)).1
  refine ⟨_, hrank, (isFinite_iff hrank).mpr ⟨by omega, by omega⟩, by omega, by omega, ?_⟩
  simp only [Nat.pow_eq] at herror ⊢
  omega

/-- What is left of a finite number is finite. -/
theorem isFinite_sub (hy : 0 ≤ y) (h : y ≤ x) (hx : x.isFinite) : (x - y).isFinite := by
  obtain ⟨m, hm⟩ := nonneg_iff.mp (nonneg_of_le hy h)
  obtain ⟨n, hn⟩ := nonneg_iff.mp hy
  obtain ⟨i, -, hfin, -⟩ := sub_error hm hn hx (isFinite_of_le hy h hx)
  exact hfin

/-- A distance is too small by at most the size of the larger term over `2 ^ 24`. -/
theorem abs_sub_error {i : Int} {k : Nat} (hi : x.rank = some i) (hk : y.rank = some (k : Int))
    (hx : x.isFinite) : ∃ w : Nat, (x - y).abs.rank = some (w : Int) ∧
      Nat.pow 2 24 * (i - k) ≤ Nat.pow 2 24 * w + i.natAbs := by
  have hilt := (isFinite_iff hi).mp hx
  have hbound := rank_bounds hk
  by_cases hy : y.isFinite
  · refine ⟨_, rank_abs (rank_sub hi hk hx hy), ?_⟩
    by_cases hneg : i - k < 0
    · simp only [Nat.pow_eq]
      omega
    · have herror := (rounded_error (i := i - k) (by omega)).1
      simp only [Nat.pow_eq] at herror ⊢
      omega
  · -- the distance to an infinity is infinite
    cases y with
    | nan => cases hk
    | finite t b => exact absurd rfl hy
    | infinite t =>
      cases x with
      | nan => cases hx
      | infinite s => cases hx
      | finite s a =>
        refine ⟨Magnitude.limit, rfl, ?_⟩
        simp only [Nat.pow_eq]
        omega

end Binary32

end SequenceDiagram
