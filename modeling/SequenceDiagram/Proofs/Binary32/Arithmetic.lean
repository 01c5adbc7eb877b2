import SequenceDiagram.Proofs.Binary32.Order

namespace SequenceDiagram

/-!
# Monotone operations on binary32 numbers

Every operation rounds an exact result once, and rounding keeps the order. So each of them is
monotone as long as no side is not-a-number.

* `Binary32.sumRank` is the rank of a sum, infinities included: `rank_add`.
* `Binary32.add_le_add`, `sub_le_sub`, `half_le_half` and `mul_le_mul_left` are the results.
* `Binary32.neg_mul` and `abs_sub_comm` say what becomes of signs.
* `Binary32.add_ne_nan_of_nonneg` and `add_ne_nan_of_isFinite` say when a sum is a number.
-/

namespace Binary32

variable {x y z x' y' : Binary32}

/-! ### Sums -/

/-- The rank of a sum, from those of its terms. -/
def sumRank (i j : Int) : Int :=
  if i = Magnitude.limit ∨ j = Magnitude.limit then Magnitude.limit
  else if i = -Magnitude.limit ∨ j = -Magnitude.limit then -Magnitude.limit
  else rounded (i + j)

theorem rank_add {i j : Int} (h : x + y ≠ nan) (hi : x.rank = some i) (hj : y.rank = some j) :
    (x + y).rank = some (sumRank i j) := by
  have hpos := limit_pos
  unfold sumRank
  -- two infinities have a sum only if they agree; only two finite terms are rounded
  cases x with
  | nan => cases hi
  | infinite s =>
    cases hi
    cases y with
    | nan => cases hj
    | infinite t =>
      cases hj
      cases s <;> cases t
      · rfl
      · exact absurd rfl h
      · exact absurd rfl h
      · show some (-(Magnitude.limit : Int)) = _
        simp only [if_true, or_self]
        rw [if_neg (by omega)]
    | finite t b =>
      cases hj
      have hb := signed_lt_limit t b
      cases s
      · exact congrArg some (if_pos (.inl rfl)).symm
      · show some (-(Magnitude.limit : Int)) = _
        simp only [if_true, true_or]
        rw [if_neg (by omega)]
  | finite s a =>
    cases hi
    have ha := signed_lt_limit s a
    cases y with
    | nan => cases hj
    | infinite t =>
      cases hj
      cases t
      · exact congrArg some (if_pos (.inr rfl)).symm
      · show some (-(Magnitude.limit : Int)) = _
        simp only [if_true, or_true]
        rw [if_neg (by omega)]
    | finite t b =>
      cases hj
      have hb := signed_lt_limit t b
      rw [if_neg (by omega), if_neg (by omega)]
      exact rank_ofUnits _ _

theorem rounded_bounds (i : Int) :
    -(Magnitude.limit : Int) ≤ rounded i ∧ rounded i ≤ Magnitude.limit := by
  have hclip : clipped (roundBits 24 i.natAbs 1) ≤ Magnitude.limit := Nat.min_le_right _ _
  unfold rounded
  split <;> omega

theorem sumRank_mono {i j i' j' : Int} (hi : i ≤ i') (hj : j ≤ j')
    (hi' : i' ≤ Magnitude.limit) (hj' : j' ≤ Magnitude.limit)
    (hlow : -(Magnitude.limit : Int) ≤ i) (hlow' : -(Magnitude.limit : Int) ≤ j) :
    sumRank i j ≤ sumRank i' j' := by
  have hpos := limit_pos
  have hsum := rounded_mono (Int.add_le_add hi hj)
  have hbound := rounded_bounds (i + j)
  have hbound' := rounded_bounds (i' + j')
  -- a positive infinity outweighs everything, a negative one all that is left
  unfold sumRank
  repeat' split
  all_goals omega

/-- **Sums are monotone.** -/
protected theorem add_le_add (hx : x ≤ x') (hy : y ≤ y') (h : x + y ≠ nan) (h' : x' + y' ≠ nan) :
    x + y ≤ x' + y' := by
  obtain ⟨i, i', hi, hi', hle⟩ := le_iff.mp hx
  obtain ⟨j, j', hj, hj', hle'⟩ := le_iff.mp hy
  refine le_iff.mpr ⟨_, _, rank_add h hi hj, rank_add h' hi' hj', ?_⟩
  exact sumRank_mono hle hle' (rank_bounds hi').2 (rank_bounds hj').2 (rank_bounds hi).1
    (rank_bounds hj).1

/-- A finite term can be added to every number. -/
theorem add_ne_nan_of_isFinite (hx : x.isFinite) (hy : y ≠ nan) : x + y ≠ nan := by
  cases x with
  | nan => cases hx
  | infinite s => cases hx
  | finite s a =>
    cases y with
    | nan => exact absurd rfl hy
    | infinite t => exact Binary32.noConfusion
    | finite t b => exact ne_nan_of_rank (rank_ofUnits _ _)

/-- Terms that are not negative have a sum. -/
theorem add_ne_nan_of_nonneg (hx : 0 ≤ x) (hy : 0 ≤ y) : x + y ≠ nan := by
  cases x with
  | nan => exact absurd rfl (ne_nan_of_le_right hx)
  | finite s a => exact add_ne_nan_of_isFinite rfl (ne_nan_of_le_right hy)
  | infinite s =>
    cases y with
    | nan => exact absurd rfl (ne_nan_of_le_right hy)
    | finite t b => exact Binary32.noConfusion
    | infinite t =>
      -- neither of the infinities is negative, so they agree
      rw [infinite_nonneg hx, infinite_nonneg hy]
      exact Binary32.noConfusion

/-- Adding zero changes no rank. -/
theorem rank_add_zero {i : Int} (hi : x.rank = some i) : (x + 0).rank = some i := by
  have hpos := limit_pos
  have hnan : x + 0 ≠ nan := by
    cases x with
    | nan => cases hi
    | infinite s => exact Binary32.noConfusion
    | finite s a => exact add_ne_nan_of_isFinite rfl (ne_nan_of_rank rank_zero)
  rw [rank_add hnan hi rank_zero]
  unfold sumRank
  cases x with
  | nan => cases hi
  | infinite s =>
    cases hi
    cases s
    · exact congrArg some (if_pos (.inl rfl))
    · simp only [if_true, true_or]
      rw [if_neg (by omega)]
  | finite s a =>
    cases hi
    have ha := signed_lt_limit s a
    rw [if_neg (by omega), if_neg (by omega), Int.add_zero, rounded_signed]

/-- A term that is not negative does not make a sum smaller. -/
protected theorem le_add_right (hx : 0 ≤ x) (hy : 0 ≤ y) : x ≤ x + y := by
  -- the sum with zero has the same rank, and the term is at least zero
  obtain ⟨n, hi⟩ := nonneg_iff.mp hx
  have hxx := Binary32.le_refl (ne_nan_of_rank hi)
  have hzero : x ≤ x + 0 := (natCast_le_iff hi (rank_add_zero hi)).mpr (Nat.le_refl n)
  exact Binary32.le_trans hzero
    (Binary32.add_le_add hxx hy (ne_nan_of_rank (rank_add_zero hi)) (add_ne_nan_of_nonneg hx hy))

protected theorem add_nonneg (hx : 0 ≤ x) (hy : 0 ≤ y) : 0 ≤ x + y :=
  Binary32.le_trans hx (Binary32.le_add_right hx hy)

protected theorem add_comm (x y : Binary32) : x + y = y + x := by
  show x.add y = y.add x
  cases x with
  | nan => cases y <;> rfl
  | infinite s =>
    cases y with
    | nan => rfl
    | infinite t => cases s <;> cases t <;> rfl
    | finite t b => rfl
  | finite s a =>
    cases y with
    | nan => rfl
    | infinite t => rfl
    | finite t b =>
      show ofUnits _ _ = ofUnits _ _
      rw [Bool.and_comm, Int.add_comm]

protected theorem le_add_left (hx : 0 ≤ x) (hy : 0 ≤ y) : y ≤ x + y := by
  rw [Binary32.add_comm]
  exact Binary32.le_add_right hy hx

/-! ### Differences -/

theorem rank_neg (x : Binary32) : (-x).rank = x.rank.map (-·) := by
  show x.neg.rank = _
  cases x with
  | nan => rfl
  | infinite s => cases s <;> simp [Binary32.neg, rank]
  | finite s m => cases s <;> simp [Binary32.neg, rank, signed]

protected theorem neg_le_neg (h : x ≤ y) : -y ≤ -x := by
  obtain ⟨i, j, hi, hj, hij⟩ := le_iff.mp h
  refine le_iff.mpr ⟨-j, -i, ?_, ?_, Int.neg_le_neg hij⟩
  · rw [rank_neg, hj]
    rfl
  · rw [rank_neg, hi]
    rfl

theorem neg_ne_nan (h : x ≠ nan) : -x ≠ nan := by
  obtain ⟨i, hi⟩ := exists_rank h
  refine ne_nan_of_rank (i := -i) ?_
  rw [rank_neg, hi]
  rfl

/-- **Differences of finite numbers are monotone**, whatever is taken away. -/
protected theorem sub_le_sub (hx : x ≤ x') (hfin : x.isFinite) (hfin' : x'.isFinite) (hy : y' ≤ y) :
    x - y ≤ x' - y' := by
  have hleft : -y ≠ nan := neg_ne_nan (ne_nan_of_le_right hy)
  have hright : -y' ≠ nan := neg_ne_nan (ne_nan_of_le_left hy)
  exact Binary32.add_le_add hx (Binary32.neg_le_neg hy) (add_ne_nan_of_isFinite hfin hleft)
    (add_ne_nan_of_isFinite hfin' hright)

/-! ### Halves and products -/

theorem roundBits_zero_left (p den : Nat) : roundBits p 0 den = 0 := by
  have hround (d : Nat) : roundDiv 0 d = 0 := by
    unfold roundDiv
    simp
  rw [roundBits_eq, hround, Nat.zero_mul]

/-- A rounded quotient that is not negative has no sign to speak of. -/
theorem rank_ofRatio_of_nonneg {negative : Bool} {num den : Nat}
    (h : negative = true → num = 0) :
    (ofRatio negative num den).rank = some (clipped (roundBits 24 num den) : Int) := by
  rw [rank_ofRatio]
  cases negative with
  | false => rfl
  | true =>
    rw [h rfl, roundBits_zero_left]
    rfl

/-- A finite number that is not negative has its rank in units, and a sign only if it is zero. -/
theorem units_of_rank {negative : Bool} {m : Magnitude} {n : Nat}
    (h : (finite negative m).rank = some (n : Int)) :
    m.units = n ∧ (negative = true → n = 0) := by
  have hm : signed negative m = n := Option.some.inj h
  cases negative with
  | false => exact ⟨Int.ofNat.inj hm, fun h => nomatch h⟩
  | true =>
    have hneg : -(m.units : Int) = n := hm
    exact ⟨by omega, fun _ => by omega⟩

theorem rank_half {n : Nat} (hn : x.rank = some (n : Int)) (hx : x.isFinite) :
    x.half.rank = some (clipped (roundBits 24 n 2) : Int) := by
  cases x with
  | nan => cases hx
  | infinite s => cases hx
  | finite s m =>
    obtain ⟨rfl, hsign⟩ := units_of_rank hn
    show (ofRatio s m.units 2).rank = _
    exact rank_ofRatio_of_nonneg hsign

theorem rank_mul {m n : Nat} (hm : x.rank = some (m : Int)) (hn : y.rank = some (n : Int))
    (hx : x.isFinite) (hy : y.isFinite) :
    (x * y).rank = some (clipped (roundBits 24 (m * n) Magnitude.one) : Int) := by
  cases x with
  | nan => cases hx
  | infinite s => cases hx
  | finite s a =>
    cases y with
    | nan => cases hy
    | infinite t => cases hy
    | finite t b =>
      obtain ⟨rfl, hsign⟩ := units_of_rank hm
      obtain ⟨rfl, hsign'⟩ := units_of_rank hn
      show (ofRatio (s != t) (a.units * b.units) Magnitude.one).rank = _
      have hzero : (s != t) = true → a.units * b.units = 0 := by
        -- the signs differ only if one of the factors is a negative zero
        intro hne
        cases s with
        | true => rw [hsign rfl, Nat.zero_mul]
        | false =>
          cases t with
          | true => rw [hsign' rfl, Nat.mul_zero]
          | false => cases hne
      exact rank_ofRatio_of_nonneg hzero

theorem half_nonneg (h : 0 ≤ x) : 0 ≤ x.half := by
  obtain ⟨n, hn⟩ := nonneg_iff.mp h
  by_cases hx : x.isFinite
  · exact nonneg_iff.mpr ⟨_, rank_half hn hx⟩
  · cases x with
    | nan => cases hn
    | infinite s => exact h
    | finite s m => exact absurd rfl hx

/-- A finite bound makes a number that is not negative finite. -/
theorem isFinite_of_le (hx : 0 ≤ x) (h : x ≤ y) (hy : y.isFinite) : x.isFinite := by
  have hpos := limit_pos
  obtain ⟨m, hm⟩ := nonneg_iff.mp hx
  obtain ⟨n, hn⟩ := nonneg_iff.mp (nonneg_of_le hx h)
  have hmn := (natCast_le_iff hm hn).mp h
  have hlt := (isFinite_iff hn).mp hy
  exact (isFinite_iff hm).mpr ⟨by omega, by omega⟩

/-- No infinite number is part of a finite sum. -/
theorem isFinite_of_add (h : (x + y).isFinite) : y.isFinite := by
  cases y with
  | nan => cases x <;> cases h
  | finite t b => rfl
  | infinite t =>
    cases x with
    | nan => cases h
    | finite s a => cases h
    | infinite s =>
      change (if s = t then infinite s else nan).isFinite at h
      split at h <;> cases h

/-- No infinite number is a factor of a finite product. -/
theorem isFinite_of_mul (h : (x * y).isFinite) : x.isFinite := by
  cases x with
  | nan => cases h
  | finite s a => rfl
  | infinite s =>
    cases y with
    | nan => cases h
    | infinite t => cases h
    | finite t b =>
      change (if b.units = 0 then nan else infinite (s != t)).isFinite at h
      split at h <;> cases h

theorem half_le_half (hx : 0 ≤ x) (h : x ≤ y) : x.half ≤ y.half := by
  have hy0 := nonneg_of_le hx h
  obtain ⟨m, hm⟩ := nonneg_iff.mp hx
  obtain ⟨n, hn⟩ := nonneg_iff.mp hy0
  by_cases hy : y.isFinite
  · have hmn := (natCast_le_iff hm hn).mp h
    exact (natCast_le_iff (rank_half hm (isFinite_of_le hx h hy)) (rank_half hn hy)).mpr
      (clipped_mono (roundBits_mono (by decide) hmn 2))
  · cases y with
    | nan => cases hn
    | finite t b => exact absurd rfl hy
    | infinite t =>
      -- the half of an infinity is the infinity, and that is a bound of everything
      obtain ⟨k, hk⟩ := nonneg_iff.mp (half_nonneg hx)
      rw [infinite_nonneg hy0]
      exact le_iff.mpr ⟨k, _, hk, rfl, (rank_bounds hk).2⟩

protected theorem mul_nonneg (hx : 0 ≤ x) (hy : 0 ≤ y) (hfin : x.isFinite) (hfin' : y.isFinite) :
    0 ≤ x * y := by
  obtain ⟨m, hm⟩ := nonneg_iff.mp hx
  obtain ⟨n, hn⟩ := nonneg_iff.mp hy
  exact nonneg_iff.mpr ⟨_, rank_mul hm hn hfin hfin'⟩

/-- A number that is not negative keeps that with a positive factor, even if it is infinite. -/
theorem mul_nonneg_of_pos (hx : 0 ≤ x) (hy : 0 < y) (hfin : y.isFinite) : 0 ≤ x * y := by
  have hy0 : 0 ≤ y := Binary32.le_of_lt hy
  cases x with
  | nan => exact absurd rfl (ne_nan_of_le_right hx)
  | finite s a => exact Binary32.mul_nonneg hx hy0 rfl hfin
  | infinite s =>
    cases y with
    | nan => cases hfin
    | infinite t => cases hfin
    | finite t b =>
      -- the factor has units, and neither side has a sign
      obtain ⟨n, hn⟩ := nonneg_iff.mp hy0
      obtain ⟨hunits, hsign⟩ := units_of_rank hn
      have hpos : b.units ≠ 0 := by
        obtain ⟨i, j, hi, hj, hij⟩ := lt_iff.mp hy
        rw [rank_zero] at hi
        cases hi
        rw [hn, Option.some.injEq] at hj
        omega
      have ht : t = false := by
        cases t with
        | false => rfl
        | true => exact absurd (hsign rfl) (hunits ▸ hpos)
      show 0 ≤ (if b.units = 0 then nan else infinite (s != t))
      rw [if_neg hpos, ht, infinite_nonneg hx]
      exact nonneg_iff.mpr ⟨Magnitude.limit, rfl⟩

/-- **Products with a number that is not negative are monotone.** -/
protected theorem mul_le_mul_left (hx : 0 ≤ x) (hfin : x.isFinite) (hy : 0 ≤ y) (h : y ≤ z)
    (hz : z.isFinite) : x * y ≤ x * z := by
  obtain ⟨l, hl⟩ := nonneg_iff.mp hx
  obtain ⟨m, hm⟩ := nonneg_iff.mp hy
  obtain ⟨n, hn⟩ := nonneg_iff.mp (nonneg_of_le hy h)
  have hprod : l * m ≤ l * n := Nat.mul_le_mul_left l ((natCast_le_iff hm hn).mp h)
  exact (natCast_le_iff (rank_mul hl hm hfin (isFinite_of_le hy h hz))
    (rank_mul hl hn hfin hz)).mpr (clipped_mono (roundBits_mono (by decide) hprod _))

/-! ### Signs -/

theorem neg_ofRatio (negative : Bool) (num den : Nat) :
    -ofRatio negative num den = ofRatio (!negative) num den := by
  show (ofRatio negative num den).neg = _
  unfold ofRatio
  split <;> rfl

/-- The sign of a factor is that of the product. -/
protected theorem neg_mul (x y : Binary32) : -x * y = -(x * y) := by
  have hsign (s t : Bool) : ((!s) != t) = !(s != t) := by cases s <;> cases t <;> rfl
  show x.neg.mul y = (x.mul y).neg
  cases x with
  | nan => rfl
  | infinite s =>
    cases y with
    | nan => rfl
    | infinite t => exact congrArg infinite (hsign s t)
    | finite t b =>
      simp only [Binary32.neg, Binary32.mul, hsign]
      split <;> rfl
  | finite s a =>
    cases y with
    | nan => rfl
    | infinite t =>
      simp only [Binary32.neg, Binary32.mul, hsign]
      split <;> rfl
    | finite t b =>
      show ofRatio ((!s) != t) _ _ = -ofRatio (s != t) _ _
      rw [hsign, neg_ofRatio]

theorem abs_ofRatio (negative : Bool) (num den : Nat) :
    (ofRatio negative num den).abs = ofRatio false num den := by
  unfold ofRatio
  split <;> rfl

/-- The distance of two numbers is the same from both sides. -/
theorem abs_sub_comm (x y : Binary32) : (x - y).abs = (y - x).abs := by
  show (x.add y.neg).abs = (y.add x.neg).abs
  cases x with
  | nan => cases y <;> rfl
  | infinite s =>
    cases y with
    | nan => rfl
    | infinite t => cases s <;> cases t <;> rfl
    | finite t b => rfl
  | finite s a =>
    cases y with
    | nan => rfl
    | infinite t => rfl
    | finite t b =>
      have hneg (s : Bool) (m : Magnitude) : signed (!s) m = -signed s m := by
        cases s <;> simp [signed]
      -- the two exact differences have opposite signs
      show (ofUnits _ (signed s a + signed (!t) b)).abs =
        (ofUnits _ (signed t b + signed (!s) a)).abs
      rw [hneg, hneg]
      unfold ofUnits
      have hzero : signed s a + -signed t b = 0 ↔ signed t b + -signed s a = 0 := by omega
      have habs : (signed s a + -signed t b).natAbs = (signed t b + -signed s a).natAbs := by omega
      by_cases h : signed s a + -signed t b = 0
      · rw [if_pos h, if_pos (hzero.mp h), abs_ofRatio, abs_ofRatio]
      · rw [if_neg h, if_neg (mt hzero.mpr h), abs_ofRatio, abs_ofRatio, habs]

theorem rank_abs {i : Int} (hi : x.rank = some i) : x.abs.rank = some (i.natAbs : Int) := by
  cases x with
  | nan => cases hi
  | infinite s => cases hi; cases s <;> simp [abs, rank]
  | finite s m => cases hi; cases s <;> simp [abs, rank, signed]

/-! ### Natural numbers -/

theorem rank_ofNat (n : Nat) :
    (ofNat n).rank = some (clipped (roundBits 24 (n * Magnitude.one) 1) : Int) :=
  rank_ofRatio_of_nonneg fun h => nomatch h

theorem ofNat_le_ofNat {m n : Nat} (h : m ≤ n) : ofNat m ≤ ofNat n :=
  (natCast_le_iff (rank_ofNat m) (rank_ofNat n)).mpr
    (clipped_mono (roundBits_mono (by decide) (Nat.mul_le_mul_right _ h) 1))

theorem ofNat_nonneg (n : Nat) : 0 ≤ ofNat n := ofNat_le_ofNat (Nat.zero_le n)

/-- A count that a machine word holds is finite. -/
theorem isFinite_ofNat {n : Nat} (h : n ≤ Nat.pow 2 64) : (ofNat n).isFinite :=
  isFinite_of_le (ofNat_nonneg n) (ofNat_le_ofNat h) (by decide +kernel)

end Binary32

end SequenceDiagram
