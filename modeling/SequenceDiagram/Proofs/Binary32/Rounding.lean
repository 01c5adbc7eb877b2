import SequenceDiagram.Binary32.Rounding

namespace SequenceDiagram

/-!
# Rounding keeps the order

* `roundDiv_mono` and `roundBits_mono`: of two quotients, the larger one is rounded to a number that
  is not smaller.
* `two_mul_roundDiv`: the nearest integer is off by at most one half.
* `roundBits_error`: a number is rounded by at most its own size divided by `2 ^ p`.
* `lt_roundBits_add`: a sum is larger than its first term if the second one is not much smaller.
-/

/-! ### The nearest integer -/

theorem roundDiv_mono {num num' : Nat} (h : num ≤ num') (den : Nat) :
    roundDiv num den ≤ roundDiv num' den := by
  rcases Nat.lt_or_eq_of_le (Nat.div_le_div_right (c := den) h) with hlt | heq
  · calc roundDiv num den ≤ num / den + 1 := roundDiv_le num den
      _ ≤ num' / den := hlt
      _ ≤ roundDiv num' den := div_le_roundDiv num' den
  · -- the quotients agree, so the remainders are in the same order
    have hmod : num % den ≤ num' % den := by
      have hnum := Nat.div_add_mod num den
      have hnum' := Nat.div_add_mod num' den
      rw [← heq] at hnum'
      omega
    unfold roundDiv
    rw [← heq]
    repeat' split
    all_goals omega

/-- The nearest integer is off by at most one half, in either direction. -/
theorem two_mul_roundDiv {den : Nat} (hden : 0 < den) (num : Nat) :
    2 * num ≤ 2 * (roundDiv num den * den) + den ∧
      2 * (roundDiv num den * den) ≤ 2 * num + den := by
  have hnum := Nat.div_add_mod num den
  have hmod := Nat.mod_lt num hden
  have hfloor : num / den * den = den * (num / den) := Nat.mul_comm _ _
  have hceil : (num / den + 1) * den = den * (num / den) + den := by
    rw [Nat.succ_mul, hfloor]
  -- rounded down, rounded up, or a tie that goes to the even neighbour
  unfold roundDiv
  by_cases hbelow : 2 * (num % den) < den
  · rw [if_pos hbelow, hfloor]
    omega
  · rw [if_neg hbelow]
    by_cases habove : den < 2 * (num % den)
    · rw [if_pos habove, hceil]
      omega
    · rw [if_neg habove]
      rcases Nat.mod_two_eq_zero_or_one (num / den) with heven | hodd
      · rw [heven, Nat.add_zero, hfloor]
        omega
      · rw [hodd, hceil]
        omega

/-- A common factor does not matter. -/
theorem roundDiv_mul_right {k : Nat} (hk : 0 < k) (num den : Nat) :
    roundDiv (num * k) (den * k) = roundDiv num den := by
  have hmod : num * k % (den * k) = num % den * k := Nat.mul_mod_mul_right k num den
  have hbelow : 2 * (num % den * k) < den * k ↔ 2 * (num % den) < den := by
    rw [← Nat.mul_assoc, Nat.mul_lt_mul_right hk]
  have habove : den * k < 2 * (num % den * k) ↔ den < 2 * (num % den) := by
    rw [← Nat.mul_assoc, Nat.mul_lt_mul_right hk]
  unfold roundDiv
  rw [Nat.mul_div_mul_right num den hk, hmod]
  simp only [hbelow, habove]

/-! ### Few significant bits -/

theorem log2_mono {m n : Nat} (h : m ≤ n) : m.log2 ≤ n.log2 := by
  by_cases hm : m = 0
  · rw [hm]
    exact Nat.zero_le _
  · have hn : n ≠ 0 := by omega
    exact (Nat.le_log2 hn).mpr (Nat.le_trans (Nat.log2_self_le hm) h)

/-- A quotient is rounded to a multiple of the last bit that it can keep. -/
theorem roundBits_eq (p num den : Nat) : roundBits p num den =
    roundDiv num (den * Nat.pow 2 ((num / den).log2 + 1 - p)) *
      Nat.pow 2 ((num / den).log2 + 1 - p) := rfl

/-- A quotient that is rounded in steps larger than one fills all of its bits. -/
theorem two_pow_le_roundDiv_step {p num den : Nat} (hp : 0 < p)
    (h : 0 < (num / den).log2 + 1 - p) :
    Nat.pow 2 (p - 1) ≤ roundDiv num (den * Nat.pow 2 ((num / den).log2 + 1 - p)) := by
  refine Nat.le_trans ?_ (div_le_roundDiv _ _)
  have hne : num / den ≠ 0 := by
    intro hzero
    rw [hzero, Nat.log2_zero] at h
    omega
  simp only [Nat.pow_eq]
  rw [← Nat.div_div_eq_div_mul, Nat.le_div_iff_mul_le (Nat.two_pow_pos _), ← Nat.pow_add]
  exact Nat.le_trans (Nat.pow_le_pow_right (by omega) (by omega)) (Nat.log2_self_le hne)

/-- **Rounding keeps the order.** -/
theorem roundBits_mono {p : Nat} (hp : 0 < p) {num num' : Nat} (h : num ≤ num') (den : Nat) :
    roundBits p num den ≤ roundBits p num' den := by
  -- either both are rounded in the same steps, or the larger one in larger steps
  have hlog := log2_mono (Nat.div_le_div_right (c := den) h)
  have hlow := roundDiv_step_le p num den
  have hhigh : 0 < (num' / den).log2 + 1 - p →
      Nat.pow 2 (p - 1) ≤ roundDiv num' (den * Nat.pow 2 ((num' / den).log2 + 1 - p)) :=
    two_pow_le_roundDiv_step hp
  rw [roundBits_eq, roundBits_eq]
  simp only [Nat.pow_eq] at hlow hhigh ⊢
  rcases Nat.lt_or_eq_of_le (Nat.sub_le_sub_right (Nat.succ_le_succ hlog) p) with hlt | heq
  · -- the step of the larger number is at least twice as large, and all its bits are filled
    calc roundDiv num (den * 2 ^ ((num / den).log2 + 1 - p)) * 2 ^ ((num / den).log2 + 1 - p)
        ≤ 2 ^ p * 2 ^ ((num / den).log2 + 1 - p) := Nat.mul_le_mul_right _ hlow
      _ = 2 ^ (p + ((num / den).log2 + 1 - p)) := (Nat.pow_add 2 _ _).symm
      _ ≤ 2 ^ (p - 1 + ((num' / den).log2 + 1 - p)) :=
          Nat.pow_le_pow_right (by omega) (by omega)
      _ = 2 ^ (p - 1) * 2 ^ ((num' / den).log2 + 1 - p) := Nat.pow_add 2 _ _
      _ ≤ _ := Nat.mul_le_mul_right _ (hhigh (by omega))
  · have heq' : (num / den).log2 + 1 - p = (num' / den).log2 + 1 - p := heq
    rw [heq']
    exact Nat.mul_le_mul_right _ (roundDiv_mono h _)

/-- A number over its own denominator is rounded like the number. -/
theorem roundBits_mul_self (p k : Nat) {den : Nat} (hden : 0 < den) :
    roundBits p (k * den) den = roundBits p k 1 := by
  rw [roundBits_eq, roundBits_eq, Nat.mul_div_cancel k hden, Nat.div_one, Nat.one_mul,
    Nat.mul_comm den, roundDiv_mul_right hden]

/-- **Rounding is precise.** A number is rounded by at most its own size divided by `2 ^ p`. -/
theorem roundBits_error {p : Nat} (hp : 0 < p) (n : Nat) :
    Nat.pow 2 p * n ≤ Nat.pow 2 p * roundBits p n 1 + n ∧
      Nat.pow 2 p * roundBits p n 1 ≤ Nat.pow 2 p * n + n := by
  have hval : roundBits p n 1 = roundDiv n (2 ^ (n.log2 + 1 - p)) * 2 ^ (n.log2 + 1 - p) := by
    rw [roundBits_eq, Nat.div_one, Nat.one_mul]
    rfl
  simp only [Nat.pow_eq]
  have herror := two_mul_roundDiv (Nat.two_pow_pos (n.log2 + 1 - p)) n
  rw [← hval] at herror
  by_cases hstep : n.log2 + 1 ≤ p
  · -- the step is one
    have hone : 2 ^ (n.log2 + 1 - p) = 1 := by simp [Nat.sub_eq_zero_of_le hstep]
    rw [hval, hone, roundDiv_one, Nat.mul_one]
    omega
  · -- half a step is at most `n / 2 ^ p`, because `n` fills its bits
    have hsize : 2 ^ p * 2 ^ (n.log2 + 1 - p) ≤ 2 * n := by
      have hne : n ≠ 0 := by
        rintro rfl
        exact hstep (by rwa [Nat.log2_zero])
      rw [← Nat.pow_add, Nat.add_sub_cancel' (by omega), Nat.pow_succ, Nat.mul_comm]
      exact Nat.mul_le_mul_left 2 (Nat.log2_self_le hne)
    have hlow := Nat.mul_le_mul_left (2 ^ p) herror.1
    have hhigh := Nat.mul_le_mul_left (2 ^ p) herror.2
    simp only [Nat.mul_add, Nat.mul_left_comm _ 2] at hlow hhigh
    omega

/-- A number that fits still fits when it is shifted. -/
theorem fewBits_two_pow_mul {p n : Nat} (k : Nat) (h : FewBits p n) :
    FewBits p (Nat.pow 2 k * n) := by
  refine fewBits_of_dvd (s := k + (n.log2 + 1 - p)) ?_ ?_
  · simp only [Nat.pow_eq, Nat.pow_add]
    exact Nat.mul_dvd_mul_left _ h
  · have hlt : n < 2 ^ (n.log2 + 1) := Nat.lt_log2_self
    simp only [Nat.pow_eq]
    calc 2 ^ k * n < 2 ^ k * 2 ^ (n.log2 + 1) := Nat.mul_lt_mul_of_pos_left hlt (Nat.two_pow_pos k)
      _ = 2 ^ (k + (n.log2 + 1)) := (Nat.pow_add 2 _ _).symm
      _ ≤ 2 ^ (p + (k + (n.log2 + 1 - p))) := Nat.pow_le_pow_right (by omega) (by omega)

/-- **What is added is not lost** if it is more than the `2 ^ p`-th part of the number. -/
theorem lt_roundBits_add {p m n : Nat} (hp : 0 < p) (h : m < Nat.pow 2 p * n) :
    m < roundBits p (m + n) 1 := by
  have hval : roundBits p (m + n) 1 =
      roundDiv (m + n) (2 ^ ((m + n).log2 + 1 - p)) * 2 ^ ((m + n).log2 + 1 - p) := by
    rw [roundBits_eq, Nat.div_one, Nat.one_mul]
    rfl
  have hn : 0 < n := by
    refine Nat.pos_of_ne_zero ?_
    rintro rfl
    exact absurd h (Nat.not_lt_zero m)
  have hsize : 2 ^ (m + n).log2 ≤ m + n := Nat.log2_self_le (by omega)
  simp only [Nat.pow_eq] at h
  by_cases hstep : (m + n).log2 + 1 ≤ p
  · -- the step is one
    rw [hval, Nat.sub_eq_zero_of_le hstep, Nat.pow_zero, roundDiv_one]
    omega
  · have hpow : 2 ^ p * 2 ^ ((m + n).log2 + 1 - p) = 2 * 2 ^ (m + n).log2 := by
      rw [← Nat.pow_add, Nat.add_sub_cancel' (by omega), Nat.pow_succ, Nat.mul_comm]
    by_cases hbinade : m < 2 ^ (m + n).log2
    · -- the sum is at least the next power of two, which fits
      have hfits : FewBits p (2 ^ (m + n).log2) :=
        fewBits_of_dvd (s := (m + n).log2) (Nat.dvd_refl _)
          (Nat.pow_lt_pow_right (by omega) (by omega))
      calc m < 2 ^ (m + n).log2 := hbinade
        _ = roundBits p (2 ^ (m + n).log2) 1 := (roundBits_one hfits).symm
        _ ≤ roundBits p (m + n) 1 := roundBits_mono hp hsize 1
    · -- what is added is more than half a step
      have hhalf : 2 ^ ((m + n).log2 + 1 - p) < 2 * n := by
        have hlt : 2 ^ p * 2 ^ ((m + n).log2 + 1 - p) < 2 ^ p * (2 * n) := by
          rw [hpow, Nat.mul_left_comm]
          omega
        exact Nat.lt_of_mul_lt_mul_left hlt
      have herror := (two_mul_roundDiv (Nat.two_pow_pos ((m + n).log2 + 1 - p)) (m + n)).1
      rw [← hval] at herror
      omega

end SequenceDiagram
