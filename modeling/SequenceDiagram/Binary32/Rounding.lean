namespace SequenceDiagram

/-!
# Rounding a quotient to few significant bits

* `roundDiv num den` is the integer nearest to `num / den`, a tie going to the even one.
* `roundBits p num den` is the nearest number with at most `p` significant bits, again with ties to
  even, and `fewBits_roundBits` says that the result really has no more bits than that.

Every rounded operation of the library is one call of `roundBits` on an exact quotient of naturals.
-/

/-! ### The nearest integer -/

/-- The integer nearest to `num / den`; a tie goes to the even neighbour. -/
def roundDiv (num den : Nat) : Nat :=
  if 2 * (num % den) < den then num / den
  else if den < 2 * (num % den) then num / den + 1
  else num / den + num / den % 2

theorem roundDiv_le (num den : Nat) : roundDiv num den ≤ num / den + 1 := by
  unfold roundDiv
  split
  · omega
  · split <;> omega

theorem div_le_roundDiv (num den : Nat) : num / den ≤ roundDiv num den := by
  unfold roundDiv
  split
  · omega
  · split <;> omega

@[simp] theorem roundDiv_one (num : Nat) : roundDiv num 1 = num := by
  simp [roundDiv, Nat.mod_one]

/-! ### Few significant bits -/

/-- `n` is written with at most `p` significant bits. -/
def FewBits (p n : Nat) : Prop := Nat.pow 2 (n.log2 + 1 - p) ∣ n

instance (p n : Nat) : Decidable (FewBits p n) := inferInstanceAs (Decidable (_ ∣ _))

theorem fewBits_zero (p : Nat) : FewBits p 0 := Nat.dvd_zero _

/-- A multiple of `2 ^ s` below `2 ^ (p + s)` has at most `p` significant bits. -/
theorem fewBits_of_dvd {p s n : Nat} (hdvd : Nat.pow 2 s ∣ n) (hlt : n < Nat.pow 2 (p + s)) :
    FewBits p n := by
  by_cases hn : n = 0
  · subst hn; exact fewBits_zero p
  · have hlog : n.log2 < p + s := (Nat.log2_lt hn).mpr hlt
    exact Nat.dvd_trans (Nat.pow_dvd_pow 2 (by omega)) hdvd

/-- The number nearest to `num / den` among those with at most `p` significant bits; a tie goes to
    the neighbour whose last bit is zero. -/
def roundBits (p num den : Nat) : Nat :=
  let step := Nat.pow 2 ((num / den).log2 + 1 - p)
  roundDiv num (den * step) * step

/-- The rounded significand never needs more than the next power of two. -/
theorem roundDiv_step_le (p num den : Nat) :
    roundDiv num (den * Nat.pow 2 ((num / den).log2 + 1 - p)) ≤ Nat.pow 2 p := by
  have hle := roundDiv_le num (den * Nat.pow 2 ((num / den).log2 + 1 - p))
  have hlt : num / (den * Nat.pow 2 ((num / den).log2 + 1 - p)) < Nat.pow 2 p := by
    simp only [Nat.pow_eq]
    rw [← Nat.div_div_eq_div_mul, Nat.div_lt_iff_lt_mul (Nat.two_pow_pos _), ← Nat.pow_add]
    exact Nat.lt_of_lt_of_le Nat.lt_log2_self (Nat.pow_le_pow_right (by omega) (by omega))
  omega

theorem fewBits_roundBits {p : Nat} (hp : 0 < p) (num den : Nat) :
    FewBits p (roundBits p num den) := by
  have hle := roundDiv_step_le p num den
  have hval : roundBits p num den = roundDiv num (den * Nat.pow 2 ((num / den).log2 + 1 - p)) *
      Nat.pow 2 ((num / den).log2 + 1 - p) := rfl
  generalize (num / den).log2 + 1 - p = s at hle hval
  generalize roundDiv num (den * Nat.pow 2 s) = r at hle hval
  rw [hval]
  rcases Nat.lt_or_ge r (Nat.pow 2 p) with hr | hr
  · refine fewBits_of_dvd (Nat.dvd_mul_left _ _) ?_
    simp only [Nat.pow_eq, Nat.pow_add]
    exact Nat.mul_lt_mul_of_pos_right hr (Nat.two_pow_pos s)
  · have hr' : r = Nat.pow 2 p := by omega
    subst hr'
    -- the significand rounded up to a power of two, which has a single bit
    simp only [Nat.pow_eq, ← Nat.pow_add]
    exact fewBits_of_dvd (s := p + s) (Nat.dvd_refl _) (Nat.pow_lt_pow_right (by omega) (by omega))

/-- A number that fits is left as it is. -/
theorem roundBits_one {p n : Nat} (h : FewBits p n) : roundBits p n 1 = n := by
  obtain ⟨k, hk⟩ := h
  have hpos : 0 < Nat.pow 2 (n.log2 + 1 - p) := Nat.two_pow_pos _
  have hround : roundDiv n (Nat.pow 2 (n.log2 + 1 - p)) = n / Nat.pow 2 (n.log2 + 1 - p) := by
    have hmod : n % Nat.pow 2 (n.log2 + 1 - p) = 0 := Nat.mod_eq_zero_of_dvd ⟨k, hk⟩
    unfold roundDiv
    rw [hmod, if_pos (by omega)]
  unfold roundBits
  simp only [Nat.div_one, Nat.one_mul, hround]
  exact Nat.div_mul_cancel ⟨k, hk⟩

end SequenceDiagram
