import SequenceDiagram.Proofs.Binary32.Precision
import SequenceDiagram.Proofs.Layout.Spacing

namespace SequenceDiagram

open Binary32

/-!
# The left sides of the boxes

The right sides of the boxes are always in the order of the lifelines. For the left sides this takes
some precision: far enough from zero a center no longer changes by the distance that is added to it.

* `Coordinates.BoxesInOrder` says that the left sides are finite and in order.
* `Coordinates.WithinPrecision` bounds the centers by a multiple of the smallest step.
* `Coordinates.Spaced.boxesInOrder`: within the precision the boxes are in order.
-/

namespace Coordinates

/-- The left sides of the boxes are finite and in the order of the lifelines. -/
structure BoxesInOrder (c : Coordinates) : Prop where
  finite : ∀ l ∈ c.lifelines, l.boxLeft.isFinite
  step : ∀ i l l', c.lifelines[i]? = some l → c.lifelines[i + 1]? = some l' →
    l.boxLeft ≤ l'.boxLeft

/-- The left sides are in order over any distance. -/
theorem BoxesInOrder.boxLeft_le {c : Coordinates} (h : c.BoxesInOrder) {i j : Nat}
    {l l' : Lifeline} (hij : i ≤ j) (hl : c.lifelines[i]? = some l)
    (hl' : c.lifelines[j]? = some l') : l.boxLeft ≤ l'.boxLeft := by
  refine rel_of_neighbours (r := fun l l' : Lifeline => l.boxLeft ≤ l'.boxLeft)
    (fun l hl => ?_) (fun l l' l'' => Binary32.le_trans) h.step hij hl hl'
  exact Binary32.le_refl (ne_nan_of_isFinite (h.finite l hl))

/-- No lifeline stands further to the right than two million times the margin or the least width of
    a box, whichever is larger. -/
def WithinPrecision (config : LayoutConfig) (c : Coordinates) : Prop :=
  ∀ l ∈ c.lifelines, l.center.isFinite ∧
    l.center ≤ 2097152 * max config.margin config.minParticipantWidth

end Coordinates

/-- The larger one of the margin and the least width, in units: it is one of them, and not zero. -/
theorem LayoutConfig.exists_step {config : LayoutConfig} (h : config.validate = .ok config) :
    ∃ m w b : Nat, config.margin.rank = some (m : Int) ∧
      config.minParticipantWidth.rank = some (w : Int) ∧
      (max config.margin config.minParticipantWidth).rank = some (b : Int) ∧
      (max config.margin config.minParticipantWidth).isFinite ∧ (b = m ∨ b = w) ∧ 0 < b := by
  have hmargin : 0 ≤ config.margin := size_nonneg h .margin
  have hwidth : 0 ≤ config.minParticipantWidth := size_nonneg h .minParticipantWidth
  have hmargin' : config.margin.isFinite := size_isFinite h .margin
  have hwidth' : config.minParticipantWidth.isFinite := size_isFinite h .minParticipantWidth
  obtain ⟨m, hm⟩ := nonneg_iff.mp hmargin
  obtain ⟨w, hw⟩ := nonneg_iff.mp hwidth
  have hleft := Binary32.le_max_left (ne_nan_of_rank hm) config.minParticipantWidth
  have hright := Binary32.le_max_right config.margin (ne_nan_of_rank hw)
  obtain ⟨b, hb⟩ := nonneg_iff.mp (nonneg_of_le hmargin hleft)
  refine ⟨m, w, b, hm, hw, hb, ?_, ?_, ?_⟩
  · rcases max_eq_or config.margin config.minParticipantWidth with heq | heq
    · rwa [heq]
    · rwa [heq]
  · rcases max_eq_or config.margin config.minParticipantWidth with heq | heq
    · rw [heq, hm, Option.some.injEq] at hb
      omega
    · rw [heq, hw, Option.some.injEq] at hb
      omega
  · have hmb := (natCast_le_iff hm hb).mp hleft
    have hwb := (natCast_le_iff hw hb).mp hright
    -- if it were zero, both would be, and such a configuration is not let through
    refine Nat.pos_of_ne_zero fun hzero => (validate_ok h).2.1 ⟨?_, ?_⟩
    · exact (natCast_le_iff (n := 0) hm rank_zero).mpr (by omega)
    · exact (natCast_le_iff (n := 0) hw rank_zero).mpr (by omega)

/-- The arithmetic of one step, in units. The sums `s`, `d` and `t` are rounded; together they lose
    less than the smallest step, because nothing is larger than two million of those. -/
theorem step_arith {c c' e e' h h' m w b r s d t k : Nat}
    (hs : Nat.pow 2 24 * (e + e') ≤ Nat.pow 2 24 * s + (e + e'))
    (hd : Nat.pow 2 24 * (s + m) ≤ Nat.pow 2 24 * d + (s + m))
    (ht : Nat.pow 2 24 * (c + d) ≤ Nat.pow 2 24 * t + (c + d)) (htc : t ≤ c') (hcr : c' ≤ r)
    (hr : Nat.pow 2 24 * r ≤ Nat.pow 2 24 * (2097152 * b) + 2097152 * b)
    (hb : b = m ∨ b = w) (hb0 : 0 < b)
    (hk : Nat.pow 2 24 * (w / 2) ≤ Nat.pow 2 24 * k + w / 2) (hkh : k ≤ h) (hh : h ≤ e)
    (hh' : h' ≤ e') : (c : Int) - h ≤ c' - h' := by
  simp only [Nat.pow_eq] at hs hd ht hr hk
  omega

namespace Coordinates.Spaced

variable {config : LayoutConfig} {c : Coordinates} {l l' : Lifeline}

/-- The left side of the box of a lifeline with a finite center is finite. -/
theorem isFinite_boxLeft (h : c.Spaced config) (hconfig : config.validate = .ok config)
    (hl : l ∈ c.lifelines) (hfin : l.center.isFinite) : l.boxLeft.isFinite := by
  exact isFinite_sub (half_nonneg (h.width_nonneg hconfig hl)) (h.half_le_center hconfig hl) hfin

/-- Within the precision the left side of the next box is not further to the left. -/
theorem boxLeft_le_next (h : c.Spaced config) (hconfig : config.validate = .ok config)
    (hprec : c.WithinPrecision config) {i : Nat} (hi : c.lifelines[i]? = some l)
    (hi' : c.lifelines[i + 1]? = some l') : l.boxLeft ≤ l'.boxLeft := by
  have hl := List.mem_of_getElem? hi
  have hl' := List.mem_of_getElem? hi'
  obtain ⟨hfin, _⟩ := hprec l hl
  obtain ⟨hfin', hbound⟩ := hprec l' hl'
  have hcenter := h.center_nonneg hconfig hl
  have hcenter' := h.center_nonneg hconfig hl'
  have hextent := h.halfExtent_nonneg hconfig hl
  have hextent' := h.halfExtent_nonneg hconfig hl'
  have hmargin : 0 ≤ config.margin := LayoutConfig.size_nonneg hconfig .margin
  have hwidth := h.width_nonneg hconfig hl
  have hwidth' := h.width_nonneg hconfig hl'
  -- every sum on the way is finite, because the last one is not larger than a center
  have hboth := Binary32.add_nonneg hextent hextent'
  have hdistance := Binary32.add_nonneg hboth hmargin
  have hplace := Binary32.add_nonneg hcenter hdistance
  have hapart := h.apart i l l' hi hi'
  have hplaceFin := isFinite_of_le hplace hapart hfin'
  have hdistanceFin := isFinite_of_le hdistance (Binary32.le_add_left hcenter hdistance) hplaceFin
  have hbothFin := isFinite_of_le hboth (Binary32.le_add_right hboth hmargin) hdistanceFin
  -- the counts of units, and what each rounding may lose
  obtain ⟨x, hx⟩ := nonneg_iff.mp hcenter
  obtain ⟨x', hx'⟩ := nonneg_iff.mp hcenter'
  obtain ⟨e, he⟩ := nonneg_iff.mp hextent
  obtain ⟨e', he'⟩ := nonneg_iff.mp hextent'
  obtain ⟨a, ha⟩ := nonneg_iff.mp (half_nonneg hwidth)
  obtain ⟨a', ha'⟩ := nonneg_iff.mp (half_nonneg hwidth')
  obtain ⟨m, w, b, hm, hw, hb, hbfin, hcases, hpos⟩ := LayoutConfig.exists_step hconfig
  obtain ⟨s, hs, hserror, _⟩ := add_error he he' hbothFin
  obtain ⟨d, hd, hderror, _⟩ := add_error hs hm hdistanceFin
  obtain ⟨t, ht, hterror, _⟩ := add_error hx hd hplaceFin
  obtain ⟨k, hk, hkerror⟩ := half_error hw (LayoutConfig.size_isFinite hconfig .minParticipantWidth)
  obtain ⟨r, hr, hrerror⟩ := ofNat_mul_le (k := 2097152) (by decide +kernel) (by decide +kernel)
    hb hbfin
  have htx := (natCast_le_iff ht hx').mp hapart
  have hxr := (natCast_le_iff hx' hr).mp hbound
  have hleast : 0 ≤ config.minParticipantWidth :=
    LayoutConfig.size_nonneg hconfig .minParticipantWidth
  have hka := (natCast_le_iff hk ha).mp (half_le_half hleast (h.wide l hl))
  have hae := (natCast_le_iff ha he).mp (Box.half_le_halfExtent hwidth)
  have hae' := (natCast_le_iff ha' he').mp (Box.half_le_halfExtent hwidth')
  have hunits := step_arith hserror hderror hterror htx hxr hrerror hcases hpos hkerror hka hae hae'
  have hhalfFin := isFinite_of_le (half_nonneg hwidth) (h.half_le_center hconfig hl) hfin
  have hhalfFin' := isFinite_of_le (half_nonneg hwidth') (h.half_le_center hconfig hl') hfin'
  exact le_iff.mpr ⟨_, _, rank_sub hx ha hfin hhalfFin, rank_sub hx' ha' hfin' hhalfFin',
    rounded_mono hunits⟩

/-- **Within the precision the boxes are in order.** -/
theorem boxesInOrder (h : c.Spaced config) (hconfig : config.validate = .ok config)
    (hprec : c.WithinPrecision config) : c.BoxesInOrder where
  finite l hl := h.isFinite_boxLeft hconfig hl (hprec l hl).1
  step _ _ _ hi hi' := h.boxLeft_le_next hconfig hprec hi hi'

end Coordinates.Spaced

end SequenceDiagram
