import SequenceDiagram.Proofs.Layout.LabelRoom

namespace SequenceDiagram

open Binary32

/-!
# Arrows in the other direction

An arrow and the one back between the same two bars differ in nothing but their direction: they are
as wide, and their left ends are in the same place. Nothing is asked of the configuration, and
nothing of the bars, which may reach over the other lifeline.

* `Arrow.reversed` turns an arrow around.
* `Arrow.rightToLeft_between`: the sign of the rounded difference of two centers tells which of them
  is the left one.
* `reversed_arrow` is the result for the lifelines of a table.
-/

/-- The arrow in the other direction, in the same place. -/
def Arrow.reversed (a : Arrow) : Arrow :=
  { a with
    rightToLeft := !a.rightToLeft
    sourceLayers := a.targetLayers
    targetLayers := a.sourceLayers }

namespace Arrow

variable {config : LayoutConfig} {origin source target : Anchor}

/-- An arrow goes to the left exactly if its target stands to the left of its source. -/
theorem rightToLeft_between (hsource : source.center.isFinite) (htarget : target.center.isFinite) :
    (between config false origin source target).rightToLeft =
      decide (target.center < source.center) := by
  show (!false && decide (target.center - source.center < 0)) = _
  rw [Bool.not_false, Bool.true_and, decide_eq_decide]
  exact sub_neg_iff htarget hsource

/-- Both arrows start on the right side of the bars that stand more to the left. -/
theorem translation_between (hsource : source.center.isFinite) (htarget : target.center.isFinite) :
    (between config false origin source target).translation = origin.centerTo
      (if target.center < source.center then target.edge 1 config else source.edge 1 config) := by
  show origin.centerTo (if (between config false origin source target).rightToLeft = true then
    target.edge 1 config else source.edge 1 config) = _
  rw [rightToLeft_between hsource htarget]
  simp only [decide_eq_true_eq]

/-- **The arrow between two anchors, the other way round.** -/
theorem between_reversed (hsource : source.center.isFinite) (htarget : target.center.isFinite)
    (hne : source.center.rank ≠ target.center.rank) :
    between config false origin target source =
      (between config false origin source target).reversed := by
  obtain ⟨i, hi⟩ := exists_rank (ne_nan_of_isFinite hsource)
  obtain ⟨j, hj⟩ := exists_rank (ne_nan_of_isFinite htarget)
  -- of two different places exactly one is the left one
  have hflip : source.center < target.center ↔ ¬ target.center < source.center := by
    rw [hi, hj, ne_eq, Option.some.injEq] at hne
    rw [lt_iff_of_rank hi hj, lt_iff_of_rank hj hi]
    omega
  have hdirection : (between config false origin target source).rightToLeft =
      !(between config false origin source target).rightToLeft := by
    rw [rightToLeft_between htarget hsource, rightToLeft_between hsource htarget, ← decide_not,
      decide_eq_decide]
    exact hflip
  have htranslation : (between config false origin target source).translation =
      (between config false origin source target).translation := by
    rw [translation_between htarget hsource, translation_between hsource htarget]
    by_cases hlt : target.center < source.center
    · rw [if_pos hlt, if_neg (mt hflip.mp (not_not_intro hlt))]
    · rw [if_neg hlt, if_pos (hflip.mpr hlt)]
  have hwidth : (between config false origin target source).width =
      (between config false origin source target).width :=
    Anchor.abs_edgeOffset_comm config target source
  rw [reversed, ← hdirection, ← htranslation, ← hwidth]
  rfl

end Arrow

/-- A participant with a lifeline has an anchor there. -/
theorem ArrowEnd.anchor_of_get? {c : Coordinates} {name : String} {l : Lifeline}
    (h : c.get? name = some l) (layers : Nat) :
    anchor c ⟨name, layers⟩ = .ok ⟨l.center, layers⟩ := by
  rw [anchor, Coordinates.center, h]

/-- **Reversing an arrow changes only its direction.** Two lifelines in different places, however
    they were placed, have an arrow each way, and one is the other reversed. The arrow goes to the
    left whose target has the smaller center. Places are compared by their ranks, so that the two
    zeros are one place. -/
theorem reversed_arrow {c : Coordinates} {config : LayoutConfig} {origin source target : String}
    {o s t : Lifeline} (ho : c.get? origin = some o) (hs : c.get? source = some s)
    (ht : c.get? target = some t) (hsource : s.center.isFinite) (htarget : t.center.isFinite)
    (hne : s.center.rank ≠ t.center.rank) (i j k : Nat) :
    ∃ a, layoutArrow c config ⟨origin, i⟩ ⟨source, j⟩ ⟨target, k⟩ = .ok a ∧
      layoutArrow c config ⟨origin, i⟩ ⟨target, k⟩ ⟨source, j⟩ = .ok a.reversed ∧
      a.isSelf = false ∧ a.originLayers = i ∧ a.sourceLayers = j ∧ a.targetLayers = k ∧
      (a.rightToLeft = true ↔ t.center < s.center) ∧
      (a.reversed.rightToLeft = true ↔ s.center < t.center) := by
  have hnames : source ≠ target := by
    rintro rfl
    rw [hs, Option.some.injEq] at ht
    exact hne (congrArg (·.center.rank) ht)
  let start : Anchor := ⟨s.center, j⟩
  let stop : Anchor := ⟨t.center, k⟩
  have hreversed : Arrow.between config false ⟨o.center, i⟩ stop start =
      (Arrow.between config false ⟨o.center, i⟩ start stop).reversed :=
    Arrow.between_reversed hsource htarget hne
  refine ⟨.between config false ⟨o.center, i⟩ start stop, ?_, ?_, rfl, rfl, rfl, rfl, ?_, ?_⟩
  · rw [layoutArrow, ArrowEnd.anchor_of_get? ho, ArrowEnd.anchor_of_get? hs,
      ArrowEnd.anchor_of_get? ht, decide_eq_false hnames]
    rfl
  · rw [layoutArrow, ArrowEnd.anchor_of_get? ho, ArrowEnd.anchor_of_get? hs,
      ArrowEnd.anchor_of_get? ht, decide_eq_false hnames.symm, ← hreversed]
    rfl
  · rw [Arrow.rightToLeft_between hsource htarget, decide_eq_true_eq]
  · rw [← hreversed, Arrow.rightToLeft_between htarget hsource, decide_eq_true_eq]

/-- The bars on the lifeline of `B` reach over that of `A`. -/
theorem reversed_under_a_wide_stack :
    let c : Coordinates := ⟨[⟨⟨"A", 10, 80, 0⟩, 40, 0⟩, ⟨⟨"B", 10, 80, 0⟩, 140, 0⟩]⟩
    ∃ a, layoutArrow c .standard ⟨"B", 20⟩ ⟨"A", 0⟩ ⟨"B", 20⟩ = .ok a ∧
      layoutArrow c .standard ⟨"B", 20⟩ ⟨"B", 20⟩ ⟨"A", 0⟩ = .ok a.reversed ∧
      a.rightToLeft = false ∧ a.reversed.rightToLeft = true := by
  intro c
  have ho : c.get? "B" = some ⟨⟨"B", 10, 80, 0⟩, 140, 0⟩ := by decide +kernel
  have hs : c.get? "A" = some ⟨⟨"A", 10, 80, 0⟩, 40, 0⟩ := by decide +kernel
  have hlt : (40 : Binary32) < 140 := by decide +kernel
  obtain ⟨a, ha, hreversed, -, -, -, -, hforward, hback⟩ :=
    reversed_arrow ho hs ho (by decide +kernel) (by decide +kernel) (by decide +kernel) 20 0 20
  have hnot : ¬ (140 : Binary32) < 40 := by decide +kernel
  exact ⟨a, ha, hreversed, Bool.eq_false_iff.mpr (mt hforward.mp hnot), hback.mpr hlt⟩

end SequenceDiagram
