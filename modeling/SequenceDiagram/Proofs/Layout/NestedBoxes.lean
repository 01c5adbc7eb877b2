import SequenceDiagram.Proofs.Layout.Precision
import SequenceDiagram.Proofs.Syntax.Nesting

namespace SequenceDiagram

open Binary32

/-!
# Boxes inside boxes

A fragment inside another one has no participant that the outer one lacks, and fewer levels. So its
box starts from lifelines between those of the outer box, and its border is not wider. What is left
is the least width of a box, which only moves its right side.

* `Coordinates.extremes?_mono`: more participants have their extremes further out.
* `FragmentBox.border_mono`: more levels have a border that is not thinner.
* `FragmentBox.right_le_iff` and `left_le` compare the two boxes.
* `nested_boxes` is the result for layouts.
-/

/-! ### Extremes -/

namespace Coordinates

variable {c : Coordinates} {names names' : List String} {l l' r r' : Lifeline}

/-- The extremes are the first and the last of the lifelines. -/
theorem extremes?_eq_some (h : c.extremes? names = some (l, r)) :
    ∃ i j, c.lifelines[i]? = some l ∧ c.lifelines[j]? = some r ∧
      i ∈ names.filterMap c.indexOf? ∧ j ∈ names.filterMap c.indexOf? ∧
      ∀ k ∈ names.filterMap c.indexOf?, i ≤ k ∧ k ≤ j := by
  unfold extremes? at h
  obtain ⟨i, hi, h⟩ := Option.bind_eq_some_iff.mp h
  obtain ⟨j, hj, h⟩ := Option.bind_eq_some_iff.mp h
  obtain ⟨first, hfirst, h⟩ := Option.bind_eq_some_iff.mp h
  obtain ⟨last, hlast, h⟩ := Option.bind_eq_some_iff.mp h
  cases h
  obtain ⟨himem, hleast⟩ := List.min?_eq_some_iff.mp hi
  obtain ⟨hjmem, hlargest⟩ := List.max?_eq_some_iff.mp hj
  exact ⟨i, j, hfirst, hlast, himem, hjmem, fun k hk => ⟨hleast k hk, hlargest k hk⟩⟩

/-- More participants have their extremes further out. -/
theorem extremes?_mono (hsub : names ⊆ names') (h : c.extremes? names = some (l, r))
    (h' : c.extremes? names' = some (l', r')) :
    (∃ i' i : Nat, i' ≤ i ∧ c.lifelines[i']? = some l' ∧ c.lifelines[i]? = some l) ∧
      ∃ j j' : Nat, j ≤ j' ∧ c.lifelines[j]? = some r ∧ c.lifelines[j']? = some r' := by
  obtain ⟨i, j, hl, hr, hi, hj, _⟩ := extremes?_eq_some h
  obtain ⟨i', j', hl', hr', _, _, hbounds⟩ := extremes?_eq_some h'
  -- a larger set of places has the smaller minimum and the larger maximum
  have hplaces : names.filterMap c.indexOf? ⊆ names'.filterMap c.indexOf? := by
    intro k hk
    obtain ⟨name, hname, hindex⟩ := List.mem_filterMap.mp hk
    exact List.mem_filterMap.mpr ⟨name, hsub hname, hindex⟩
  exact ⟨⟨i', i, (hbounds i (hplaces hi)).1, hl', hl⟩, ⟨j, j', (hbounds j (hplaces hj)).2, hr, hr'⟩⟩

end Coordinates

/-! ### Two boxes -/

namespace FragmentBox

/-- A box that has a place lies around the extremes of those who take part. -/
theorem of_ok {c : Coordinates} {config : LayoutConfig} {f : FragmentTree} {depth : Nat}
    {box : FragmentBox} (h : FragmentBox.of c config f depth = .ok box) :
    ∃ l r origin, ArrowEnd.anchor c ⟨f.fragment.origin, depth⟩ = .ok origin ∧
      c.extremes? f.fragment.participants = some (l, r) ∧
      box = around config (nestingLevels f.sections + 1) origin l r := by
  unfold FragmentBox.of at h
  split at h
  · cases h
  · next l r hextremes =>
    cases hanchor : ArrowEnd.anchor c ⟨f.fragment.origin, depth⟩ with
    | error reason =>
      rw [hanchor] at h
      cases h
    | ok origin =>
      rw [hanchor] at h
      cases h
      exact ⟨l, r, origin, rfl, hextremes, rfl⟩

/-- The border of a box, on either side. -/
def border (config : LayoutConfig) (levels : Nat) : Binary32 :=
  config.fragmentPadding * .ofNat levels

variable {config : LayoutConfig} {levels levels' : Nat} {origin origin' : Anchor}
  {l l' r r' : Lifeline}

theorem border_nonneg (h : config.validate = .ok config) (hlevels : levels ≤ Nat.pow 2 64) :
    0 ≤ border config levels :=
  Binary32.mul_nonneg (LayoutConfig.size_nonneg h .fragmentPadding) (ofNat_nonneg levels)
    (LayoutConfig.size_isFinite h .fragmentPadding) (isFinite_ofNat hlevels)

/-- More levels have a border that is not thinner. -/
theorem border_mono (h : config.validate = .ok config) (hle : levels ≤ levels')
    (hlevels : levels' ≤ Nat.pow 2 64) : border config levels ≤ border config levels' :=
  Binary32.mul_le_mul_left (LayoutConfig.size_nonneg h .fragmentPadding)
    (LayoutConfig.size_isFinite h .fragmentPadding) (ofNat_nonneg levels) (ofNat_le_ofNat hle)
    (isFinite_ofNat hlevels)

/-- The right side is that of the rightmost box with the border, or what the least width asks
    for. -/
theorem right_around : (around config levels origin l r).right =
    max (r.boxRight + border config levels)
      ((around config levels origin l r).left + config.fragmentMinWidth) := rfl

theorem left_around :
    (around config levels origin l r).left = l.boxLeft - border config levels := rfl

/-- **The right side of an inner box sticks out only if its least width does.** -/
theorem right_le_iff (hr : 0 ≤ r.boxRight) (hle : r.boxRight ≤ r'.boxRight)
    (hborder : 0 ≤ border config levels) (hborders : border config levels ≤ border config levels') :
    (around config levels origin l r).right ≤ (around config levels' origin' l' r').right ↔
      ¬ (around config levels' origin' l' r').right <
        (around config levels origin l r).left + config.fragmentMinWidth := by
  -- the rightmost lifelines and the borders never let the inner box stick out
  have hsum := Binary32.add_nonneg hr hborder
  have hsum' := Binary32.add_nonneg (nonneg_of_le hr hle) (nonneg_of_le hborder hborders)
  have hside : r.boxRight + border config levels ≤ (around config levels' origin' l' r').right :=
    calc r.boxRight + border config levels ≤ r'.boxRight + border config levels' :=
          Binary32.add_le_add hle hborders (ne_nan_of_le_right hsum) (ne_nan_of_le_right hsum')
      _ ≤ _ := Binary32.le_max_left (ne_nan_of_le_right hsum') _
  have houter := ne_nan_of_le_right hside
  by_cases hleast : (around config levels origin l r).left + config.fragmentMinWidth = nan
  · -- what is not a number is passed over, and is not larger than anything
    refine iff_of_true ?_ ?_
    · rw [right_around, hleast, max_nan_right]
      exact hside
    · rw [hleast]
      exact not_lt_nan
  · rw [Binary32.not_lt houter hleast]
    constructor
    · intro h
      rw [right_around] at h
      exact Binary32.le_trans (Binary32.le_max_right _ hleast) h
    · intro h
      rw [right_around]
      exact Binary32.max_le hside h

/-- **The left side of an inner box stays inside**, if the boxes of the lifelines are in order. -/
theorem left_le (hle : l'.boxLeft ≤ l.boxLeft) (hfin : l.boxLeft.isFinite)
    (hfin' : l'.boxLeft.isFinite) (hborders : border config levels ≤ border config levels') :
    (around config levels' origin' l' r').left ≤ (around config levels origin l r).left := by
  rw [left_around, left_around]
  exact Binary32.sub_le_sub hle hfin' hfin hborders

end FragmentBox

/-! ### Layouts -/

/-- A fragment in its place is one of the document, and its box is the one around it. -/
theorem exists_fragment_of_mem_layout {measure : TextMeasure} {config : LayoutConfig}
    {source : String} {version : Nat} {starter : Option String} {p : FragmentLayout}
    (h : p ∈ (computeLayout measure config source version starter).fragments) :
    ∃ f ∈ (interpret (parse source) starter).document.fragments, p.id = f.fragment.id ∧
      ∃ l r origin, (computeLayout measure config source version starter).coordinates.extremes?
          f.fragment.participants = some (l, r) ∧
        p.box = .around config (nestingLevels f.sections + 1) origin l r := by
  rw [computeLayout_eq] at h ⊢
  obtain ⟨f, hf, hplace⟩ := List.mem_map.mp (mem_placed.mp h)
  obtain ⟨conditionWidth, heq⟩ := fragmentLayout_eq measure config
    (sourceCoordinates measure config source version starter)
    (sourceDocument source version starter) f
  rw [heq] at hplace
  cases hbox : FragmentBox.of (sourceCoordinates measure config source version starter) config f
      ((sourceDocument source version starter).depth f.fragment.id f.fragment.origin) with
  | error reason =>
    rw [hbox] at hplace
    cases hplace
  | ok box =>
    rw [hbox] at hplace
    cases hplace
    obtain ⟨l, r, origin, -, hextremes, hbox⟩ := FragmentBox.of_ok hbox
    exact ⟨f, hf, rfl, l, r, origin, hextremes, hbox⟩

/-- **Boxes of fragments inside fragments.** The right side of the inner box sticks out exactly if
    the outer box ends before the least width that is added to the left side of the inner one. The
    left side stays inside if the boxes of the lifelines are in order, and so they are within the
    precision. -/
theorem nested_boxes {measure : TextMeasure} {config : LayoutConfig} {source : String}
    {version : Nat} {starter : Option String} (hconfig : config.validate = .ok config)
    (hsource : source.utf8ByteSize < Nat.pow 2 64) {inner outer : FragmentLayout}
    (hinner : inner ∈ (computeLayout measure config source version starter).fragments)
    (houter : outer ∈ (computeLayout measure config source version starter).fragments)
    (hancestor :
      outer.id ∈ (interpret (parse source) starter).document.ancestors inner.id) :
    (inner.box.right ≤ outer.box.right ↔
      ¬ outer.box.right < inner.box.left + config.fragmentMinWidth) ∧
    ((computeLayout measure config source version starter).coordinates.BoxesInOrder →
      outer.box.left ≤ inner.box.left) ∧
    ((computeLayout measure config source version starter).coordinates.WithinPrecision config →
      (computeLayout measure config source version starter).coordinates.BoxesInOrder) := by
  obtain ⟨f, hf, hfid, l, r, origin, hextremes, hbox⟩ := exists_fragment_of_mem_layout hinner
  obtain ⟨g, hg, hgid, l', r', origin', hextremes', hbox'⟩ := exists_fragment_of_mem_layout houter
  have hspaced :
      (computeLayout measure config source version starter).coordinates.Spaced config := by
    rw [computeLayout_eq]
    exact sourceCoordinates_spaced measure hconfig source version starter
  rw [hfid, hgid] at hancestor
  have hnested := (interpret_wellIndexed (parse source) starter).mem_fragmentsIn hf hg hancestor
  obtain ⟨⟨i', i, hii, hl', hl⟩, ⟨j, j', hjj, hr, hr'⟩⟩ :=
    Coordinates.extremes?_mono (participants_subset hg hnested) hextremes hextremes'
  -- the inner fragment has fewer levels, and both have few enough to count them
  have hlevels : nestingLevels f.sections + 1 ≤ nestingLevels g.sections + 1 :=
    Nat.succ_le_succ (Nat.le_of_lt (nestingLevels_lt hnested))
  have hfew : nestingLevels g.sections + 1 ≤ Nat.pow 2 64 :=
    Nat.lt_of_le_of_lt (nestingLevels_le hg) hsource
  have hborder := FragmentBox.border_nonneg hconfig (Nat.le_trans hlevels hfew)
  have hborders := FragmentBox.border_mono hconfig hlevels hfew
  rw [hbox, hbox']
  refine ⟨?_, fun horder => ?_, hspaced.boxesInOrder hconfig⟩
  · exact FragmentBox.right_le_iff (hspaced.boxRight_nonneg hconfig (List.mem_of_getElem? hr))
      (hspaced.boxRight_le hconfig hjj hr hr') hborder hborders
  · exact FragmentBox.left_le (horder.boxLeft_le hii hl' hl)
      (horder.finite l (List.mem_of_getElem? hl)) (horder.finite l' (List.mem_of_getElem? hl'))
      hborders

/-- With the default sizes an optional part stays inside the loop around it. -/
theorem optional_stays_inside_loop :
    let source := "loop (x) \x7b A->B: m\n opt \x7b B->B: y \x7d \x7d"
    let layout := computeLayout (approximateMeasure defaultCharRatio) .standard source 0 none
    ∃ inner ∈ layout.fragments, ∃ outer ∈ layout.fragments, inner.id = 2 ∧ outer.id = 0 ∧
      outer.box.left ≤ inner.box.left ∧ inner.box.right ≤ outer.box.right := by
  intro source layout
  have hconfig : LayoutConfig.standard.fault? = none := by decide +kernel
  have hids : layout.fragments.map (·.id) = [0, 2] := by decide +kernel
  have hleast : ∀ p ∈ layout.fragments, ∀ q ∈ layout.fragments,
      ¬ p.box.right < q.box.left + LayoutConfig.standard.fragmentMinWidth := by decide +kernel
  have hprec : ∀ l ∈ layout.coordinates.lifelines, l.center.isFinite ∧ l.center ≤
      2097152 * max LayoutConfig.standard.margin LayoutConfig.standard.minParticipantWidth := by
    decide +kernel
  have hparent : (interpret (parse source) none).document.parent? 2 = some 0 := by decide +kernel
  obtain ⟨outer, houter, hzero⟩ : ∃ p ∈ layout.fragments, p.id = 0 :=
    List.mem_map.mp (hids ▸ List.mem_cons_self)
  obtain ⟨inner, hinner, htwo⟩ : ∃ p ∈ layout.fragments, p.id = 2 :=
    List.mem_map.mp (hids ▸ List.mem_cons_of_mem _ List.mem_cons_self)
  have hancestor : outer.id ∈ (interpret (parse source) none).document.ancestors inner.id := by
    rw [hzero, htwo, (interpret_wellIndexed _ none).ancestors_eq, hparent]
    exact List.mem_cons_self
  obtain ⟨hright, hleft, horder⟩ := nested_boxes (by rw [LayoutConfig.validate, hconfig])
    (by decide +kernel) hinner houter hancestor
  exact ⟨inner, hinner, outer, houter, htwo, hzero, hleft (horder hprec),
    hright.mpr (hleast outer houter inner hinner)⟩

/-- With a larger least width it sticks out of the loop: the inner box is as wide as the outer one,
    and starts further to the right. -/
theorem optional_sticks_out_of_loop :
    let source := "loop (x) \x7b A->B: m\n opt \x7b B->B: y \x7d \x7d"
    let config : LayoutConfig := { fragmentMinWidth := 500 }
    let layout := computeLayout (approximateMeasure defaultCharRatio) config source 0 none
    config.fault? = none ∧ (interpret (parse source) none).document.parent? 2 = some 0 ∧
      layout.fragments.map (fun p => (p.id, p.box.left, p.box.right)) =
        [(0, -20, 480), (2, 90, 590)] := by
  decide +kernel

end SequenceDiagram
