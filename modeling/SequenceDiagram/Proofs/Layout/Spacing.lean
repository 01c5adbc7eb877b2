import SequenceDiagram.Proofs.Binary32.Arithmetic
import SequenceDiagram.Proofs.Layout.Afresh

namespace SequenceDiagram

open Binary32

/-!
# The lifelines stand apart

* `LayoutConfig.size_nonneg`: the sizes of a configuration that is let through are finite and not
  negative.
* `Coordinates.Spaced` says what the requirements of neighbours come to: no box starts left of zero,
  and the boxes of two neighbours and the margin fit between their lifelines.
* `sourceCoordinates_spaced` holds for every source and every measure of text, because a maximum
  passes over what is not a number.
* `Coordinates.Spaced.boxRight_le`: the right sides of the boxes are in the order of the lifelines.
-/

/-! ### Sizes -/

namespace LayoutConfig

variable {config : LayoutConfig}

/-- What a configuration that is let through keeps to. -/
theorem validate_ok (h : config.validate = .ok config) :
    (∀ size, isSize (config.get size) = true) ∧
      ¬ (config.margin ≤ 0 ∧ config.minParticipantWidth ≤ 0) ∧
      config.measureCacheCapacity ≠ 0 := by
  unfold validate fault? at h
  cases hfound : Size.all.find? fun size => !isSize (config.get size) with
  | some bad =>
    rw [hfound] at h
    cases h
  | none =>
    rw [hfound] at h
    refine ⟨fun size => ?_, fun hstep => ?_, fun hcapacity => ?_⟩
    · have hmem : size ∈ Size.all := by cases size <;> decide
      simpa using List.find?_eq_none.mp hfound size hmem
    · simp only [if_pos hstep] at h
      cases h
    · by_cases hstep : config.margin ≤ 0 ∧ config.minParticipantWidth ≤ 0
      · simp only [if_pos hstep] at h
        cases h
      · simp only [if_neg hstep, if_pos hcapacity] at h
        cases h

theorem size_isFinite (h : config.validate = .ok config) (size : Size) :
    (config.get size).isFinite :=
  (Bool.and_eq_true_iff.mp ((validate_ok h).1 size)).1

theorem size_nonneg (h : config.validate = .ok config) (size : Size) : 0 ≤ config.get size := by
  have hsize := (Bool.and_eq_true_iff.mp ((validate_ok h).1 size)).2
  have hnot : ¬ config.get size < 0 := by simpa using hsize
  have hzero : (0 : Binary32) ≠ nan := ne_nan_of_rank rank_zero
  exact (Binary32.not_lt (ne_nan_of_isFinite (size_isFinite h size)) hzero).mp hnot

end LayoutConfig

/-! ### Boxes -/

/-- No box is narrower than the configuration allows, whatever its label measures. -/
theorem Box.minParticipantWidth_le (measure : TextMeasure) {config : LayoutConfig}
    (h : config.minParticipantWidth ≠ nan) (ledger : Ledger) (layers : Document.Layers)
    (name : String) :
    config.minParticipantWidth ≤ (Box.of measure config ledger layers name).width :=
  Binary32.le_max_right _ h

/-- The box reaches at least half of its width to either side of the lifeline. -/
theorem Box.half_le_halfExtent {b : Box} (h : 0 ≤ b.width) : b.width.half ≤ b.halfExtent :=
  Binary32.le_max_left (ne_nan_of_le_right (half_nonneg h)) _

theorem Box.halfExtent_nonneg {b : Box} (h : 0 ≤ b.width) : 0 ≤ b.halfExtent :=
  Binary32.le_trans (half_nonneg h) (half_le_halfExtent h)

/-! ### Requirements -/

/-- The running maximum is at least every number that it meets. -/
theorem le_foldl_max {α : Type} (f : α → Binary32) (xs : List α) (start : Binary32) :
    (start ≠ nan → start ≤ xs.foldl (fun m x => max m (f x)) start) ∧
      ∀ x ∈ xs, f x ≠ nan → f x ≤ xs.foldl (fun m x => max m (f x)) start := by
  induction xs generalizing start with
  | nil => exact ⟨Binary32.le_refl, fun x hx => nomatch hx⟩
  | cons y rest ih =>
    obtain ⟨hstart, hrest⟩ := ih (max start (f y))
    -- the maximum passes over what is not a number, so it never becomes that
    refine ⟨fun h => ?_, fun x hx h => ?_⟩
    · have hle := Binary32.le_max_left h (f y)
      exact Binary32.le_trans hle (hstart (ne_nan_of_le_right hle))
    · rcases List.mem_cons.mp hx with rfl | hx
      · have hle := Binary32.le_max_right start h
        exact Binary32.le_trans hle (hstart (ne_nan_of_le_right hle))
      · exact hrest x hx h

/-- The next lifeline keeps the distance that a requirement asks for. -/
theorem le_nextCenter {reqs : List Requirement} {centers : List Binary32} {r : Requirement}
    (hr : r ∈ reqs) (hright : r.right = centers.length)
    (h : centers.getD r.left 0 + r.distance ≠ nan) :
    centers.getD r.left 0 + r.distance ≤ nextCenter reqs centers := by
  have hmem : r ∈ reqs.filter fun r => r.right = centers.length :=
    List.mem_filter.mpr ⟨hr, decide_eq_true hright⟩
  exact (le_foldl_max (fun r => centers.getD r.left 0 + r.distance) _ _).2 r hmem h

/-- A lifeline behind the first is placed by the centers to the left of it. -/
theorem centers_step_getD {reqs : List Requirement} {boxes : List Box} {i j : Nat} {x x' : Binary32}
    (hij : i < j) (hx : (centers reqs boxes)[i]? = some x)
    (hx' : (centers reqs boxes)[j]? = some x') :
    x' = nextCenter reqs ((centers reqs boxes).take j) ∧
      ((centers reqs boxes).take j).length = j ∧
      ((centers reqs boxes).take j).getD i 0 = x := by
  obtain ⟨hlt, _⟩ := List.getElem?_eq_some_iff.mp hx'
  have hlength := length_centers reqs boxes
  have hstep := centers_step reqs boxes (Nat.zero_lt_of_lt hij) (hlength ▸ hlt)
  rw [hx', Option.some.injEq] at hstep
  refine ⟨hstep, List.length_take_of_le (Nat.le_of_lt hlt), ?_⟩
  rw [List.getD_eq_getElem?_getD, List.getElem?_take_of_lt hij, hx]
  rfl

/-- Every requirement is kept. -/
theorem le_centers {reqs : List Requirement} {boxes : List Box} {r : Requirement} {x x' : Binary32}
    (hr : r ∈ reqs) (hlt : r.left < r.right) (hx : (centers reqs boxes)[r.left]? = some x)
    (hx' : (centers reqs boxes)[r.right]? = some x') (h : x + r.distance ≠ nan) :
    x + r.distance ≤ x' := by
  -- the right one is placed by all requirements on it, and this is one of them
  obtain ⟨rfl, hlength, hget⟩ := centers_step_getD hlt hx hx'
  have hle := le_nextCenter hr hlength.symm (by rwa [hget])
  rwa [hget] at hle

theorem mem_neighbourRequirements {config : LayoutConfig} {boxes : List Box} {i : Nat} {b b' : Box}
    (hb : boxes[i]? = some b) (hb' : boxes[i + 1]? = some b') :
    ⟨i, i + 1, b.halfExtent + b'.halfExtent + config.margin⟩ ∈
      neighbourRequirements config boxes := by
  refine List.mem_map.mpr ⟨((b, b'), i), ?_, rfl⟩
  rw [List.mem_zipIdx_iff_getElem?, List.getElem?_zip_eq_some]
  exact ⟨hb, by rw [List.getElem?_tail]; exact hb'⟩

/-- Two neighbours keep their distance. -/
theorem centers_apart {config : LayoutConfig} {boxes : List Box} {arrows : List LabelledArrow}
    {i : Nat} {b b' : Box} {x x' : Binary32} (hb : boxes[i]? = some b)
    (hb' : boxes[i + 1]? = some b')
    (hx : (centers (requirements config boxes arrows) boxes)[i]? = some x)
    (hx' : (centers (requirements config boxes arrows) boxes)[i + 1]? = some x')
    (h : x + (b.halfExtent + b'.halfExtent + config.margin) ≠ nan) :
    x + (b.halfExtent + b'.halfExtent + config.margin) ≤ x' := by
  have hreq : ⟨i, i + 1, b.halfExtent + b'.halfExtent + config.margin⟩ ∈
      requirements config boxes arrows :=
    List.mem_append_left _ (mem_neighbourRequirements hb hb')
  exact le_centers hreq (Nat.lt_succ_self i) hx hx' h

/-! ### The table -/

namespace Coordinates

/-- What the requirements of neighbours come to. -/
structure Spaced (config : LayoutConfig) (c : Coordinates) : Prop where
  /-- No box is narrower than the configuration allows. -/
  wide : ∀ l ∈ c.lifelines, config.minParticipantWidth ≤ l.box.width
  /-- Nothing reaches to the left of zero. -/
  reaches : ∀ l ∈ c.lifelines, l.box.halfExtent ≤ l.center
  /-- The boxes of two neighbours and the margin fit between their lifelines. -/
  apart : ∀ i l l', c.lifelines[i]? = some l → c.lifelines[i + 1]? = some l' →
    l.center + (l.box.halfExtent + l'.box.halfExtent + config.margin) ≤ l'.center

theorem getElem?_place {config : LayoutConfig} {boxes : List Box} {arrows : List LabelledArrow}
    {i : Nat} {l : Lifeline} (h : (place config boxes arrows).lifelines[i]? = some l) :
    boxes[i]? = some l.box ∧
      (centers (requirements config boxes arrows) boxes)[i]? = some l.center := by
  rw [place, List.getElem?_map, List.getElem?_zipIdx] at h
  simp only [Option.map_map, Option.map_eq_some_iff] at h
  obtain ⟨⟨b, x⟩, hzip, rfl⟩ := h
  exact List.getElem?_zip_eq_some.mp hzip

section Place

variable {config : LayoutConfig} {boxes : List Box} {arrows : List LabelledArrow}

/-- A lifeline stands at least as far to the right as its box reaches to the left. -/
theorem halfExtent_le_center (h : config.validate = .ok config)
    (hextent : ∀ b ∈ boxes, 0 ≤ b.halfExtent) {i : Nat} {b : Box} {x : Binary32}
    (hb : boxes[i]? = some b)
    (hx : (centers (requirements config boxes arrows) boxes)[i]? = some x) :
    b.halfExtent ≤ x := by
  -- by induction from left to right: the distance to the neighbour alone is that large
  induction i generalizing b x with
  | zero =>
    cases boxes with
    | nil => cases hb
    | cons first rest =>
      rw [centers_zero] at hx
      cases hb
      cases hx
      exact Binary32.le_refl (ne_nan_of_le_right (hextent _ List.mem_cons_self))
  | succ i ih =>
    obtain ⟨hlt, _⟩ := List.getElem?_eq_some_iff.mp hb
    obtain ⟨hlt', _⟩ := List.getElem?_eq_some_iff.mp hx
    have ha : boxes[i]? = some boxes[i] := List.getElem?_eq_getElem _
    have hy := List.getElem?_eq_getElem (Nat.lt_of_succ_lt hlt')
    have ha0 := hextent _ (List.mem_of_getElem? ha)
    have hb0 := hextent b (List.mem_of_getElem? hb)
    have hy0 := nonneg_of_le ha0 (ih ha hy)
    have hboth := Binary32.add_nonneg ha0 hb0
    have hmargin : 0 ≤ config.margin := LayoutConfig.size_nonneg h .margin
    have hdistance := Binary32.add_nonneg hboth hmargin
    calc b.halfExtent ≤ boxes[i].halfExtent + b.halfExtent := Binary32.le_add_left ha0 hb0
      _ ≤ boxes[i].halfExtent + b.halfExtent + config.margin := Binary32.le_add_right hboth hmargin
      _ ≤ _ := Binary32.le_add_left hy0 hdistance
      _ ≤ x := centers_apart ha hb hy hx (add_ne_nan_of_nonneg hy0 hdistance)

/-- **The lifelines are spaced**, whatever the labels measure. -/
theorem place_spaced (h : config.validate = .ok config)
    (hboxes : ∀ b ∈ boxes, config.minParticipantWidth ≤ b.width) :
    (place config boxes arrows).Spaced config := by
  have hextent : ∀ b ∈ boxes, 0 ≤ b.halfExtent := by
    intro b hb
    have hleast : 0 ≤ config.minParticipantWidth := LayoutConfig.size_nonneg h .minParticipantWidth
    exact Box.halfExtent_nonneg (nonneg_of_le hleast (hboxes b hb))
  refine ⟨fun l hl => ?_, fun l hl => ?_, fun i l l' hl hl' => ?_⟩
  · obtain ⟨i, hi⟩ := List.mem_iff_getElem?.mp hl
    exact hboxes _ (List.mem_of_getElem? (getElem?_place hi).1)
  · obtain ⟨i, hi⟩ := List.mem_iff_getElem?.mp hl
    exact halfExtent_le_center h hextent (getElem?_place hi).1 (getElem?_place hi).2
  · obtain ⟨hb, hx⟩ := getElem?_place hl
    obtain ⟨hb', hx'⟩ := getElem?_place hl'
    have hb0 := hextent _ (List.mem_of_getElem? hb)
    have hb0' := hextent _ (List.mem_of_getElem? hb')
    have hx0 := nonneg_of_le hb0 (halfExtent_le_center h hextent hb hx)
    have hmargin : 0 ≤ config.margin := LayoutConfig.size_nonneg h .margin
    exact centers_apart hb hb' hx hx'
      (add_ne_nan_of_nonneg hx0 (Binary32.add_nonneg (Binary32.add_nonneg hb0 hb0') hmargin))

end Place

end Coordinates

/-- The lifelines of every source are spaced. -/
theorem sourceCoordinates_spaced (measure : TextMeasure) {config : LayoutConfig}
    (h : config.validate = .ok config) (source : String) (version : Nat)
    (starter : Option String) :
    (sourceCoordinates measure config source version starter).Spaced config := by
  have hfinite : config.minParticipantWidth ≠ nan :=
    ne_nan_of_isFinite (LayoutConfig.size_isFinite h .minParticipantWidth)
  rw [sourceCoordinates, Coordinates.ofDocument_eq]
  refine Coordinates.place_spaced h fun b hb => ?_
  obtain ⟨p, _, rfl⟩ := List.mem_map.mp hb
  exact Box.minParticipantWidth_le measure hfinite _ _ _

/-! ### Sides of boxes -/

/-- The left side of the box of a lifeline. -/
def Lifeline.boxLeft (l : Lifeline) : Binary32 := l.center - l.box.width.half

/-- The right side of the box of a lifeline. -/
def Lifeline.boxRight (l : Lifeline) : Binary32 := l.center + l.box.width.half

/-- What holds of neighbours in a list holds of all its elements in their order. -/
theorem rel_of_neighbours {α : Type} {r : α → α → Prop} {xs : List α}
    (hrefl : ∀ x ∈ xs, r x x) (htrans : ∀ x y z, r x y → r y z → r x z)
    (hstep : ∀ i x y, xs[i]? = some x → xs[i + 1]? = some y → r x y) {i j : Nat} {x y : α}
    (hij : i ≤ j) (hx : xs[i]? = some x) (hy : xs[j]? = some y) : r x y := by
  induction hij generalizing y with
  | refl =>
    rw [hx] at hy
    cases hy
    exact hrefl x (List.mem_of_getElem? hx)
  | step hij ih =>
    obtain ⟨hlt, _⟩ := List.getElem?_eq_some_iff.mp hy
    have hz := List.getElem?_eq_getElem (Nat.lt_of_succ_lt hlt)
    exact htrans x _ y (ih hz) (hstep _ _ y hz hy)

namespace Coordinates.Spaced

variable {config : LayoutConfig} {c : Coordinates} {l l' : Lifeline}

theorem width_nonneg (h : c.Spaced config) (hconfig : config.validate = .ok config)
    (hl : l ∈ c.lifelines) : 0 ≤ l.box.width :=
  nonneg_of_le (LayoutConfig.size_nonneg hconfig .minParticipantWidth) (h.wide l hl)

theorem halfExtent_nonneg (h : c.Spaced config) (hconfig : config.validate = .ok config)
    (hl : l ∈ c.lifelines) : 0 ≤ l.box.halfExtent :=
  Box.halfExtent_nonneg (h.width_nonneg hconfig hl)

theorem center_nonneg (h : c.Spaced config) (hconfig : config.validate = .ok config)
    (hl : l ∈ c.lifelines) : 0 ≤ l.center :=
  nonneg_of_le (h.halfExtent_nonneg hconfig hl) (h.reaches l hl)

/-- No box starts left of zero. -/
theorem half_le_center (h : c.Spaced config) (hconfig : config.validate = .ok config)
    (hl : l ∈ c.lifelines) : l.box.width.half ≤ l.center :=
  Binary32.le_trans (Box.half_le_halfExtent (h.width_nonneg hconfig hl)) (h.reaches l hl)

theorem boxRight_nonneg (h : c.Spaced config) (hconfig : config.validate = .ok config)
    (hl : l ∈ c.lifelines) : 0 ≤ l.boxRight :=
  Binary32.add_nonneg (h.center_nonneg hconfig hl) (half_nonneg (h.width_nonneg hconfig hl))

/-- **The right sides of the boxes are in order**, even where sums overflow. -/
theorem boxRight_le (h : c.Spaced config) (hconfig : config.validate = .ok config) {i j : Nat}
    (hij : i ≤ j) (hl : c.lifelines[i]? = some l) (hl' : c.lifelines[j]? = some l') :
    l.boxRight ≤ l'.boxRight := by
  refine rel_of_neighbours (r := fun l l' : Lifeline => l.boxRight ≤ l'.boxRight)
    (fun l hl => ?_) (fun l l' l'' => Binary32.le_trans) (fun i l l' hi hi' => ?_) hij hl hl'
  · exact Binary32.le_refl (ne_nan_of_le_right (h.boxRight_nonneg hconfig hl))
  · have hl := List.mem_of_getElem? hi
    have hl' := List.mem_of_getElem? hi'
    have hc := h.center_nonneg hconfig hl
    have he := h.halfExtent_nonneg hconfig hl
    have he' := h.halfExtent_nonneg hconfig hl'
    have hmargin : 0 ≤ config.margin := LayoutConfig.size_nonneg hconfig .margin
    have hhalf := half_nonneg (h.width_nonneg hconfig hl)
    have hextent := Box.half_le_halfExtent (h.width_nonneg hconfig hl)
    have hdistance := Binary32.add_nonneg (Binary32.add_nonneg he he') hmargin
    -- half of the box fits into the distance, and the next center is that far away
    have hwithin : l.box.width.half ≤ l.box.halfExtent + l'.box.halfExtent + config.margin :=
      calc l.box.width.half ≤ l.box.halfExtent := hextent
        _ ≤ l.box.halfExtent + l'.box.halfExtent := Binary32.le_add_right he he'
        _ ≤ _ := Binary32.le_add_right (Binary32.add_nonneg he he') hmargin
    calc l.center + l.box.width.half
        ≤ l.center + (l.box.halfExtent + l'.box.halfExtent + config.margin) :=
          Binary32.add_le_add (Binary32.le_refl (ne_nan_of_le_right hc)) hwithin
            (add_ne_nan_of_nonneg hc hhalf) (add_ne_nan_of_nonneg hc hdistance)
      _ ≤ l'.center := h.apart i l l' hi hi'
      _ ≤ l'.center + l'.box.width.half :=
          Binary32.le_add_right (h.center_nonneg hconfig hl')
            (half_nonneg (h.width_nonneg hconfig hl'))

end Coordinates.Spaced

end SequenceDiagram
