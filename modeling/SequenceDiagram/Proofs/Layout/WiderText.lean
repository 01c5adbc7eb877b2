import Mathlib.Data.List.Forall2
import SequenceDiagram.Proofs.Layout.LeastCenters

namespace SequenceDiagram

open Binary32

/-!
# Wider text

If every text is at least as wide as before, then no lifeline moves to the left and nothing on it
becomes smaller.

* `Coordinates.Asks.exists_wider`: whatever is asked of the table under the narrower texts, the
  wider ones ask for at least as much.
* So the places under the wider texts keep what the narrower ones ask for, and the least places that
  do so are not further to the right (`Coordinates.center_mono`).
* `Lifeline.Within` compares two lifelines, and `wider_text_pulls_nothing_left` is the result for
  layouts.
-/

/-! ### The larger number -/

namespace Binary32

variable {x y x' y' : Binary32}

theorem max_le_max (hx : x ≤ x') (hy : y ≤ y') : max x y ≤ max x' y' :=
  Binary32.max_le (Binary32.le_trans hx (Binary32.le_max_left (ne_nan_of_le_right hx) y'))
    (Binary32.le_trans hy (Binary32.le_max_right x' (ne_nan_of_le_right hy)))

/-- The other number may be anything, even not-a-number. -/
theorem max_le_max_right (hx : x ≤ x') (y : Binary32) : max x y ≤ max x' y := by
  by_cases hy : y = nan
  · rw [hy, max_nan_right, max_nan_right]
    exact hx
  · exact max_le_max hx (Binary32.le_refl hy)

theorem foldl_max_mono {xs ys : List Binary32} (h : List.Forall₂ (· ≤ ·) xs ys) (hx : x ≤ x') :
    xs.foldl max x ≤ ys.foldl max x' := by
  induction h generalizing x x' with
  | nil => exact hx
  | cons hy _ ih => exact ih (max_le_max hx hy)

/-- Sums of numbers that are not negative are monotone. -/
theorem add_mono (hx0 : 0 ≤ x) (hy0 : 0 ≤ y) (hx : x ≤ x') (hy : y ≤ y') : x + y ≤ x' + y' :=
  Binary32.add_le_add hx hy (add_ne_nan_of_nonneg hx0 hy0)
    (add_ne_nan_of_nonneg (nonneg_of_le hx0 hx) (nonneg_of_le hy0 hy))

end Binary32

/-! ### Boxes and labels -/

/-- Every text is at least as wide under the second measure, and none has a negative width. -/
structure TextMeasure.AtMost (narrow wide : TextMeasure) : Prop where
  nonneg : ∀ text style, 0 ≤ narrow text style
  le : ∀ text style, narrow text style ≤ wide text style

section Measures

variable {narrow wide : TextMeasure} (h : narrow.AtMost wide)

include h

theorem TextMeasure.AtMost.wide_nonneg (text : String) (style : TextStyle) :
    0 ≤ wide text style := nonneg_of_le (h.nonneg text style) (h.le text style)

theorem signatureWidth_mono (signature : String) :
    signatureWidth narrow signature ≤ signatureWidth wide signature := by
  unfold signatureWidth
  split
  · exact Binary32.le_refl (ne_nan_of_rank rank_zero)
  · exact h.le _ _

/-- The label of a lifeline is not narrower, and neither width is negative. -/
theorem labelWidth_of_mono (config : LayoutConfig) (ledger : Ledger) (layers : Document.Layers)
    (name : String) : 0 ≤ (Box.of narrow config ledger layers name).labelWidth ∧
      (Box.of narrow config ledger layers name).labelWidth ≤
        (Box.of wide config ledger layers name).labelWidth := by
  show 0 ≤ Id.run (Gauge.labelWidth _ _ _) ∧
    Id.run (Gauge.labelWidth _ _ _) ≤ Id.run (Gauge.labelWidth _ _ _)
  unfold Gauge.labelWidth
  split
  · have hzero := Binary32.le_refl (ne_nan_of_rank rank_zero)
    exact ⟨hzero, hzero⟩
  · exact ⟨h.nonneg _ _, h.le _ _⟩

variable {config : LayoutConfig} (hconfig : config.validate = .ok config)

include hconfig

/-- A box with a wider label is not narrower. -/
theorem Box.width_mono (ledger : Ledger) (layers : Document.Layers) (name : String) :
    (Box.of narrow config ledger layers name).width ≤
      (Box.of wide config ledger layers name).width := by
  have hpadding := LayoutConfig.size_nonneg hconfig .participantPadding
  obtain ⟨hlabel0, hlabel⟩ := labelWidth_of_mono h config ledger layers name
  -- the declared width and the least width are the same, whatever the label measures
  exact max_le_max_right (max_le_max_right
    (add_mono hlabel0 hpadding hlabel (Binary32.le_refl (ne_nan_of_le_right hpadding))) _) _

/-- The bars are the same, so the reach of box and bars is not smaller. -/
theorem Box.halfExtent_mono (ledger : Ledger) (layers : Document.Layers) (name : String) :
    (Box.of narrow config ledger layers name).halfExtent ≤
      (Box.of wide config ledger layers name).halfExtent := by
  have hleast := Box.minParticipantWidth_le narrow
    (ne_nan_of_isFinite (LayoutConfig.size_isFinite hconfig .minParticipantWidth)) ledger layers name
  have hwidth := nonneg_of_le (LayoutConfig.size_nonneg hconfig .minParticipantWidth) hleast
  exact max_le_max_right (half_le_half hwidth (Box.width_mono h hconfig ledger layers name)) _

end Measures

/-! ### Two tables of one document -/

namespace Coordinates

variable {narrow wide : TextMeasure} {config : LayoutConfig} {order : List OrderedParticipant}
  {ledger : Ledger} {d : Document}

/-- A lifeline has the box of the participant with its number. -/
theorem exists_box_of {measure : TextMeasure} {i : Nat} {l : Lifeline}
    (hl : (ofDocument measure config order ledger d).lifelines[i]? = some l) :
    ∃ p, order[i]? = some p ∧ l.box = Box.of measure config ledger d.layers p.name := by
  have hbox := getElem?_boxes measure config order ledger d i
  rw [hl, Option.map_some, List.getElem?_map, Option.map_eq_some_iff] at hbox
  obtain ⟨p, hp, hbox⟩ := hbox
  exact ⟨p, hp, hbox.symm⟩

/-- The measure of text decides nothing about who has a lifeline, nor in which order. -/
theorem names_eq (narrow wide : TextMeasure) (config : LayoutConfig)
    (order : List OrderedParticipant) (ledger : Ledger) (d : Document) :
    (ofDocument narrow config order ledger d).lifelines.map (·.name) =
      (ofDocument wide config order ledger d).lifelines.map (·.name) := by
  rw [map_name_ofDocument, map_name_ofDocument]

/-- The lifeline with the same number in the other table. -/
theorem exists_partner {i : Nat} {l : Lifeline}
    (hl : (ofDocument narrow config order ledger d).lifelines[i]? = some l) (wide : TextMeasure) :
    ∃ l', (ofDocument wide config order ledger d).lifelines[i]? = some l' := by
  obtain ⟨hlt, -⟩ := List.getElem?_eq_some_iff.mp hl
  have hlength := congrArg List.length (names_eq narrow wide config order ledger d)
  rw [List.length_map, List.length_map] at hlength
  exact ⟨_, List.getElem?_eq_getElem (hlength ▸ hlt)⟩

/-- How far the labels of messages to oneself reach, from a list of widths. -/
theorem selfCallReach_eq {measure : TextMeasure} {i : Nat} {l : Lifeline}
    (hl : (ofDocument measure config order ledger d).lifelines[i]? = some l) :
    l.selfCallReach = (((d.messages.filterMap (arrowEnds? order)).filter
      fun ends => ends.1 = ends.2.1 && ends.1 == i).map
        fun ends => signatureWidth measure ends.2.2 + config.selfCallWidth).foldl max 0 := by
  rw [ofDocument_eq, place, List.getElem?_map, List.getElem?_zipIdx] at hl
  simp only [Option.map_map, Option.map_eq_some_iff] at hl
  obtain ⟨_, -, rfl⟩ := hl
  show SequenceDiagram.selfCallReach config (LabelledArrow.all measure order d) (0 + i) = _
  rw [SequenceDiagram.selfCallReach, LabelledArrow.all, List.filter_map, List.foldl_map,
    List.foldl_map, Nat.zero_add]
  simp only [signatureWidth_eq]
  rfl

section Wider

variable (h : narrow.AtMost wide) (hconfig : config.validate = .ok config)

include h hconfig

theorem halfExtent_mono {i : Nat} {l l' : Lifeline}
    (hl : (ofDocument narrow config order ledger d).lifelines[i]? = some l)
    (hl' : (ofDocument wide config order ledger d).lifelines[i]? = some l') :
    l.box.width ≤ l'.box.width ∧ l.box.halfExtent ≤ l'.box.halfExtent := by
  obtain ⟨p, hp, hbox⟩ := exists_box_of hl
  obtain ⟨p', hp', hbox'⟩ := exists_box_of hl'
  rw [hp, Option.some.injEq] at hp'
  subst hp'
  rw [hbox, hbox']
  exact ⟨Box.width_mono h hconfig _ _ _, Box.halfExtent_mono h hconfig _ _ _⟩

/-- **Wider texts ask for at least as much**, of the same two lifelines. -/
theorem Asks.exists_wider {r : Requirement}
    (hspaced : (ofDocument narrow config order ledger d).Spaced config)
    (hr : (ofDocument narrow config order ledger d).Asks narrow config d r) :
    ∃ distance, r.distance ≤ distance ∧
      (ofDocument wide config order ledger d).Asks wide config d ⟨r.left, r.right, distance⟩ := by
  have hindex := indexOf?_eq (map_name_ofDocument narrow config order ledger d)
  have hindex' := indexOf?_eq (map_name_ofDocument wide config order ledger d)
  have hsize (size : Size) := LayoutConfig.size_nonneg hconfig size
  have hrefl (size : Size) := Binary32.le_refl (ne_nan_of_le_right (hsize size))
  have hlabel (m : Message) := signatureWidth_nonneg h.nonneg m.signature
  cases hr with
  | @neighbours i l l' hl hl' =>
    obtain ⟨k, hk⟩ := exists_partner hl wide
    obtain ⟨k', hk'⟩ := exists_partner hl' wide
    have hextent := hspaced.halfExtent_nonneg hconfig (List.mem_of_getElem? hl)
    have hextent' := hspaced.halfExtent_nonneg hconfig (List.mem_of_getElem? hl')
    have hboth := add_mono hextent hextent' (halfExtent_mono h hconfig hl hk).2
      (halfExtent_mono h hconfig hl' hk').2
    exact ⟨_, add_mono (Binary32.add_nonneg hextent hextent') (hsize .margin) hboth
      (hrefl .margin), .neighbours hk hk'⟩
  | @between m i j hm hij hends =>
    have hhead := add_mono (hlabel m) (hsize .arrowHeadWidth) (signatureWidth_mono h m.signature)
      (hrefl .arrowHeadWidth)
    rw [hindex, hindex, ← hindex', ← hindex'] at hends
    exact ⟨_, add_mono (Binary32.add_nonneg (hlabel m) (hsize .arrowHeadWidth))
      (hsize .occurrenceWidth) hhead (hrefl .occurrenceWidth), .between hm hij hends⟩
  | @toItself m i hm hlt hsender hreceiver =>
    rw [hindex, ← hindex'] at hsender hreceiver
    obtain ⟨_, hk⟩ := exists_partner (List.getElem?_eq_getElem hlt) wide
    exact ⟨_, add_mono (hlabel m) (hsize .selfCallWidth) (signatureWidth_mono h m.signature)
      (hrefl .selfCallWidth),
      .toItself hm (List.getElem?_eq_some_iff.mp hk).1 hsender hreceiver⟩

/-- **No lifeline moves to the left.** The places under the wider texts keep all that the narrower
    ones ask for, and those under the narrower ones are the least that do. -/
theorem center_mono (hspaced : (ofDocument narrow config order ledger d).Spaced config)
    (hspaced' : (ofDocument wide config order ledger d).Spaced config) {i : Nat} {l l' : Lifeline}
    (hl : (ofDocument narrow config order ledger d).lifelines[i]? = some l)
    (hl' : (ofDocument wide config order ledger d).lifelines[i]? = some l') :
    l.center ≤ l'.center := by
  have hnarrow := isLeastSolution h.nonneg hconfig hspaced
  have hwide := isLeastSolution h.wide_nonneg hconfig hspaced'
  let places (i : Nat) : Binary32 :=
    ((ofDocument wide config order ledger d).lifelines[i]?).elim 0 (·.center)
  have hplaces {i : Nat} {l' : Lifeline}
      (hl' : (ofDocument wide config order ledger d).lifelines[i]? = some l') :
      places i = l'.center := by
    show Option.elim _ _ _ = _
    rw [hl']
    rfl
  rw [← hplaces hl']
  refine hnarrow.least places (fun l hl => ?_) (fun r hr => ?_) i l hl
  · -- the first box starts at zero in both tables
    obtain ⟨l', hl'⟩ := exists_partner hl wide
    rw [hplaces hl', hwide.first l' hl']
    exact (halfExtent_mono h hconfig hl hl').2
  · obtain ⟨distance, hdistance, hasks⟩ := Asks.exists_wider h hconfig hspaced hr
    obtain ⟨k, k', hk, hk', hle⟩ := hwide.holds _ hasks
    have hcenter := hspaced'.center_nonneg hconfig (List.mem_of_getElem? hk)
    rw [hplaces hk, hplaces hk']
    calc k.center + r.distance ≤ k.center + distance :=
          add_mono hcenter (hr.distance_nonneg h.nonneg hconfig hspaced)
            (Binary32.le_refl (ne_nan_of_le_right hcenter)) hdistance
      _ ≤ k'.center := hle

/-- The labels of messages to oneself do not reach less far. -/
theorem selfCallReach_mono {i : Nat} {l l' : Lifeline}
    (hl : (ofDocument narrow config order ledger d).lifelines[i]? = some l)
    (hl' : (ofDocument wide config order ledger d).lifelines[i]? = some l') :
    0 ≤ l.selfCallReach ∧ l.selfCallReach ≤ l'.selfCallReach := by
  have hsize := LayoutConfig.size_nonneg hconfig .selfCallWidth
  have hzero : (0 : Binary32) ≤ 0 := Binary32.le_refl (ne_nan_of_rank rank_zero)
  rw [selfCallReach_eq hl, selfCallReach_eq hl', List.foldl_map]
  refine ⟨(le_foldl_max _ _ _).1 (ne_nan_of_rank rank_zero), ?_⟩
  rw [← List.foldl_map]
  refine foldl_max_mono ?_ hzero
  rw [List.forall₂_map_left_iff, List.forall₂_map_right_iff, List.forall₂_same]
  intro ends _
  exact add_mono (signatureWidth_nonneg h.nonneg _) hsize (signatureWidth_mono h _)
    (Binary32.le_refl (ne_nan_of_le_right hsize))

end Wider

end Coordinates

/-! ### Layouts -/

/-- The second lifeline belongs to the same participant, stands no further to the left, and nothing
    on it is smaller. -/
structure Lifeline.Within (l l' : Lifeline) : Prop where
  name : l.name = l'.name
  center : l.center ≤ l'.center
  width : l.box.width ≤ l'.box.width
  selfCallReach : l.selfCallReach ≤ l'.selfCallReach
  right : l.right ≤ l'.right

theorem Coordinates.lifelines_within {narrow wide : TextMeasure} {config : LayoutConfig}
    {order : List OrderedParticipant} {ledger : Ledger} {d : Document} (h : narrow.AtMost wide)
    (hconfig : config.validate = .ok config)
    (hspaced : (ofDocument narrow config order ledger d).Spaced config)
    (hspaced' : (ofDocument wide config order ledger d).Spaced config) :
    List.Forall₂ Lifeline.Within (ofDocument narrow config order ledger d).lifelines
      (ofDocument wide config order ledger d).lifelines := by
  have hnames := names_eq narrow wide config order ledger d
  have hlength := congrArg List.length hnames
  rw [List.length_map, List.length_map] at hlength
  refine List.forall₂_iff_get.mpr ⟨hlength, fun i hi hi' => ?_⟩
  have hl := List.getElem?_eq_getElem hi
  have hl' := List.getElem?_eq_getElem hi'
  rw [List.get_eq_getElem, List.get_eq_getElem]
  generalize (ofDocument narrow config order ledger d).lifelines[i] = l at hl
  generalize (ofDocument wide config order ledger d).lifelines[i] = l' at hl'
  obtain ⟨hwidth, hextent⟩ := halfExtent_mono h hconfig hl hl'
  obtain ⟨hreach0, hreach⟩ := selfCallReach_mono h hconfig hl hl'
  have hcenter := center_mono h hconfig hspaced hspaced' hl hl'
  have hextent0 := hspaced.halfExtent_nonneg hconfig (List.mem_of_getElem? hl)
  have hname : l.name = l'.name := by
    have := congrArg (·[i]?) hnames
    simpa only [List.getElem?_map, hl, hl', Option.map_some, Option.some.injEq] using this
  have hright0 := nonneg_of_le hextent0
    (Binary32.le_max_left (ne_nan_of_le_right hextent0) l.selfCallReach)
  exact ⟨hname, hcenter, hwidth, hreach,
    add_mono (hspaced.center_nonneg hconfig (List.mem_of_getElem? hl)) hright0 hcenter
      (max_le_max hextent hreach)⟩

/-- **Wider text pulls nothing to the left.** If no text is narrower under the second measure, then
    both layouts have the same participants in the same order, and the same lifelines in the same
    order; none of them stands further to the left, has a narrower box or reaches less far to the
    right, and the whole diagram is not narrower. -/
theorem wider_text_pulls_nothing_left {narrow wide : TextMeasure} {config : LayoutConfig}
    (hnarrow : ∀ text style, 0 ≤ narrow text style)
    (hwider : ∀ text style, narrow text style ≤ wide text style)
    (hconfig : config.validate = .ok config) (source : String) (version : Nat)
    (starter : Option String) :
    let l := computeLayout narrow config source version starter
    let l' := computeLayout wide config source version starter
    l.participants = l'.participants ∧
      l.coordinates.lifelines.map (·.name) = l.participants.map (·.name) ∧
      List.Forall₂ Lifeline.Within l.coordinates.lifelines l'.coordinates.lifelines ∧
      l.coordinates.totalWidth ≤ l'.coordinates.totalWidth := by
  intro l l'
  have hl := coordinates_computeLayout narrow config source version starter
  have hl' := coordinates_computeLayout wide config source version starter
  have hwithin : List.Forall₂ Lifeline.Within l.coordinates.lifelines l'.coordinates.lifelines := by
    show List.Forall₂ _ (computeLayout ..).coordinates.lifelines
      (computeLayout ..).coordinates.lifelines
    rw [hl, hl']
    exact Coordinates.lifelines_within ⟨hnarrow, hwider⟩ hconfig
      (sourceCoordinates_spaced narrow hconfig source version starter)
      (sourceCoordinates_spaced wide hconfig source version starter)
  refine ⟨?_, ?_, hwithin, ?_⟩
  · show (computeLayout ..).participants = (computeLayout ..).participants
    rw [computeLayout_eq, computeLayout_eq]
  · show (computeLayout ..).coordinates.lifelines.map _ = (computeLayout ..).participants.map _
    rw [computeLayout_eq]
    exact Coordinates.map_name_ofDocument ..
  · unfold Coordinates.totalWidth
    refine foldl_max_mono ?_ (Binary32.le_refl (ne_nan_of_rank rank_zero))
    rw [List.forall₂_map_left_iff, List.forall₂_map_right_iff]
    exact hwithin.imp fun _ _ => Lifeline.Within.right

/-- With labels that are seven wider, the second lifeline stands further to the right and its message
    to itself reaches further, while the first box keeps its least width. -/
theorem seven_wider :
    let narrow := approximateMeasure defaultCharRatio
    let wide : TextMeasure := fun text style => narrow text style + 7
    let source := "A B\nA->B.aVeryLongMethodNameThatNeedsALotOfRoom()\nB->B: hello"
    let l := computeLayout narrow .standard source 0 none
    let l' := computeLayout wide .standard source 0 none
    l.coordinates.lifelines.map (·.center) = [40, 377] ∧
      l'.coordinates.lifelines.map (·.center) = [40, 384] ∧
      (∀ text style, 0 ≤ narrow text style ∧ narrow text style ≤ wide text style) ∧
      List.Forall₂ Lifeline.Within l.coordinates.lifelines l'.coordinates.lifelines ∧
      l.coordinates.totalWidth ≤ l'.coordinates.totalWidth := by
  intro narrow wide source l l'
  have hcenters : l.coordinates.lifelines.map (·.center) = [40, 377] := by decide +kernel
  have hcenters' : l'.coordinates.lifelines.map (·.center) = [40, 384] := by decide +kernel
  have hconfig : LayoutConfig.standard.fault? = none := by decide +kernel
  have hpos : 0 < defaultCharRatio := by decide +kernel
  have hfin : defaultCharRatio.isFinite := by decide +kernel
  have hseven : (0 : Binary32) ≤ 7 := by decide +kernel
  have hnarrow := approximateMeasure_nonneg hpos hfin
  have hwider (text : String) (style : TextStyle) : narrow text style ≤ wide text style :=
    Binary32.le_add_right (hnarrow text style) hseven
  obtain ⟨-, -, hwithin, htotal⟩ := wider_text_pulls_nothing_left hnarrow hwider
    (by rw [LayoutConfig.validate, hconfig]) source 0 none
  exact ⟨hcenters, hcenters', fun text style => ⟨hnarrow text style, hwider text style⟩, hwithin,
    htotal⟩

end SequenceDiagram
