import SequenceDiagram.Proofs.Binary32.Precision
import SequenceDiagram.Proofs.Layout.LeastCenters

namespace SequenceDiagram

open Binary32

/-!
# The room for a label on its arrow

The lifelines at the ends of a message keep the width of its label, the head of an arrow and one bar
apart. The arrow itself runs between the outer sides of all bars at both ends.

* `Anchor.label_room`: an arrow between two lifelines is as wide as its label, its head and one bar,
  less the bars at both ends and what rounding takes.
* `labels_have_room` is the result for layouts: it holds of each message between two participants,
  and so the label fits if the bars take no more room than the head and one bar.
-/

/-! ### The edges of the bars -/

/-- A stack of bars that is not out of bounds does not reach to the left of its lifeline. -/
theorem activationReserve_nonneg {config : LayoutConfig} (hconfig : config.validate = .ok config)
    {layers : Nat} (hfin : (activationReserve layers config).isFinite) :
    0 ≤ activationReserve layers config := by
  unfold activationReserve at hfin ⊢
  split at hfin
  · rw [if_pos ‹_›]
    exact Binary32.le_refl (ne_nan_of_rank rank_zero)
  · rw [if_neg ‹_›]
    have hcount := isFinite_of_mul (isFinite_of_add hfin)
    exact Binary32.add_nonneg
      (half_nonneg (LayoutConfig.size_nonneg hconfig .occurrenceWidth))
      (Binary32.mul_nonneg (ofNat_nonneg _) (LayoutConfig.size_nonneg hconfig .layerOffset) hcount
        (LayoutConfig.size_isFinite hconfig .layerOffset))

namespace Anchor

variable {config : LayoutConfig} {a b : Anchor} {m n : Nat}

/-- The right edge is too far to the right by at most its place over `2 ^ 24`. -/
theorem edge_right_error (hm : a.center.rank = some (m : Int))
    (hn : (activationReserve a.depth config).rank = some (n : Int))
    (hfin : (activationReserve a.depth config).isFinite) :
    ∃ k : Nat, (a.edge 1 config).rank = some (k : Int) ∧
      Nat.pow 2 24 * k ≤ Nat.pow 2 24 * (m + n) + (m + n) := by
  unfold edge
  split
  · refine ⟨m, hm, ?_⟩
    simp only [Nat.pow_eq]
    omega
  · exact add_le_error hm (rank_one_mul hn hfin)

/-- The left edge is too far to the left by at most its place over `2 ^ 24`. -/
theorem edge_left_error (hm : a.center.rank = some (m : Int)) (hfin : a.center.isFinite)
    (hn : (activationReserve a.depth config).rank = some (n : Int))
    (hfin' : (activationReserve a.depth config).isFinite) :
    ∃ i : Int, (a.edge (-1) config).rank = some i ∧ (a.edge (-1) config).isFinite ∧
      -n ≤ i ∧ i ≤ m ∧ Nat.pow 2 24 * ((m : Int) - n) ≤ Nat.pow 2 24 * i + (m + n) := by
  unfold edge
  split
  · refine ⟨m, hm, hfin, by omega, Int.le_refl _, ?_⟩
    simp only [Nat.pow_eq]
    omega
  · rw [Binary32.neg_mul]
    have hone := rank_one_mul hn hfin'
    exact sub_error hm hone hfin ((isFinite_iff hone).mpr ((isFinite_iff hn).mp hfin'))

/-! ### Between two anchors -/

theorem edgeOffset_of_lt (h : a.center < b.center) :
    a.edgeOffset b config = b.edge (-1) config - a.edge 1 config := by
  have hle := Binary32.le_of_lt h
  have hnot : ¬ b.center < a.center :=
    (Binary32.not_lt (ne_nan_of_le_right hle) (ne_nan_of_le_left hle)).mpr hle
  have hfacing : a.facing b = 1 := if_pos h
  have hfacing' : b.facing a = -1 := by rw [facing, if_neg hnot, if_pos h]
  rw [edgeOffset, hfacing, hfacing', if_neg (by decide)]

theorem edgeOffset_of_gt (h : b.center < a.center) :
    a.edgeOffset b config = b.edge 1 config - a.edge (-1) config := by
  have hle := Binary32.le_of_lt h
  have hnot : ¬ a.center < b.center :=
    (Binary32.not_lt (ne_nan_of_le_right hle) (ne_nan_of_le_left hle)).mpr hle
  have hfacing : a.facing b = -1 := by rw [facing, if_neg hnot, if_pos h]
  have hfacing' : b.facing a = 1 := if_pos h
  rw [edgeOffset, hfacing, hfacing', if_neg (by decide)]

theorem edgeOffset_of_not_lt (h : ¬ a.center < b.center) (h' : ¬ b.center < a.center) :
    a.edgeOffset b config = 0 := by
  rw [edgeOffset, facing, if_neg h, if_neg h']
  rfl

/-- The way between two anchors is as long from either side. -/
theorem abs_edgeOffset_comm (config : LayoutConfig) (a b : Anchor) :
    (a.edgeOffset b config).abs = (b.edgeOffset a config).abs := by
  by_cases h : a.center < b.center
  · rw [edgeOffset_of_lt h, edgeOffset_of_gt h, abs_sub_comm]
  · by_cases h' : b.center < a.center
    · rw [edgeOffset_of_gt h', edgeOffset_of_lt h', abs_sub_comm]
    · rw [edgeOffset_of_not_lt h h', edgeOffset_of_not_lt h' h]

/-- **The way between two anchors has the room for a label**, its head and a bar, less the bars at
    both ends and what rounding takes. -/
theorem label_room {label : Binary32} (hconfig : config.validate = .ok config)
    (hcenter : 0 ≤ a.center) (hfin : b.center.isFinite)
    (hsource : (activationReserve a.depth config).isFinite)
    (htarget : (activationReserve b.depth config).isFinite) (hlabel : 0 ≤ label)
    (hle : a.center + (label + config.arrowHeadWidth + config.occurrenceWidth) ≤ b.center) :
    ∃ w : Nat, (a.edgeOffset b config).abs.rank = some (w : Int) ∧
      2097152 * (label.units + config.arrowHeadWidth.units + config.occurrenceWidth.units) ≤
        2097152 * (w + (activationReserve a.depth config).units +
            (activationReserve b.depth config).units) +
          (b.center.units + (activationReserve a.depth config).units +
            (activationReserve b.depth config).units) := by
  have hhead : 0 ≤ config.arrowHeadWidth := LayoutConfig.size_nonneg hconfig .arrowHeadWidth
  have hbar : 0 ≤ config.occurrenceWidth := LayoutConfig.size_nonneg hconfig .occurrenceWidth
  obtain ⟨x, hx⟩ := nonneg_iff.mp hcenter
  obtain ⟨r, hr⟩ := nonneg_iff.mp (activationReserve_nonneg hconfig hsource)
  obtain ⟨s, hs⟩ := nonneg_iff.mp (activationReserve_nonneg hconfig htarget)
  obtain ⟨l, hl⟩ := nonneg_iff.mp hlabel
  obtain ⟨h, hh⟩ := nonneg_iff.mp hhead
  obtain ⟨o, ho⟩ := nonneg_iff.mp hbar
  -- the distance between the lifelines, from the sums that the requirement is made of
  have hfirst := Binary32.add_nonneg hlabel hhead
  have hsecond := Binary32.add_nonneg hfirst hbar
  have hplace := Binary32.add_nonneg hcenter hsecond
  obtain ⟨y, hy⟩ := nonneg_iff.mp (nonneg_of_le hplace hle)
  have hplacefin := isFinite_of_le hplace hle hfin
  have hsecondfin := isFinite_of_le hsecond (Binary32.le_add_left hcenter hsecond) hplacefin
  have hfirstfin := isFinite_of_le hfirst (Binary32.le_add_right hfirst hbar) hsecondfin
  obtain ⟨u, hu, herror₁, -⟩ := add_error hl hh hfirstfin
  obtain ⟨d, hd, herror₂, -⟩ := add_error hu ho hsecondfin
  obtain ⟨z, hz, herror₃, -⟩ := add_error hx hd hplacefin
  have hzy := (natCast_le_iff hz hy).mp hle
  rw [units_eq hl, units_eq hh, units_eq ho, units_eq hr, units_eq hs, units_eq hy]
  simp only [Nat.pow_eq] at herror₁ herror₂ herror₃
  by_cases hlt : a.center < b.center
  · obtain ⟨k, hk, hkerror⟩ := edge_right_error hx hr hsource
    obtain ⟨i, hi, hifin, hlow, hhigh, hierror⟩ := edge_left_error hy hfin hs htarget
    obtain ⟨w, hw, hwerror⟩ := abs_sub_error hi hk hifin
    refine ⟨w, by rw [edgeOffset_of_lt hlt]; exact hw, ?_⟩
    simp only [Nat.pow_eq] at hkerror hierror hwerror
    omega
  · -- lifelines that coincide are only asked for a distance that rounding takes
    have hxy := (natCast_le_iff hx hy).mp
      (Binary32.le_trans (Binary32.le_add_right hcenter hsecond) hle)
    have hyx := (natCast_le_iff hy hx).mp
      ((Binary32.not_lt (ne_nan_of_rank hx) (ne_nan_of_rank hy)).mp hlt)
    have hnot : ¬ b.center < a.center :=
      (Binary32.not_lt (ne_nan_of_rank hy) (ne_nan_of_rank hx)).mpr
        ((natCast_le_iff hx hy).mpr hxy)
    refine ⟨0, by rw [edgeOffset_of_not_lt hlt hnot]; rfl, ?_⟩
    omega

end Anchor

/-! ### Messages in their places -/

/-- A lifeline has the number of its participant. -/
theorem Coordinates.exists_index {c : Coordinates} {name : String} {l : Lifeline}
    (h : c.get? name = some l) :
    ∃ i, c.indexOf? name = some i ∧ c.lifelines[i]? = some l ∧ l.name = name := by
  obtain ⟨hname, i, hi, heq, hbefore⟩ := List.find?_eq_some_iff_getElem.mp h
  refine ⟨i, List.findIdx?_eq_some_iff_getElem.mpr ⟨hi, ?_, fun j hj => ?_⟩,
    List.getElem?_eq_some_iff.mpr ⟨hi, heq⟩, of_decide_eq_true hname⟩
  · rwa [heq]
  · simpa using hbefore j hj

theorem Coordinates.mem_of_get? {c : Coordinates} {name : String} {l : Lifeline}
    (h : c.get? name = some l) : l ∈ c.lifelines :=
  List.mem_of_find?_eq_some h

/-- The arrow of a message in its place runs between the lifelines of its sender and receiver. -/
theorem MessageLayout.of_eq_ok {c : Coordinates} {config : LayoutConfig} {m : Message}
    {depths : MessageDepths} {p : MessageLayout} (h : MessageLayout.of c config m depths = .ok p) :
    ∃ origin l l', c.get? m.sender = some l ∧ c.get? m.receiver = some l' ∧
      p.sender = m.sender ∧ p.receiver = m.receiver ∧ p.signature = m.signature ∧
      p.arrow = .between config (m.sender = m.receiver) origin
        ⟨l.center, p.arrow.sourceLayers⟩ ⟨l'.center, p.arrow.targetLayers⟩ := by
  obtain ⟨origin, source, target, -, hsource, htarget, rfl⟩ := exists_anchors h
  obtain ⟨l, hl, rfl⟩ := ArrowEnd.anchor_eq_ok hsource
  obtain ⟨l', hl', rfl⟩ := ArrowEnd.anchor_eq_ok htarget
  exact ⟨origin, l, l', hl, hl', rfl, rfl, rfl, rfl⟩

/-- The lifelines at the ends of a message keep the room for its label between them. -/
theorem Coordinates.apart_of_message {measure : TextMeasure} {config : LayoutConfig}
    {order : List OrderedParticipant} {ledger : Ledger} {d : Document}
    (hmeasure : ∀ text style, 0 ≤ measure text style) (hconfig : config.validate = .ok config)
    (hspaced : (ofDocument measure config order ledger d).Spaced config) {m : Message}
    (hm : m ∈ d.messages) (hne : m.sender ≠ m.receiver) {l l' : Lifeline}
    (hl : (ofDocument measure config order ledger d).get? m.sender = some l)
    (hl' : (ofDocument measure config order ledger d).get? m.receiver = some l') :
    l.center + (signatureWidth measure m.signature + config.arrowHeadWidth +
        config.occurrenceWidth) ≤ l'.center ∨
      l'.center + (signatureWidth measure m.signature + config.arrowHeadWidth +
        config.occurrenceWidth) ≤ l.center := by
  obtain ⟨i, hi, hli, hname⟩ := exists_index hl
  obtain ⟨j, hj, hlj, hname'⟩ := exists_index hl'
  have hplace {k : Lifeline} {r : Requirement}
      (hk : k ∈ (ofDocument measure config order ledger d).lifelines)
      (hr : (ofDocument measure config order ledger d).Asks measure config d r) :
      k.center + r.distance ≠ nan :=
    ne_nan_of_le_right (Binary32.add_nonneg (hspaced.center_nonneg hconfig hk)
      (hr.distance_nonneg hmeasure hconfig hspaced))
  rcases Nat.lt_trichotomy i j with hij | rfl | hij
  · have hasks : (ofDocument measure config order ledger d).Asks measure config d _ :=
      .between hm hij (.inl ⟨hi, hj⟩)
    exact .inl (hasks.le hli hlj (hplace (List.mem_of_getElem? hli) hasks))
  · rw [hli, Option.some.injEq] at hlj
    exact absurd (hname.symm.trans (hlj ▸ hname')) hne
  · have hasks : (ofDocument measure config order ledger d).Asks measure config d _ :=
      .between hm hij (.inr ⟨hi, hj⟩)
    exact .inr (hasks.le hlj hli (hplace (List.mem_of_getElem? hlj) hasks))

/-! ### Labels -/

namespace Arrow

/-- How far the bars at both ends reach into an arrow, in units. -/
def bars (config : LayoutConfig) (a : Arrow) : Int :=
  (activationReserve a.sourceLayers config).units + (activationReserve a.targetLayers config).units

/-- The outermost place on the way of an arrow, in units. Rounding takes less than its two millionth
    part. -/
def reach (config : LayoutConfig) (l l' : Lifeline) (a : Arrow) : Int :=
  max l.center.units l'.center.units + a.bars config

/-- Neither the lifelines at the ends of an arrow nor the bars on them are out of bounds. -/
structure InBounds (config : LayoutConfig) (l l' : Lifeline) (a : Arrow) : Prop where
  source : l.center.isFinite
  target : l'.center.isFinite
  sourceBars : (activationReserve a.sourceLayers config).isFinite
  targetBars : (activationReserve a.targetLayers config).isFinite

/-- An arrow between lifelines that keep the room for a label has it, less the bars at its ends. -/
theorem label_room {config : LayoutConfig} {a : Arrow} {l l' : Lifeline} {label : Binary32}
    (hconfig : config.validate = .ok config) (hbounds : a.InBounds config l l')
    (hwidth : a.width = (Anchor.edgeOffset ⟨l.center, a.sourceLayers⟩
      ⟨l'.center, a.targetLayers⟩ config).abs)
    (hl : 0 ≤ l.center) (hl' : 0 ≤ l'.center) (hlabel : 0 ≤ label)
    (hapart : l.center + (label + config.arrowHeadWidth + config.occurrenceWidth) ≤ l'.center ∨
      l'.center + (label + config.arrowHeadWidth + config.occurrenceWidth) ≤ l.center) :
    ∃ w : Nat, a.width.rank = some (w : Int) ∧
      2097152 * (label.units + config.arrowHeadWidth.units + config.occurrenceWidth.units) ≤
        2097152 * (w + a.bars config) + a.reach config l l' := by
  unfold reach bars
  rcases hapart with hle | hle
  · obtain ⟨w, hw, hroom⟩ := Anchor.label_room (a := ⟨l.center, a.sourceLayers⟩)
      (b := ⟨l'.center, a.targetLayers⟩) hconfig hl hbounds.target hbounds.sourceBars
      hbounds.targetBars hlabel hle
    dsimp only at hroom
    exact ⟨w, hwidth ▸ hw, by omega⟩
  · obtain ⟨w, hw, hroom⟩ := Anchor.label_room (a := ⟨l'.center, a.targetLayers⟩)
      (b := ⟨l.center, a.sourceLayers⟩) hconfig hl' hbounds.source hbounds.targetBars
      hbounds.sourceBars hlabel hle
    rw [Anchor.abs_edgeOffset_comm] at hw
    dsimp only at hroom
    exact ⟨w, hwidth ▸ hw, by omega⟩

end Arrow

/-- **An arrow between two lifelines has the room for its label**, its head and one bar, less the
    bars at both ends and what rounding takes. So the label fits if the bars leave the head and one
    bar to it. -/
theorem labels_have_room {measure : TextMeasure} {config : LayoutConfig} {source : String}
    {version : Nat} {starter : Option String} {p : MessageLayout}
    (hmeasure : ∀ text style, 0 ≤ measure text style) (hconfig : config.validate = .ok config)
    (hp : p ∈ (computeLayout measure config source version starter).messages)
    (hne : p.sender ≠ p.receiver) :
    ∃ l l', (computeLayout measure config source version starter).coordinates.get? p.sender =
        some l ∧
      (computeLayout measure config source version starter).coordinates.get? p.receiver = some l' ∧
      (p.arrow.InBounds config l l' →
        2097152 * ((signatureWidth measure p.signature).units + config.arrowHeadWidth.units +
            config.occurrenceWidth.units) ≤
          2097152 * (p.arrow.width.units + p.arrow.bars config) + p.arrow.reach config l l' ∧
        (2097152 * p.arrow.bars config + p.arrow.reach config l l' ≤
            2097152 * (config.arrowHeadWidth.units + config.occurrenceWidth.units) →
          signatureWidth measure p.signature ≤ p.arrow.width)) := by
  obtain ⟨m, hm, hlayout⟩ := exists_message_of_mem_layout hp
  obtain ⟨origin, l, l', hl, hl', hsender, hreceiver, hsignature, harrow⟩ :=
    MessageLayout.of_eq_ok hlayout
  rw [hsender, hreceiver] at hne
  rw [coordinates_computeLayout, hsender, hreceiver, hsignature]
  refine ⟨l, l', hl, hl', fun hbounds => ?_⟩
  have hspaced := sourceCoordinates_spaced measure hconfig source version starter
  have hlabel := signatureWidth_nonneg hmeasure m.signature
  have hwidth : p.arrow.width = (Anchor.edgeOffset ⟨l.center, p.arrow.sourceLayers⟩
      ⟨l'.center, p.arrow.targetLayers⟩ config).abs := by
    rw [harrow]
    simp [Arrow.between, hne]
  have hapart := Coordinates.apart_of_message hmeasure hconfig hspaced hm hne hl hl'
  obtain ⟨w, hw, hroom⟩ := Arrow.label_room hconfig hbounds hwidth
    (hspaced.center_nonneg hconfig (Coordinates.mem_of_get? hl))
    (hspaced.center_nonneg hconfig (Coordinates.mem_of_get? hl')) hlabel hapart
  rw [units_eq hw]
  refine ⟨hroom, fun hbars => ?_⟩
  obtain ⟨n, hn⟩ := nonneg_iff.mp hlabel
  rw [units_eq hn] at hroom
  exact (natCast_le_iff hn hw).mpr (by omega)

/-- With the default sizes a label fits between one bar at each end. -/
theorem label_fits_between_single_bars :
    let source := "A->B.m \x7b B->A.aVeryLongMethodNameThatNeedsALotOfRoom() \x7d"
    let measure := approximateMeasure defaultCharRatio
    ∃ p ∈ (computeLayout measure .standard source 0 none).messages,
      p.sender ≠ p.receiver ∧ p.arrow.sourceLayers = 1 ∧ p.arrow.targetLayers = 1 ∧
        signatureWidth measure p.signature ≤ p.arrow.width := by
  intro source measure
  have hconfig : LayoutConfig.standard.fault? = none := by decide +kernel
  have hratio : 0 < defaultCharRatio := by decide +kernel
  have hratioFin : defaultCharRatio.isFinite := by decide +kernel
  let layout := computeLayout measure .standard source 0 none
  have hexists : ∃ p ∈ layout.messages, p.sender ≠ p.receiver ∧ p.arrow.sourceLayers = 1 ∧
      p.arrow.targetLayers = 1 := by decide +kernel
  have hbars : (activationReserve 1 .standard).isFinite := by decide +kernel
  -- wherever the lifelines stand, they are near enough for what rounding takes
  have hsmall : ∀ p ∈ layout.messages, p.arrow.sourceLayers = 1 → p.arrow.targetLayers = 1 →
      ∀ l ∈ layout.coordinates.lifelines, ∀ l' ∈ layout.coordinates.lifelines,
        l.center.isFinite ∧ l'.center.isFinite ∧
          2097152 * p.arrow.bars .standard + p.arrow.reach .standard l l' ≤
            2097152 * (LayoutConfig.standard.arrowHeadWidth.units +
              LayoutConfig.standard.occurrenceWidth.units) := by decide +kernel
  obtain ⟨p, hp, hne, hsource, htarget⟩ := hexists
  obtain ⟨l, l', hl, hl', hroom⟩ := labels_have_room (approximateMeasure_nonneg hratio hratioFin)
    (by rw [LayoutConfig.validate, hconfig]) hp hne
  obtain ⟨hfin, hfin', hfits⟩ := hsmall p hp hsource htarget l (Coordinates.mem_of_get? hl) l'
    (Coordinates.mem_of_get? hl')
  have hbounds : p.arrow.InBounds .standard l l' :=
    ⟨hfin, hfin', by rw [hsource]; exact hbars, by rw [htarget]; exact hbars⟩
  exact ⟨p, hp, hne, hsource, htarget, (hroom hbounds).2 hfits⟩

/-- A third bar at one end takes more room than the head and one bar give, so the label sticks out of
    its arrow. It also does without any bars, between lifelines so far to the right that rounding
    takes the whole distance. -/
theorem label_sticks_out_of_arrow :
    let measure := approximateMeasure defaultCharRatio
    let source := "A.m \x7b A->A.n \x7b A->A.o \x7b " ++
      "A->B.aVeryLongMethodNameThatNeedsALotOfRoom() \x7d \x7d \x7d"
    let deep := computeLayout measure .standard source 0 none
    let far := computeLayout measure .standard "A 999999999999999999999\nB\nC\nB->C: m" 0 none
    LayoutConfig.standard.fault? = none ∧
      (∃ p ∈ deep.messages, p.sender ≠ p.receiver ∧ p.arrow.sourceLayers = 3 ∧
        p.arrow.targetLayers = 1 ∧ p.arrow.width < signatureWidth measure p.signature) ∧
      ∃ p ∈ far.messages, p.sender ≠ p.receiver ∧ p.arrow.sourceLayers = 0 ∧
        p.arrow.targetLayers = 0 ∧ p.arrow.width < signatureWidth measure p.signature := by
  decide +kernel

end SequenceDiagram
