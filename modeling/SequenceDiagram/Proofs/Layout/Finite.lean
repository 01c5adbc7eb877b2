import SequenceDiagram.Proofs.Binary32.Bounded
import SequenceDiagram.Proofs.Document.Heights
import SequenceDiagram.Proofs.Document.TextLengths
import SequenceDiagram.Proofs.Layout.Bars
import SequenceDiagram.Proofs.Layout.LabelRoom
import SequenceDiagram.Proofs.Layout.NestedBoxes

namespace SequenceDiagram

open Binary32 Syntax

/-!
# The numbers of a layout are finite

Nothing keeps a declared width from being infinite, and then the layout is full of infinities and of
what is no number at all. With bounds for the declared widths and for the sizes, everything that is
computed from them stays far below the largest number.

* `DiagramLayout.numbers` lists all numbers of a layout.
* `Box.Moderate` and `Lifeline.Moderate` bound the numbers of a lifeline by powers of two.
  `Coordinates.bounded_center` is the step for the centers: distances are added up along the
  lifelines, and a bound absorbs what is much smaller, so that it does not matter how many lifelines
  there are.
* `Limits` is what is asked of the sizes and of the source. `Limits.bounded_messages` and
  `Limits.bounded_fragments` follow the numbers that are computed from the centers.
* `layout_numbers_finite` is the result, and `wide_box_gives_no_number` what a width that is too
  large leads to.
-/

/-! ### The numbers -/

/-- The numbers of a lifeline. -/
def Lifeline.numbers (l : Lifeline) : List Binary32 :=
  [l.center, l.box.width, l.box.labelWidth, l.box.activationReserve, l.selfCallReach]

/-- The edges of a bar. -/
def Occurrence.numbers (o : Occurrence) : List Binary32 := [o.left, o.right]

/-- The numbers of a message in its place. -/
def MessageLayout.numbers (m : MessageLayout) : List Binary32 :=
  m.arrow.width :: m.arrow.translation :: m.occurrence.toList.flatMap (·.numbers)

/-- The numbers of the box of a fragment. -/
def FragmentBox.numbers (b : FragmentBox) : List Binary32 :=
  [b.left, b.right, b.width, b.offset, b.paddingLeft, b.minWidth]

/-- The numbers of a fragment in its place. -/
def FragmentLayout.numbers (f : FragmentLayout) : List Binary32 := f.conditionWidth :: f.box.numbers

/-- All numbers of a layout, the total width included. -/
def DiagramLayout.numbers (l : DiagramLayout) : List Binary32 :=
  l.coordinates.totalWidth :: (l.coordinates.lifelines.flatMap (·.numbers) ++
    l.messages.flatMap (·.numbers) ++ l.fragments.flatMap (·.numbers))

/-- What holds of the numbers of each part holds of all numbers. -/
theorem DiagramLayout.forall_numbers {l : DiagramLayout} {p : Binary32 → Prop}
    (htotal : p l.coordinates.totalWidth)
    (hlifelines : ∀ k ∈ l.coordinates.lifelines, ∀ x ∈ k.numbers, p x)
    (hmessages : ∀ m ∈ l.messages, ∀ x ∈ m.numbers, p x)
    (hfragments : ∀ f ∈ l.fragments, ∀ x ∈ f.numbers, p x) : ∀ x ∈ l.numbers, p x := by
  simp only [numbers, List.mem_cons, List.mem_append, List.mem_flatMap]
  rintro x (rfl | (⟨k, hk, hx⟩ | ⟨m, hm, hx⟩) | ⟨f, hf, hx⟩)
  · exact htotal
  · exact hlifelines k hk x hx
  · exact hmessages m hm x hx
  · exact hfragments f hf x hx

/-! ### Texts and stacks -/

/-- An estimated width is not much larger than the number of characters. -/
theorem bounded_approximateMeasure {text : String} (h : text.length ≤ 2 ^ 67) (style : TextStyle) :
    Bounded 72 (approximateMeasure defaultCharRatio text style) := by
  have hcount : Bounded 67 (.ofNat (sanitizedLength text)) := by
    refine .ofNat (Nat.le_trans ?_ h)
    rw [← String.length_toList]
    exact List.countP_le_length
  have hsize : Bounded 4 style.fontSize := by
    cases style <;> exact ⟨_, rfl, by decide +kernel⟩
  have hratio : Bounded 0 defaultCharRatio := ⟨_, rfl, by decide +kernel⟩
  have hbold : Bounded 1 style.boldness := by
    cases style <;> exact ⟨_, rfl, by decide +kernel⟩
  have hheight := hcount.mul hsize (by decide)
  have hplain := hheight.mul hratio (by decide)
  -- stated first, since the exponent is a sum here and not a literal
  have hwidth := hplain.mul hbold (by decide)
  exact hwidth

/-- A text that is empty has no width, and any other one is measured. -/
theorem Gauge.labelWidth_exact (measure : TextMeasure) (text : String) (style : TextStyle) :
    Id.run ((Gauge.exact measure).labelWidth text style) =
      if text = "" then 0 else measure text style := by
  unfold Gauge.labelWidth
  split <;> rfl

theorem bounded_labelWidth {text : String} (h : text.length ≤ 2 ^ 67) (style : TextStyle) :
    Bounded 72 (Id.run ((Gauge.exact (approximateMeasure defaultCharRatio)).labelWidth text
      style)) := by
  rw [Gauge.labelWidth_exact]
  split
  · exact .zero
  · exact bounded_approximateMeasure h style

section Sizes

variable {config : LayoutConfig} (hsizes : ∀ size, Bounded 31 (config.get size))

include hsizes

theorem bounded_activationReserve {layers : Nat} (h : layers ≤ 2 ^ 64) :
    Bounded 96 (activationReserve layers config) := by
  unfold activationReserve
  split
  · exact .zero
  · have hhalf : Bounded 31 config.occurrenceWidth.half :=
      (hsizes .occurrenceWidth).half (by decide)
    have hcount : Bounded 64 (.ofNat (layers - 1)) :=
      .ofNat (Nat.le_trans (Nat.sub_le layers 1) h)
    have hoffset := hcount.mul (hsizes .layerOffset) (by decide)
    exact (hhalf.mono (by decide)).add hoffset (by decide)

end Sizes

/-- The directions are one, minus one and zero. -/
theorem bounded_one : Bounded 0 1 := .ofNat (by decide)

theorem Anchor.bounded_facing (a b : Anchor) : Bounded 0 (a.facing b) := by
  unfold Anchor.facing
  split_ifs
  · exact bounded_one
  · exact bounded_one.neg
  · exact .zero

/-- The anchor stands on a lifeline within bounds, under a stack that can be counted. -/
structure Anchor.Moderate (a : Anchor) : Prop where
  center : Bounded 123 a.center
  depth : a.depth ≤ 2 ^ 64

section Anchors

variable {config : LayoutConfig} (hsizes : ∀ size, Bounded 31 (config.get size))
  {origin source target : Anchor}

include hsizes

theorem Anchor.Moderate.edge (h : source.Moderate) {direction : Binary32}
    (hdirection : Bounded 0 direction) : Bounded 124 (source.edge direction config) := by
  unfold Anchor.edge
  split
  · exact h.center.mono (by decide)
  · have hreserve := hdirection.mul (bounded_activationReserve hsizes h.depth) (by decide)
    exact h.center.add (hreserve.mono (by decide)) (by decide)

/-- The numbers of an arrow are differences of edges and centers. -/
theorem Arrow.bounded_between (isSelf : Bool) (horigin : origin.Moderate) (hsource : source.Moderate)
    (htarget : target.Moderate) :
    Bounded 125 (Arrow.between config isSelf origin source target).width ∧
      Bounded 125 (Arrow.between config isSelf origin source target).translation := by
  have hoffset : Bounded 125 (source.edgeOffset target config) := by
    unfold Anchor.edgeOffset
    split
    · exact .zero
    · exact (htarget.edge hsizes (target.bounded_facing source)).sub
        (hsource.edge hsizes (source.bounded_facing target)) (by decide)
  refine ⟨?_, ?_⟩
  · unfold Arrow.between
    cases isSelf
    · exact hoffset.abs
    · exact .zero
  · -- from the left end of the arrow to the lifeline of the origin
    have hcenter : Bounded 124 origin.center := horigin.center.mono (by decide)
    unfold Arrow.between
    dsimp only
    split
    · exact (htarget.edge hsizes bounded_one).sub hcenter (by decide)
    · exact (hsource.edge hsizes bounded_one).sub hcenter (by decide)

end Anchors

/-! ### Lifelines -/

/-- The numbers of a box keep their bounds. -/
structure Box.Moderate (b : Box) : Prop where
  width : Bounded 96 b.width
  labelWidth : Bounded 72 b.labelWidth
  reserve : Bounded 96 b.activationReserve

theorem Box.Moderate.halfExtent {b : Box} (h : b.Moderate) : Bounded 96 b.halfExtent :=
  (h.width.half (by decide)).max h.reserve

/-- A box is as wide as its label with the padding, the declared width or the least width. -/
theorem Box.moderate_of {config : LayoutConfig} (hsizes : ∀ size, Bounded 31 (config.get size))
    {ledger : Ledger} {layers : Document.Layers} {name : String}
    (hlabel : (lifelineLabel ledger name).length ≤ 2 ^ 67)
    (hdeclared : Bounded 96 (((ledger.get? name).bind (·.width)).getD 0))
    (hlayers : layers.at name ≤ 2 ^ 64) :
    (Box.of (approximateMeasure defaultCharRatio) config ledger layers name).Moderate := by
  have hwidth := bounded_labelWidth hlabel .participant
  have hpadding : Bounded 72 config.participantPadding :=
    (hsizes .participantPadding).mono (by decide)
  have hleast : Bounded 96 config.minParticipantWidth :=
    (hsizes .minParticipantWidth).mono (by decide)
  have hpadded := (hwidth.add hpadding (by decide)).mono (by decide : 73 ≤ 96)
  constructor
  · exact (hpadded.max hdeclared).max hleast
  · exact hwidth
  · exact bounded_activationReserve hsizes hlayers

/-- The numbers of a lifeline keep their bounds. -/
structure Lifeline.Moderate (l : Lifeline) : Prop where
  center : Bounded 123 l.center
  box : l.box.Moderate
  reach : Bounded 73 l.selfCallReach

theorem Lifeline.Moderate.bounded {l : Lifeline} (h : l.Moderate) :
    ∀ x ∈ l.numbers, Bounded 123 x := by
  simp only [numbers, List.mem_cons, List.not_mem_nil, or_false, forall_eq_or_imp, forall_eq]
  exact ⟨h.center, h.box.width.mono (by decide), h.box.labelWidth.mono (by decide),
    h.box.reserve.mono (by decide), h.reach.mono (by decide)⟩

/-- A lifeline reaches at most twice as far to the right as it can stand. -/
theorem Lifeline.Moderate.right {l : Lifeline} (h : l.Moderate) : Bounded 124 l.right := by
  have hreach : Bounded 96 (max l.box.halfExtent l.selfCallReach) :=
    h.box.halfExtent.max (h.reach.mono (by decide))
  exact h.center.add (hreach.mono (by decide)) (by decide)

/-- **Adding up distances does not lose the bound**, however many lifelines there are. -/
theorem Coordinates.bounded_center {measure : TextMeasure} {config : LayoutConfig}
    {order : List OrderedParticipant} {ledger : Ledger} {d : Document}
    (hconfig : config.validate = .ok config)
    (hspaced : (ofDocument measure config order ledger d).Spaced config)
    (hboxes : ∀ l ∈ (ofDocument measure config order ledger d).lifelines, l.box.Moderate)
    (hdistance : ∀ r, (ofDocument measure config order ledger d).Asks measure config d r →
      Bounded 98 r.distance) :
    ∀ l ∈ (ofDocument measure config order ledger d).lifelines, Bounded 123 l.center := by
  intro l hl
  obtain ⟨i, hi⟩ := List.mem_iff_getElem?.mp hl
  -- from left to right: a lifeline stands at some distance behind another one
  induction i using Nat.strongRecOn generalizing l with
  | ind i ih =>
    rcases Nat.eq_zero_or_pos i with rfl | hpos
    · rw [center_first hi]
      exact (hboxes l hl).halfExtent.mono (by decide)
    · obtain ⟨r, k, hr, rfl, hk, hcenter⟩ := exists_tight hconfig hspaced hpos hi
      have hleft := ih r.left hr.left_lt_right k (List.mem_of_getElem? hk) hk
      rw [hcenter]
      exact hleft.absorb (hdistance r hr) (by decide)

section Table

variable {measure : TextMeasure} {config : LayoutConfig} {d : Document}
  (hsizes : ∀ size, Bounded 31 (config.get size))
  (hsignature : ∀ m ∈ d.messages, Bounded 72 (signatureWidth measure m.signature))

include hsizes hsignature

/-- No distance that is asked for is out of bounds. -/
theorem Coordinates.Asks.bounded_distance {c : Coordinates}
    (hboxes : ∀ l ∈ c.lifelines, l.box.Moderate) {r : Requirement}
    (h : c.Asks measure config d r) : Bounded 98 r.distance := by
  have hsize (size : Size) : Bounded 97 (config.get size) := (hsizes size).mono (by decide)
  cases h with
  | @neighbours i l l' hl hl' =>
    have hleft := hboxes l (List.mem_of_getElem? hl)
    have hright := hboxes l' (List.mem_of_getElem? hl')
    have hboth := hleft.halfExtent.add hright.halfExtent (by decide)
    exact hboth.add (hsize .margin) (by decide)
  | @between m i j hm hij hends =>
    have hlabel := ((hsignature m hm).mono (by decide : 72 ≤ 96)).add
      ((hsizes .arrowHeadWidth).mono (by decide)) (by decide)
    exact hlabel.add (hsize .occurrenceWidth) (by decide)
  | @toItself m i hm hlt hsender hreceiver =>
    exact ((hsignature m hm).mono (by decide)).add (hsize .selfCallWidth) (by decide)

theorem bounded_selfCallReach (order : List OrderedParticipant) (lifeline : Nat) :
    Bounded 73 (selfCallReach config (LabelledArrow.all measure order d) lifeline) := by
  unfold selfCallReach
  rcases foldl_max_eq_or (fun a : LabelledArrow => a.reach config)
    ((LabelledArrow.all measure order d).filter fun a => a.isLoop && a.source == lifeline) 0
    with hzero | ⟨⟨i, j, width⟩, ha, hreach⟩
  · rw [hzero]
    exact .zero
  · obtain ⟨m, hm, -, -, rfl⟩ := LabelledArrow.mem_all_iff.mp (List.mem_filter.mp ha).1
    rw [hreach]
    exact (hsignature m hm).add ((hsizes .selfCallWidth).mono (by decide)) (by decide)

theorem Coordinates.bounded_reach (order : List OrderedParticipant) (ledger : Ledger) :
    ∀ l ∈ (ofDocument measure config order ledger d).lifelines, Bounded 73 l.selfCallReach := by
  intro l hl
  rw [ofDocument_eq, place] at hl
  obtain ⟨⟨⟨b, x⟩, i⟩, -, rfl⟩ := List.mem_map.mp hl
  exact bounded_selfCallReach hsizes hsignature order i

end Table

/-! ### Boxes of fragments -/

/-- The numbers of the box around two lifelines are their numbers with a few sizes and differences
    of edges. -/
theorem FragmentBox.bounded_around {config : LayoutConfig}
    (hsizes : ∀ size, Bounded 31 (config.get size)) {levels : Nat} (hlevels : levels ≤ 2 ^ 64)
    {origin : Anchor} (horigin : origin.Moderate) {l r : Lifeline} (hl : l.Moderate)
    (hr : r.Moderate) : ∀ x ∈ (around config levels origin l r).numbers, Bounded 127 x := by
  have hcount : Bounded 64 (.ofNat levels) := .ofNat hlevels
  have hborder := (hsizes .fragmentPadding).mul hcount (by decide)
  have hhalf : Bounded 123 l.box.width.half := (hl.box.width.half (by decide)).mono (by decide)
  have hhalf' : Bounded 123 r.box.width.half := (hr.box.width.half (by decide)).mono (by decide)
  have hleft : Bounded 125 (around config levels origin l r).left :=
    (hl.center.sub hhalf (by decide)).sub (hborder.mono (by decide)) (by decide)
  have houter := (hr.center.add hhalf' (by decide)).add (hborder.mono (by decide)) (by decide)
  have hleast := hleft.add ((hsizes .fragmentMinWidth).mono (by decide)) (by decide)
  have hright : Bounded 126 (around config levels origin l r).right :=
    (houter.mono (by decide)).max hleast
  have hwidth : Bounded 127 (around config levels origin l r).width :=
    hright.sub (hleft.mono (by decide)) (by decide)
  have hoffset : Bounded 126 (around config levels origin l r).offset :=
    ((horigin.edge hsizes bounded_one.neg).mono (by decide)).sub hleft (by decide)
  have hpadding : Bounded 126 (around config levels origin l r).paddingLeft :=
    (hl.center.mono (by decide)).sub hleft (by decide)
  have hmin : Bounded 31 (around config levels origin l r).minWidth := hsizes .fragmentMinWidth
  simp only [numbers, List.mem_cons, List.not_mem_nil, or_false, forall_eq_or_imp, forall_eq]
  exact ⟨hleft.mono (by decide), hright.mono (by decide), hwidth, hoffset.mono (by decide),
    hpadding.mono (by decide), hmin.mono (by decide)⟩

/-- A fragment in its place has the box of the fragment, and the width of its first condition. -/
theorem fragmentLayout_ok {measure : TextMeasure} {config : LayoutConfig} {c : Coordinates}
    {d : Document} {f : FragmentTree} {p : FragmentLayout}
    (h : fragmentLayout measure config c d f = .ok p) :
    FragmentBox.of c config f (d.depth f.fragment.id f.fragment.origin) = .ok p.box ∧
      p.conditionWidth =
        (f.sections.head?.bind (·.condition)).elim 0 (measure · .fragmentCondition) := by
  change Id.run (fragmentLayoutWith (.exact measure) config c d f) = .ok p at h
  simp only [fragmentLayoutWith, Gauge.exact, Id.run_bind, Id.run_pure] at h
  cases hbox : FragmentBox.of c config f (d.depth f.fragment.id f.fragment.origin) with
  | error reason =>
    rw [hbox] at h
    cases h
  | ok box =>
    rw [hbox] at h
    cases hcondition : f.sections.head?.bind (·.condition) with
    | none =>
      rw [hcondition] at h
      cases h
      exact ⟨rfl, rfl⟩
    | some condition =>
      rw [hcondition] at h
      cases h
      exact ⟨rfl, rfl⟩

/-! ### The table of a source -/

/-- A width that is recorded is positive. -/
theorem width_pos (program : Program) (starter : Option String) :
    ∀ p ∈ (collect program starter).ledger.entries, ∀ w ∈ p.width, 0 < w := by
  intro p hp w hw
  rw [ledger_collect] at hp
  rw [(Ledger.madeOf_of_mem hp).width] at hw
  exact pos_of_lastWidth hw

/-- The label of a lifeline is not much longer than the source, or than the starter from outside. -/
theorem length_lifelineLabel_le (source : String) (starter : Option String) {name : String}
    (h : name ∈ orderedNames (collect (parse source) starter)) :
    (lifelineLabel (collect (parse source) starter).ledger name).length ≤
      2 * source.length + 1 + (starter.getD "").length := by
  unfold lifelineLabel
  cases hget : (collect (parse source) starter).ledger.get? name with
  | some p => exact length_displayName_le source starter p (List.mem_of_find?_eq_some hget)
  | none =>
    -- only the sentinel has a lifeline without a record
    have hno : name ∉ (collect (parse source) starter).ledger.names := by
      intro hmem
      obtain ⟨p, hp, hname⟩ := (Ledger.mem_names_iff _ _).mp hmem
      exact List.find?_eq_none.mp hget p hp (decide_eq_true hname)
    have hlead := (mem_orderedNames.mp h).resolve_right hno
    unfold leadingName? at hlead
    split at hlead
    · obtain ⟨-, hsentinel⟩ := Option.ite_none_right_eq_some.mp hlead
      cases hsentinel
      exact Nat.zero_le _
    · next first hstarter =>
      obtain ⟨-, hfirst⟩ := Option.ite_none_left_eq_some.mp hlead
      cases hfirst
      exact absurd (mem_names_collect hstarter) hno

/-! ### Limits -/

/-- What is asked of the sizes, of the source and of the starter from outside. -/
structure Limits (config : LayoutConfig) (source : String) (starter : Option String) : Prop where
  valid : config.validate = .ok config
  sizes : ∀ size, config.get size ≤ .ofNat (Nat.pow 2 31)
  sourceFits : source.utf8ByteSize < Nat.pow 2 64
  starterFits : ∀ name ∈ starter, name.utf8ByteSize < Nat.pow 2 64
  widths : ∀ p ∈ (collect (parse source) starter).ledger.entries, ∀ w ∈ p.width,
    w ≤ .ofNat (Nat.pow 2 96)

namespace Limits

variable {config : LayoutConfig} {source : String} {version : Nat} {starter : Option String}
  (h : Limits config source starter)

include h

theorem bounded_size (size : Size) : Bounded 31 (config.get size) :=
  .of_le (LayoutConfig.size_nonneg h.valid size) (h.sizes size) (.ofNat (Nat.le_refl _))

/-- No stack of bars has more layers than a machine word counts. -/
theorem layers_le (version : Nat) (participant : String) :
    (sourceDocument source version starter).layers.at participant ≤ 2 ^ 64 := by
  have hlayers := (sourceDocument_wellIndexed source version starter).layers_le_height participant
  have hheight := heightOf_interpret_le source starter
  exact Nat.le_trans hlayers (Nat.le_trans hheight h.sourceFits)

/-- The texts that are measured have less than `2 ^ 67` characters. -/
theorem shownAtMost (version : Nat) :
    ShownAtMost (2 ^ 67) (sourceDocument source version starter).messages
      (sourceDocument source version starter).fragments := by
  have hlength := length_le_utf8ByteSize source
  have hsource := h.sourceFits
  have hshown := (shownSteps source.length).statements (parse source).statements
    (fun p hp => pieces_parse_atMost source p
      (List.mem_append_right _ (piecesOf_subset_pieces _ hp)))
    ⟨none, topOrigin (parse source) starter, none, none⟩ 0
  simp only [Nat.pow_eq] at hsource
  have hbound : 4 * source.length + 8 ≤ 2 ^ 67 := by omega
  exact hshown.mono hbound

theorem bounded_signature {m : Message}
    (hm : m ∈ (sourceDocument source version starter).messages) :
    Bounded 72 (signatureWidth (approximateMeasure defaultCharRatio) m.signature) := by
  unfold signatureWidth
  split
  · exact .zero
  · exact bounded_approximateMeasure ((h.shownAtMost version).signature m hm) _

/-- The label of a lifeline is not longer than the texts that are measured. -/
theorem length_label_le {name : String} (hname : name ∈ orderedNames (collect (parse source) starter)) :
    (lifelineLabel (collect (parse source) starter).ledger name).length ≤ 2 ^ 67 := by
  have hlabel := length_lifelineLabel_le source starter hname
  have hlength := length_le_utf8ByteSize source
  have hsource := h.sourceFits
  have hstarter : (starter.getD "").length < Nat.pow 2 64 := by
    cases starter with
    | none => decide +kernel
    | some name => exact Nat.lt_of_le_of_lt (length_le_utf8ByteSize name) (h.starterFits name rfl)
  simp only [Nat.pow_eq] at hsource hstarter
  omega

theorem bounded_declaredWidth (name : String) : Bounded 96
    ((((collect (parse source) starter).ledger.get? name).bind (·.width)).getD 0) := by
  cases hwidth : ((collect (parse source) starter).ledger.get? name).bind (·.width) with
  | none => exact .zero
  | some w =>
    obtain ⟨p, hp, hw⟩ := Option.bind_eq_some_iff.mp hwidth
    have hmem := List.mem_of_find?_eq_some hp
    have hpos := width_pos (parse source) starter p hmem w hw
    exact .of_le (Binary32.le_of_lt hpos) (h.widths p hmem w hw) (.ofNat (Nat.le_refl _))

theorem moderate_boxes : ∀ l ∈ (sourceCoordinates (approximateMeasure defaultCharRatio) config
    source version starter).lifelines, l.box.Moderate := by
  intro l hl
  have hmem := List.mem_map_of_mem (f := (·.box)) hl
  rw [sourceCoordinates, Coordinates.ofDocument_eq, Coordinates.map_box_place] at hmem
  obtain ⟨p, hp, hbox⟩ := List.mem_map.mp hmem
  have hname : p.name ∈ orderedNames (collect (parse source) starter) := by
    rw [← map_name_orderParticipants]
    exact List.mem_map_of_mem hp
  rw [← hbox]
  exact Box.moderate_of h.bounded_size (h.length_label_le hname) (h.bounded_declaredWidth p.name)
    (h.layers_le version p.name)

/-- **All lifelines of a source keep their bounds.** -/
theorem moderate_lifelines : ∀ l ∈ (sourceCoordinates (approximateMeasure defaultCharRatio) config
    source version starter).lifelines, l.Moderate := by
  intro l hl
  have hsignature : ∀ m ∈ (sourceDocument source version starter).messages, Bounded 72
      (signatureWidth (approximateMeasure defaultCharRatio) m.signature) :=
    fun m hm => h.bounded_signature hm
  have hspaced := sourceCoordinates_spaced (approximateMeasure defaultCharRatio) h.valid source
    version starter
  constructor
  · apply Coordinates.bounded_center h.valid hspaced h.moderate_boxes _ l hl
    intro r hr
    exact hr.bounded_distance h.bounded_size hsignature h.moderate_boxes
  · exact h.moderate_boxes l hl
  · exact Coordinates.bounded_reach h.bounded_size hsignature _ _ l hl

theorem bounded_totalWidth : Bounded 124 (sourceCoordinates (approximateMeasure defaultCharRatio)
    config source version starter).totalWidth := by
  rw [Coordinates.totalWidth, List.foldl_map]
  rcases foldl_max_eq_or (fun l : Lifeline => l.right) (sourceCoordinates
    (approximateMeasure defaultCharRatio) config source version starter).lifelines 0
    with hzero | ⟨l, hl, hright⟩
  · rw [hzero]
    exact .zero
  · rw [hright]
    exact (h.moderate_lifelines l hl).right

/-- The anchor of a participant is within bounds if its stack is one of the document. -/
theorem moderate_anchor {name : String} {depth : Nat} {a : Anchor}
    (ha : ArrowEnd.anchor (sourceCoordinates (approximateMeasure defaultCharRatio) config source
      version starter) ⟨name, depth⟩ = .ok a)
    (hdepth : depth ≤ (sourceDocument source version starter).layers.at name) : a.Moderate := by
  obtain ⟨l, hl, rfl⟩ := ArrowEnd.anchor_eq_ok ha
  have hmem := Coordinates.mem_of_get? hl
  exact ⟨(h.moderate_lifelines l hmem).center, Nat.le_trans hdepth (h.layers_le version name)⟩

/-- **The numbers of all messages keep their bounds.** -/
theorem bounded_messages : ∀ p ∈ (computeLayout (approximateMeasure defaultCharRatio) config source
    version starter).messages, ∀ x ∈ p.numbers, Bounded 125 x := by
  intro p hp
  have hindexed := sourceDocument_wellIndexed source version starter
  obtain ⟨m, hm, hlayout⟩ := exists_message_of_mem_layout hp
  obtain ⟨origin, source', target, horigin, hsender, hreceiver, rfl⟩ :=
    MessageLayout.exists_anchors hlayout
  have horigin := h.moderate_anchor horigin (hindexed.depth_le_layers _ _)
  have hsender := h.moderate_anchor hsender (hindexed.depth_le_layers _ _)
  have hreceiver := h.moderate_anchor hreceiver (by
    -- the bar of a call is on top of those around it
    split
    · next hactivates => exact hindexed.depth_lt_of_activates hm hactivates
    · exact hindexed.depth_le_layers _ _)
  have harrow := Arrow.bounded_between h.bounded_size (m.sender = m.receiver) horigin hsender
    hreceiver
  refine List.forall_mem_cons.mpr ⟨harrow.1, List.forall_mem_cons.mpr ⟨harrow.2, fun x hx => ?_⟩⟩
  obtain ⟨bar, hbar, hx⟩ := List.mem_flatMap.mp hx
  obtain ⟨-, hbar⟩ := Option.ite_none_right_eq_some.mp (Option.mem_toList.mp hbar)
  cases hbar
  have hleft := hreceiver.edge h.bounded_size bounded_one.neg
  have hright := hreceiver.edge h.bounded_size bounded_one
  rcases List.mem_cons.mp hx with rfl | hx
  · exact hleft.mono (by decide)
  · cases List.mem_singleton.mp hx
    exact hright.mono (by decide)

/-- A condition has the width of its text, and none without a text. -/
theorem bounded_conditionWidth {f : FragmentTree}
    (hf : f ∈ (sourceDocument source version starter).fragments) :
    Bounded 127 ((f.sections.head?.bind (·.condition)).elim 0
      (approximateMeasure defaultCharRatio · .fragmentCondition)) := by
  cases hfirst : f.sections.head?.bind (·.condition) with
  | none =>
    rw [Option.elim_none]
    exact .zero
  | some condition =>
    obtain ⟨first, hsection, hcondition⟩ := Option.bind_eq_some_iff.mp hfirst
    have hlength := (h.shownAtMost version).condition f hf first (List.mem_of_head? hsection)
      condition hcondition
    rw [Option.elim_some]
    exact (bounded_approximateMeasure hlength .fragmentCondition).mono (by decide)

/-- **The numbers of all fragments keep their bounds.** -/
theorem bounded_fragments : ∀ p ∈ (computeLayout (approximateMeasure defaultCharRatio) config source
    version starter).fragments, ∀ x ∈ p.numbers, Bounded 127 x := by
  intro p hp
  rw [computeLayout_eq] at hp
  obtain ⟨f, hf, hplace⟩ := List.mem_map.mp (mem_placed.mp hp)
  obtain ⟨hbox, hcondition⟩ := fragmentLayout_ok hplace
  obtain ⟨l, r, origin, hanchor, hextremes, heq⟩ := FragmentBox.of_ok hbox
  obtain ⟨i, j, hl, hr, -⟩ := Coordinates.extremes?_eq_some hextremes
  have horigin := h.moderate_anchor hanchor
    ((sourceDocument_wellIndexed source version starter).depth_le_layers _ _)
  have hlevels : nestingLevels f.sections + 1 ≤ 2 ^ 64 :=
    Nat.lt_of_le_of_lt (nestingLevels_le hf) h.sourceFits
  refine List.forall_mem_cons.mpr ⟨?_, ?_⟩
  · rw [hcondition]
    exact h.bounded_conditionWidth hf
  · rw [heq]
    exact FragmentBox.bounded_around h.bounded_size hlevels horigin
      (h.moderate_lifelines l (List.mem_of_getElem? hl))
      (h.moderate_lifelines r (List.mem_of_getElem? hr))

end Limits

/-! ### The result -/

/-- **All numbers of a layout are finite** if no size is larger than `2 ^ 31`, no declared width is
    larger than `2 ^ 96`, and the source and the starter from outside fit into memory. -/
theorem layout_numbers_finite {config : LayoutConfig} {source : String} {version : Nat}
    {starter : Option String} (hconfig : config.validate = .ok config)
    (hsizes : ∀ size, config.get size ≤ .ofNat (Nat.pow 2 31))
    (hsource : source.utf8ByteSize < Nat.pow 2 64)
    (hstarter : ∀ name ∈ starter, name.utf8ByteSize < Nat.pow 2 64)
    (hwidths : ∀ p ∈ (collect (parse source) starter).ledger.entries, ∀ w ∈ p.width,
      w ≤ .ofNat (Nat.pow 2 96)) :
    ∀ x ∈ (computeLayout (approximateMeasure defaultCharRatio) config source version
      starter).numbers, x.isFinite := by
  have h : Limits config source starter := ⟨hconfig, hsizes, hsource, hstarter, hwidths⟩
  apply DiagramLayout.forall_numbers
  · rw [coordinates_computeLayout]
    exact h.bounded_totalWidth.isFinite (by decide)
  · rw [coordinates_computeLayout]
    intro l hl x hx
    exact ((h.moderate_lifelines l hl).bounded x hx).isFinite (by decide)
  · intro p hp x hx
    exact (h.bounded_messages p hp x hx).isFinite (by decide)
  · intro p hp x hx
    exact (h.bounded_fragments p hp x hx).isFinite (by decide)

/-- A declared width of some hundred units leaves all numbers of a layout finite. -/
theorem declared_box_gives_numbers :
    let source := "A 120\nB\nA->B: m"
    let layout := computeLayout (approximateMeasure defaultCharRatio) .standard source 0 none
    layout.coordinates.lifelines.map (·.center) = [60, 180] ∧ ∀ x ∈ layout.numbers, x.isFinite := by
  intro source layout
  have hcenters : layout.coordinates.lifelines.map (·.center) = [60, 180] := by decide +kernel
  have hconfig : LayoutConfig.standard.fault? = none := by decide +kernel
  have hsizes : ∀ size, LayoutConfig.standard.get size ≤ .ofNat (Nat.pow 2 31) := by
    intro size
    cases size <;> decide +kernel
  have hwidths : ∀ p ∈ (collect (parse source) none).ledger.entries, ∀ w ∈ p.width,
      w ≤ .ofNat (Nat.pow 2 96) := by
    decide +kernel
  exact ⟨hcenters, layout_numbers_finite (by rw [LayoutConfig.validate, hconfig]) hsizes
    (by decide +kernel) (fun name hname => nomatch hname) hwidths⟩

/-- A width of 40 digits is infinite. It is recorded because it is positive, and then the distance of
    the two lifelines is no number. -/
theorem wide_box_gives_no_number :
    let source := "A 9999999999999999999999999999999999999999\nB\nA->B: m"
    let layout := computeLayout (approximateMeasure defaultCharRatio) .standard source 0 none
    LayoutConfig.standard.fault? = none ∧ layout.coordinates.totalWidth = .infinite false ∧
      layout.coordinates.lifelines.map (·.center) = [.infinite false, .infinite false] ∧
      layout.messages.map (·.arrow.translation) = [.nan] ∧
      ¬ ∀ x ∈ layout.numbers, x.isFinite := by
  decide +kernel

end SequenceDiagram
