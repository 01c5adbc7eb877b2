import SequenceDiagram.Proofs.Layout.Spacing

namespace SequenceDiagram

open Binary32

/-!
# The lifelines stand as far to the left as they can

The lifelines are placed in one walk, while what has to fit between them comes from all boxes and
all messages of a document.

* `Coordinates.Asks` lists what is asked of a table, without a walk: distances between neighbours,
  room for labels between the ends of messages, and room for the labels of messages to oneself.
* `Asks.mem_requirements` and `asks_of_mem_requirements`: these are the requirements from which the
  centers are computed.
* `exists_eq_centers`: the largest of the places that are asked for is one of them.
* `centers_least_solution` is the result for layouts: the centers satisfy everything that is asked
  for, and every other solution stands further to the right.
-/

/-! ### What is asked of a table -/

/-- The width of the label with a signature; without a text it is zero. -/
def signatureWidth (measure : TextMeasure) (signature : String) : Binary32 :=
  if signature = "" then 0 else measure signature .messageContent

theorem signatureWidth_eq (measure : TextMeasure) (signature : String) :
    Id.run ((Gauge.exact measure).labelWidth signature .messageContent) =
      signatureWidth measure signature := by
  unfold Gauge.labelWidth signatureWidth
  split <;> rfl

namespace Coordinates

/-- What the boxes and the messages of a document ask of the places of the lifelines. -/
inductive Asks (measure : TextMeasure) (config : LayoutConfig) (d : Document) (c : Coordinates) :
    Requirement → Prop
  /-- Two neighbours keep their boxes, or bars, and the margin apart. -/
  | neighbours {i : Nat} {l l' : Lifeline} : c.lifelines[i]? = some l →
      c.lifelines[i + 1]? = some l' →
      Asks measure config d c ⟨i, i + 1, l.box.halfExtent + l'.box.halfExtent + config.margin⟩
  /-- A label fits between the ends of a message, in whichever direction it goes. -/
  | between {m : Message} {i j : Nat} : m ∈ d.messages → i < j →
      (c.indexOf? m.sender = some i ∧ c.indexOf? m.receiver = some j ∨
        c.indexOf? m.sender = some j ∧ c.indexOf? m.receiver = some i) →
      Asks measure config d c
        ⟨i, j, signatureWidth measure m.signature + config.arrowHeadWidth + config.occurrenceWidth⟩
  /-- The label of a message to oneself fits in front of the next lifeline, if there is one. -/
  | toItself {m : Message} {i : Nat} : m ∈ d.messages → i + 1 < c.lifelines.length →
      c.indexOf? m.sender = some i → c.indexOf? m.receiver = some i →
      Asks measure config d c ⟨i, i + 1, signatureWidth measure m.signature + config.selfCallWidth⟩

end Coordinates

/-! ### The requirements say the same -/

theorem mem_neighbourRequirements_iff {config : LayoutConfig} {boxes : List Box}
    {r : Requirement} : r ∈ neighbourRequirements config boxes ↔
      ∃ i b b', boxes[i]? = some b ∧ boxes[i + 1]? = some b' ∧
        r = ⟨i, i + 1, b.halfExtent + b'.halfExtent + config.margin⟩ := by
  constructor
  · intro h
    obtain ⟨⟨⟨b, b'⟩, i⟩, hmem, rfl⟩ := List.mem_map.mp h
    rw [List.mem_zipIdx_iff_getElem?, List.getElem?_zip_eq_some, List.getElem?_tail] at hmem
    exact ⟨i, b, b', hmem.1, hmem.2, rfl⟩
  · rintro ⟨i, b, b', hb, hb', rfl⟩
    exact mem_neighbourRequirements hb hb'

/-- An arrow stands for a message between two participants that have lifelines. -/
theorem LabelledArrow.mem_all_iff {measure : TextMeasure} {order : List OrderedParticipant}
    {d : Document} {i j : Nat} {width : Binary32} :
    ⟨i, j, width⟩ ∈ LabelledArrow.all measure order d ↔
      ∃ m ∈ d.messages, indexOf? order m.sender = some i ∧
        indexOf? order m.receiver = some j ∧ width = signatureWidth measure m.signature := by
  have hlabel (m : Message) := signatureWidth_eq measure m.signature
  unfold LabelledArrow.all
  rw [List.mem_map]
  constructor
  · rintro ⟨⟨source, target, signature⟩, hmem, harrow⟩
    cases harrow
    obtain ⟨m, hm, hends⟩ := List.mem_filterMap.mp hmem
    unfold arrowEnds? at hends
    split at hends
    · next hsource htarget =>
      cases hends
      exact ⟨m, hm, hsource, htarget, hlabel m⟩
    · cases hends
  · rintro ⟨m, hm, hsource, htarget, rfl⟩
    refine ⟨(i, j, m.signature), List.mem_filterMap.mpr ⟨m, hm, ?_⟩, ?_⟩
    · simp only [arrowEnds?, hsource, htarget]
    · simp only [hlabel]

/-! ### What an arrow asks for -/

namespace LabelledArrow

variable {config : LayoutConfig} {i j : Nat} {width : Binary32}

theorem requirement_of_lt (h : i < j) : requirement config ⟨i, j, width⟩ =
    ⟨i, j, width + config.arrowHeadWidth + config.occurrenceWidth⟩ := by
  simp [requirement, isLoop, Nat.ne_of_lt h, Nat.min_eq_left (Nat.le_of_lt h),
    Nat.max_eq_right (Nat.le_of_lt h)]

/-- An arrow to the left asks for the same as one to the right. -/
theorem requirement_of_gt (h : i < j) : requirement config ⟨j, i, width⟩ =
    ⟨i, j, width + config.arrowHeadWidth + config.occurrenceWidth⟩ := by
  simp [requirement, isLoop, Nat.ne_of_gt h, Nat.min_eq_right (Nat.le_of_lt h),
    Nat.max_eq_left (Nat.le_of_lt h)]

theorem requirement_self : requirement config ⟨i, i, width⟩ =
    ⟨i, i + 1, width + config.selfCallWidth⟩ := by
  simp [requirement, isLoop, reach]

theorem mem_requirements {a : LabelledArrow} {boxes : List Box} {arrows : List LabelledArrow}
    {r : Requirement} (ha : a ∈ arrows) (h : a.requirement config = r) :
    r ∈ requirements config boxes arrows :=
  List.mem_append_right _ (List.mem_map.mpr ⟨a, ha, h⟩)

end LabelledArrow

namespace Coordinates

variable {measure : TextMeasure} {config : LayoutConfig}

/-- The number of a lifeline is that of its participant. -/
theorem indexOf?_eq {c : Coordinates} {order : List OrderedParticipant}
    (h : c.lifelines.map (·.name) = order.map (·.name)) (name : String) :
    c.indexOf? name = SequenceDiagram.indexOf? order name := by
  have hc : c.indexOf? name = (c.lifelines.map (·.name)).findIdx? (· = name) := by
    rw [List.findIdx?_map]
    rfl
  have horder : SequenceDiagram.indexOf? order name =
      (order.map (·.name)).findIdx? (· = name) := by
    rw [List.findIdx?_map]
    rfl
  rw [hc, horder, h]

section Document

variable {order : List OrderedParticipant} {ledger : Ledger} {d : Document} {r : Requirement}

variable (measure config) in
/-- The table has the boxes of the participants, in their order. -/
theorem getElem?_boxes (order : List OrderedParticipant) (ledger : Ledger) (d : Document)
    (i : Nat) : (order.map fun p => Box.of measure config ledger d.layers p.name)[i]? =
      ((ofDocument measure config order ledger d).lifelines[i]?).map (·.box) := by
  rw [← List.getElem?_map, ofDocument_eq, map_box_place]

/-- Who has a number has a lifeline. -/
theorem indexOf?_lt {c : Coordinates} {name : String} {i : Nat} (h : c.indexOf? name = some i) :
    i < c.lifelines.length :=
  (List.findIdx?_eq_some_iff_getElem.mp h).1

/-- Whatever is asked of a table is one of the requirements, and none behind the last lifeline. -/
theorem Asks.mem_requirements
    (h : (ofDocument measure config order ledger d).Asks measure config d r) :
    r ∈ requirements config (order.map fun p => Box.of measure config ledger d.layers p.name)
        (LabelledArrow.all measure order d) ∧
      r.right < (ofDocument measure config order ledger d).lifelines.length := by
  have hindex := indexOf?_eq (map_name_ofDocument measure config order ledger d)
  have harrow {m : Message} {i j : Nat} (hm : m ∈ d.messages)
      (hsender : (ofDocument measure config order ledger d).indexOf? m.sender = some i)
      (hreceiver : (ofDocument measure config order ledger d).indexOf? m.receiver = some j) :
      ⟨i, j, signatureWidth measure m.signature⟩ ∈ LabelledArrow.all measure order d :=
    LabelledArrow.mem_all_iff.mpr ⟨m, hm, hindex _ ▸ hsender, hindex _ ▸ hreceiver, rfl⟩
  cases h with
  | @neighbours i l l' hl hl' =>
    refine ⟨List.mem_append_left _ (mem_neighbourRequirements ?_ ?_), ?_⟩
    · rw [getElem?_boxes, hl, Option.map_some]
    · rw [getElem?_boxes, hl', Option.map_some]
    · exact (List.getElem?_eq_some_iff.mp hl').1
  | @between m i j hm hij hends =>
    rcases hends with ⟨hsender, hreceiver⟩ | ⟨hsender, hreceiver⟩
    · exact ⟨LabelledArrow.mem_requirements (harrow hm hsender hreceiver)
        (LabelledArrow.requirement_of_lt hij), indexOf?_lt hreceiver⟩
    · exact ⟨LabelledArrow.mem_requirements (harrow hm hsender hreceiver)
        (LabelledArrow.requirement_of_gt hij), indexOf?_lt hsender⟩
  | @toItself m i hm hlt hsender hreceiver =>
    exact ⟨LabelledArrow.mem_requirements (harrow hm hsender hreceiver)
      LabelledArrow.requirement_self, hlt⟩

/-- Every requirement on one of the lifelines is asked of the table. -/
theorem asks_of_mem_requirements
    (h : r ∈ requirements config (order.map fun p => Box.of measure config ledger d.layers p.name)
      (LabelledArrow.all measure order d))
    (hlt : r.right < (ofDocument measure config order ledger d).lifelines.length) :
    (ofDocument measure config order ledger d).Asks measure config d r := by
  have hindex := indexOf?_eq (map_name_ofDocument measure config order ledger d)
  rcases List.mem_append.mp h with h | h
  · obtain ⟨i, b, b', hb, hb', rfl⟩ := mem_neighbourRequirements_iff.mp h
    rw [getElem?_boxes, Option.map_eq_some_iff] at hb hb'
    obtain ⟨l, hl, rfl⟩ := hb
    obtain ⟨l', hl', rfl⟩ := hb'
    exact .neighbours hl hl'
  · obtain ⟨⟨i, j, width⟩, ha, rfl⟩ := List.mem_map.mp h
    obtain ⟨m, hm, hsender, hreceiver, rfl⟩ := LabelledArrow.mem_all_iff.mp ha
    rw [← hindex] at hsender hreceiver
    -- the arrow goes to the right, comes back to its lifeline, or goes to the left
    rcases Nat.lt_trichotomy i j with hij | rfl | hij
    · rw [LabelledArrow.requirement_of_lt hij]
      exact .between hm hij (.inl ⟨hsender, hreceiver⟩)
    · rw [LabelledArrow.requirement_self] at hlt ⊢
      exact .toItself hm hlt hsender hreceiver
    · rw [LabelledArrow.requirement_of_gt hij]
      exact .between hm hij (.inr ⟨hsender, hreceiver⟩)

end Document

end Coordinates

/-! ### Distances -/

section Distances

variable {measure : TextMeasure} {config : LayoutConfig}

/-- No label has a negative width. -/
theorem signatureWidth_nonneg (hmeasure : ∀ text style, 0 ≤ measure text style)
    (signature : String) : 0 ≤ signatureWidth measure signature := by
  unfold signatureWidth
  split
  · exact Binary32.le_refl (ne_nan_of_rank rank_zero)
  · exact hmeasure _ _

/-- Everything is asked of a lifeline and of one further to the right. -/
theorem Coordinates.Asks.left_lt_right {d : Document} {c : Coordinates} {r : Requirement}
    (h : c.Asks measure config d r) : r.left < r.right := by
  cases h with
  | neighbours => exact Nat.lt_succ_self _
  | between _ hij _ => exact hij
  | toItself => exact Nat.lt_succ_self _

/-- No distance that is asked for is negative. -/
theorem Coordinates.Asks.distance_nonneg (hmeasure : ∀ text style, 0 ≤ measure text style)
    (hconfig : config.validate = .ok config) {d : Document} {c : Coordinates}
    (hspaced : c.Spaced config) {r : Requirement} (h : c.Asks measure config d r) :
    0 ≤ r.distance := by
  cases h with
  | @neighbours i l l' hl hl' =>
    have hextent := hspaced.halfExtent_nonneg hconfig (List.mem_of_getElem? hl)
    have hextent' := hspaced.halfExtent_nonneg hconfig (List.mem_of_getElem? hl')
    exact Binary32.add_nonneg (Binary32.add_nonneg hextent hextent')
      (LayoutConfig.size_nonneg hconfig .margin)
  | @between m i j hm hij hends =>
    exact Binary32.add_nonneg (Binary32.add_nonneg (signatureWidth_nonneg hmeasure m.signature)
      (LayoutConfig.size_nonneg hconfig .arrowHeadWidth))
      (LayoutConfig.size_nonneg hconfig .occurrenceWidth)
  | @toItself m i hm hlt hsender hreceiver =>
    exact Binary32.add_nonneg (signatureWidth_nonneg hmeasure m.signature)
      (LayoutConfig.size_nonneg hconfig .selfCallWidth)

end Distances

/-! ### The largest place is one of those that are asked for -/

/-- A running maximum is the number that it starts from, or one of those that it meets. -/
theorem foldl_max_eq_or {α : Type} (f : α → Binary32) (xs : List α) (start : Binary32) :
    xs.foldl (fun m x => max m (f x)) start = start ∨
      ∃ x ∈ xs, xs.foldl (fun m x => max m (f x)) start = f x := by
  induction xs generalizing start with
  | nil => exact .inl rfl
  | cons y rest ih =>
    rw [List.foldl_cons]
    rcases ih (max start (f y)) with h | ⟨x, hx, h⟩
    · rw [h]
      exact (max_eq_or start (f y)).imp_right fun h => ⟨y, List.mem_cons_self, h⟩
    · exact .inr ⟨x, List.mem_cons_of_mem y hx, h⟩

/-- **A lifeline stands exactly where one of the requirements asks for it**, as soon as one of them
    asks for a place that is not left of zero. -/
theorem exists_eq_centers {reqs : List Requirement} {boxes : List Box} {r : Requirement}
    {x x' : Binary32} (hr : r ∈ reqs) (hlt : r.left < r.right)
    (hx : (centers reqs boxes)[r.left]? = some x)
    (hx' : (centers reqs boxes)[r.right]? = some x') (h : 0 ≤ x + r.distance) :
    ∃ q ∈ reqs, q.right = r.right ∧ ∀ y, q.left < q.right →
      (centers reqs boxes)[q.left]? = some y → x' = y + q.distance := by
  obtain ⟨hstep, hlength, -⟩ := centers_step_getD hlt hx hx'
  rcases foldl_max_eq_or (fun q => ((centers reqs boxes).take r.right).getD q.left 0 + q.distance)
    (reqs.filter fun q => q.right = ((centers reqs boxes).take r.right).length)
    (-Binary32.largest) with hstart | ⟨q, hq, heq⟩
  · -- the start is the least finite number, and a place right of it was asked for
    have hle := Binary32.le_trans h (le_centers hr hlt hx hx' (ne_nan_of_le_right h))
    have hneg : ¬ (0 : Binary32) ≤ -Binary32.largest := by decide +kernel
    rw [hstep] at hle
    exact absurd (hstart ▸ hle) hneg
  · obtain ⟨hmem, hqright⟩ := List.mem_filter.mp hq
    have hqright : q.right = r.right := by rw [of_decide_eq_true hqright, hlength]
    refine ⟨q, hmem, hqright, fun y hqlt hy => ?_⟩
    rw [hqright] at hqlt
    rw [← (centers_step_getD hqlt hy hx').2.2, hstep]
    exact heq

/-! ### The table -/

namespace Coordinates

variable {measure : TextMeasure} {config : LayoutConfig} {order : List OrderedParticipant}
  {ledger : Ledger} {d : Document} {l l' : Lifeline}

/-- The centers of the table are computed from its requirements. -/
theorem getElem?_centers {i : Nat}
    (hl : (ofDocument measure config order ledger d).lifelines[i]? = some l) :
    (centers (requirements config
      (order.map fun p => Box.of measure config ledger d.layers p.name)
      (LabelledArrow.all measure order d))
      (order.map fun p => Box.of measure config ledger d.layers p.name))[i]? = some l.center := by
  rw [ofDocument_eq] at hl
  exact (getElem?_place hl).2

/-- The first box starts at zero. -/
theorem center_first
    (hl : (ofDocument measure config order ledger d).lifelines[0]? = some l) :
    l.center = l.box.halfExtent := by
  have hcenter := getElem?_centers hl
  have hbox := getElem?_boxes measure config order ledger d 0
  rw [hl, Option.map_some] at hbox
  cases hboxes : order.map fun p => Box.of measure config ledger d.layers p.name with
  | nil =>
    rw [hboxes] at hbox
    cases hbox
  | cons first rest =>
    rw [hboxes] at hbox hcenter
    rw [centers_zero, Option.some.injEq] at hcenter
    rw [List.getElem?_cons_zero, Option.some.injEq] at hbox
    rw [← hcenter, hbox]

/-- What is asked of two lifelines holds of them, if it is a number. -/
theorem Asks.le {r : Requirement}
    (h : (ofDocument measure config order ledger d).Asks measure config d r)
    (hl : (ofDocument measure config order ledger d).lifelines[r.left]? = some l)
    (hl' : (ofDocument measure config order ledger d).lifelines[r.right]? = some l')
    (hnan : l.center + r.distance ≠ nan) : l.center + r.distance ≤ l'.center :=
  le_centers h.mem_requirements.1 h.left_lt_right (getElem?_centers hl) (getElem?_centers hl') hnan

/-- **A lifeline behind the first stands exactly where something asks for it.** -/
theorem exists_tight (hconfig : config.validate = .ok config)
    (hspaced : (ofDocument measure config order ledger d).Spaced config) {i : Nat} (hi : 0 < i)
    (hl' : (ofDocument measure config order ledger d).lifelines[i]? = some l') :
    ∃ r l, (ofDocument measure config order ledger d).Asks measure config d r ∧ r.right = i ∧
      (ofDocument measure config order ledger d).lifelines[r.left]? = some l ∧
      l'.center = l.center + r.distance := by
  obtain ⟨hlt, _⟩ := List.getElem?_eq_some_iff.mp hl'
  obtain ⟨k, rfl⟩ : ∃ k, i = k + 1 := ⟨i - 1, by omega⟩
  -- the neighbour to the left asks for a place that is not left of zero
  have hk := List.getElem?_eq_getElem (Nat.lt_of_succ_lt hlt)
  generalize (ofDocument measure config order ledger d).lifelines[k] = l at hk
  have hl := List.mem_of_getElem? hk
  have hboth := Binary32.add_nonneg (hspaced.halfExtent_nonneg hconfig hl)
    (hspaced.halfExtent_nonneg hconfig (List.mem_of_getElem? hl'))
  have hplace := Binary32.add_nonneg (hspaced.center_nonneg hconfig hl)
    (Binary32.add_nonneg hboth (LayoutConfig.size_nonneg hconfig .margin))
  have hasks : (ofDocument measure config order ledger d).Asks measure config d _ :=
    .neighbours hk hl'
  obtain ⟨q, hq, hqright, heq⟩ := exists_eq_centers hasks.mem_requirements.1 (Nat.lt_succ_self k)
    (getElem?_centers hk) (getElem?_centers hl') hplace
  have hqasks := asks_of_mem_requirements hq (hqright ▸ hlt)
  -- what asks for the place of the lifeline is about another one to the left of it
  have hqlt := hqasks.left_lt_right
  have hqright' : q.right = k + 1 := hqright
  have hq := List.getElem?_eq_getElem (Nat.lt_trans (hqright' ▸ hqlt) hlt)
  exact ⟨q, _, hqasks, hqright, hq, heq _ hqlt (getElem?_centers hq)⟩

/-- The centers keep everything that is asked of them, and no solution stands further to the
    left. -/
structure IsLeastSolution (measure : TextMeasure) (config : LayoutConfig) (d : Document)
    (c : Coordinates) : Prop where
  /-- The first box starts at zero. -/
  first : ∀ l, c.lifelines[0]? = some l → l.center = l.box.halfExtent
  /-- Whatever is asked for is there. -/
  holds : ∀ r, c.Asks measure config d r → ∃ l l', c.lifelines[r.left]? = some l ∧
    c.lifelines[r.right]? = some l' ∧ l.center + r.distance ≤ l'.center
  /-- Every other lifeline is held in its place by something that is asked for. -/
  tight : ∀ i l', 0 < i → c.lifelines[i]? = some l' → ∃ r l, c.Asks measure config d r ∧
    r.right = i ∧ c.lifelines[r.left]? = some l ∧ l'.center = l.center + r.distance
  /-- Other places that keep what is asked for are not further to the left. -/
  least : ∀ places : Nat → Binary32,
    (∀ l, c.lifelines[0]? = some l → l.box.halfExtent ≤ places 0) →
    (∀ r, c.Asks measure config d r → places r.left + r.distance ≤ places r.right) →
    ∀ i l, c.lifelines[i]? = some l → l.center ≤ places i

/-- The table of a document is the least solution, if its lifelines are spaced. -/
theorem isLeastSolution (hmeasure : ∀ text style, 0 ≤ measure text style)
    (hconfig : config.validate = .ok config)
    (hspaced : (ofDocument measure config order ledger d).Spaced config) :
    (ofDocument measure config order ledger d).IsLeastSolution measure config d where
  first l hl := center_first hl
  holds r hr := by
    have hlt := hr.mem_requirements.2
    have hl := List.getElem?_eq_getElem (Nat.lt_trans hr.left_lt_right hlt)
    have hl' := List.getElem?_eq_getElem hlt
    have hsum := Binary32.add_nonneg (hspaced.center_nonneg hconfig (List.mem_of_getElem? hl))
      (hr.distance_nonneg hmeasure hconfig hspaced)
    exact ⟨_, _, hl, hl', hr.le hl hl' (ne_nan_of_le_right hsum)⟩
  tight i l' hi hl' := exists_tight hconfig hspaced hi hl'
  least places hfirst hplaces i l hl := by
    -- from left to right: what holds a lifeline in its place holds for the other places too
    induction i using Nat.strongRecOn generalizing l with
    | ind i ih =>
      rcases Nat.eq_zero_or_pos i with rfl | hi
      · rw [center_first hl]
        exact hfirst l hl
      · obtain ⟨r, k, hr, rfl, hk, hcenter⟩ := exists_tight hconfig hspaced hi hl
        have hle := ih r.left hr.left_lt_right k hk
        have hplace := hplaces r hr
        have hdistance := hr.distance_nonneg hmeasure hconfig hspaced
        have hsum := Binary32.add_nonneg
          (hspaced.center_nonneg hconfig (List.mem_of_getElem? hk)) hdistance
        calc l.center = k.center + r.distance := hcenter
          _ ≤ places r.left + r.distance :=
            Binary32.add_le_add hle (Binary32.le_refl (ne_nan_of_le_right hdistance))
              (ne_nan_of_le_right hsum) (ne_nan_of_le_left hplace)
          _ ≤ places r.right := hplace

end Coordinates

/-! ### Layouts -/

/-- **The lifelines of a layout are the least solution** of what its boxes and its messages ask
    for. -/
theorem centers_least_solution {measure : TextMeasure} {config : LayoutConfig}
    (hmeasure : ∀ text style, 0 ≤ measure text style) (hconfig : config.validate = .ok config)
    (source : String) (version : Nat) (starter : Option String) :
    (computeLayout measure config source version starter).coordinates.IsLeastSolution measure config
      (sourceDocument source version starter) := by
  rw [coordinates_computeLayout]
  exact Coordinates.isLeastSolution hmeasure hconfig
    (sourceCoordinates_spaced measure hconfig source version starter)

/-- A width that is estimated from the number of characters is not negative. -/
theorem approximateMeasure_nonneg {ratio : Binary32} (hratio : 0 < ratio) (hfin : ratio.isFinite)
    (text : String) (style : TextStyle) : 0 ≤ approximateMeasure ratio text style := by
  have hsize : 0 < style.fontSize ∧ style.fontSize.isFinite := by
    cases style <;> decide +kernel
  have hbold : 0 < style.boldness ∧ style.boldness.isFinite := by
    cases style <;> decide +kernel
  have hcount := mul_nonneg_of_pos (ofNat_nonneg (sanitizedLength text)) hsize.1 hsize.2
  exact mul_nonneg_of_pos (mul_nonneg_of_pos hcount hratio hfin) hbold.1 hbold.2

/-- A long label holds the second lifeline in its place, and the third one only keeps its distance
    to the second. -/
theorem long_label_is_held :
    let source := "A B C\nA->B.aVeryLongMethodNameThatNeedsALotOfRoom()\nC->A: x"
    let layout := computeLayout (approximateMeasure defaultCharRatio) .standard source 0 none
    layout.coordinates.lifelines.map (·.center) = [40, 377, 477] ∧
      layout.coordinates.IsLeastSolution (approximateMeasure defaultCharRatio) .standard
        (sourceDocument source 0 none) := by
  intro source layout
  have hcenters : layout.coordinates.lifelines.map (·.center) = [40, 377, 477] := by
    decide +kernel
  have hconfig : LayoutConfig.standard.fault? = none := by decide +kernel
  have hpos : 0 < defaultCharRatio := by decide +kernel
  have hfin : defaultCharRatio.isFinite := by decide +kernel
  exact ⟨hcenters, centers_least_solution (approximateMeasure_nonneg hpos hfin)
    (by rw [LayoutConfig.validate, hconfig]) source 0 none⟩

end SequenceDiagram
