import SequenceDiagram.Layout.Diagram
import SequenceDiagram.Proofs.Document.Names
import SequenceDiagram.Proofs.Layout.Centers

namespace SequenceDiagram

/-!
# Layouts computed afresh

With a gauge that computes every answer afresh, a layout is a plain function of its inputs.

* `Coordinates.ofDocument`, `messageLayout` and `fragmentLayout` are its parts, and `computeLayout`
  is put together from them: `computeLayout_eq`.
* `messageLayout_ok`: a message has a place if the three names in it have lifelines. With
  `mentions_have_lifelines` this leaves out only the documents without lifelines.
* `messages_placed_iff` is the exact condition under which no message is lost.
-/

/-! ### The parts of a layout -/

section Parts

variable (measure : TextMeasure) (config : LayoutConfig)

/-- The box of a lifeline. -/
def Box.of (ledger : Ledger) (layers : Document.Layers) (name : String) : Box :=
  Id.run (boxWith (.exact measure) config ledger layers name)

@[simp] theorem Box.name_of (ledger : Ledger) (layers : Document.Layers) (name : String) :
    (Box.of measure config ledger layers name).name = name := rfl

@[simp] theorem Box.activationReserve_of (ledger : Ledger) (layers : Document.Layers)
    (name : String) : (Box.of measure config ledger layers name).activationReserve =
      SequenceDiagram.activationReserve (layers.at name) config := rfl

/-- The arrows of the messages whose ends have lifelines. -/
def LabelledArrow.all (order : List OrderedParticipant) (d : Document) : List LabelledArrow :=
  (d.messages.filterMap (arrowEnds? order)).map fun (source, target, signature) =>
    ⟨source, target, Id.run ((Gauge.exact measure).labelWidth signature .messageContent)⟩

/-- The places of the lifelines of a document. -/
def Coordinates.ofDocument (order : List OrderedParticipant) (ledger : Ledger) (d : Document) :
    Coordinates :=
  Id.run (Coordinates.ofDocumentWith (.exact measure) config order ledger d)

/-- A message in its place. -/
def messageLayout (c : Coordinates) (d : Document) (m : Message) :
    Except Diagnostic MessageLayout :=
  Id.run (messageLayoutWith (.exact measure) config c d m)

/-- A fragment in its place. -/
def fragmentLayout (c : Coordinates) (d : Document) (f : FragmentTree) :
    Except Diagnostic FragmentLayout :=
  Id.run (fragmentLayoutWith (.exact measure) config c d f)

theorem Coordinates.ofDocument_eq (order : List OrderedParticipant) (ledger : Ledger)
    (d : Document) :
    ofDocument measure config order ledger d =
      .place config (order.map fun p => Box.of measure config ledger d.layers p.name)
        (LabelledArrow.all measure order d) := by
  simp only [ofDocument, ofDocumentWith, Id.run_bind, Id.run_pure, List.idRun_mapM]
  rfl

/-- There is one lifeline for each participant, in their order. -/
theorem Coordinates.map_name_ofDocument (order : List OrderedParticipant) (ledger : Ledger)
    (d : Document) :
    (ofDocument measure config order ledger d).lifelines.map (·.name) = order.map (·.name) := by
  rw [ofDocument_eq, map_name_place, List.map_map]
  rfl

theorem messageLayout_eq (c : Coordinates) (d : Document) (m : Message) :
    messageLayout measure config c d m =
      (MessageLayout.of c config m ⟨d.depth m.id m.origin, d.depth m.id m.sender,
        d.depth m.id m.receiver⟩).mapError (.at m.source) := rfl

/-- A fragment has a place exactly when its box has one. -/
theorem fragmentLayout_eq (c : Coordinates) (d : Document) (f : FragmentTree) :
    ∃ conditionWidth, fragmentLayout measure config c d f =
      ((FragmentBox.of c config f (d.depth f.fragment.id f.fragment.origin)).mapError
        (.at f.fragment.source)).map
        (⟨f.fragment.id, f.fragment.kind, f.fragment.origin, conditionWidth, ·⟩) := by
  refine ⟨(f.sections.head?.bind (·.condition)).elim 0 (measure · .fragmentCondition), ?_⟩
  show Id.run (fragmentLayoutWith (.exact measure) config c d f) = _
  -- the condition is only measured for a box that has a place, and changes nothing else
  simp only [fragmentLayoutWith, Gauge.exact, Id.run_bind, Id.run_pure]
  cases FragmentBox.of c config f (d.depth f.fragment.id f.fragment.origin) with
  | error reason => rfl
  | ok box => cases f.sections.head?.bind (·.condition) <;> rfl

end Parts

/-! ### The whole layout -/

/-- The document of a source, in the version in which it is laid out. -/
def sourceDocument (source : String) (version : Nat) (starter : Option String) : Document :=
  (interpret (parse source) starter).document.withVersion version

/-- The places of the lifelines of a source. -/
def sourceCoordinates (measure : TextMeasure) (config : LayoutConfig) (source : String)
    (version : Nat) (starter : Option String) : Coordinates :=
  .ofDocument measure config (orderParticipants (collect (parse source) starter))
    (collect (parse source) starter).ledger (sourceDocument source version starter)

section Whole

variable (measure : TextMeasure) (config : LayoutConfig) (source : String) (version : Nat)
  (starter : Option String)

theorem computeLayout_eq : computeLayout measure config source version starter =
    let d := sourceDocument source version starter
    let c := sourceCoordinates measure config source version starter
    let messages := d.messages.map (messageLayout measure config c d)
    let fragments := d.fragments.map (fragmentLayout measure config c d)
    { version := version
      participants := orderParticipants (collect (parse source) starter)
      coordinates := c
      messages := placed messages
      fragments := placed fragments
      diagnostics := unplaced messages ++ unplaced fragments
      faults := (interpret (parse source) starter).faults } := by
  simp only [computeLayout, computeLayoutWith, Id.run_bind, Id.run_pure, List.idRun_mapM]
  rfl

theorem coordinates_computeLayout :
    (computeLayout measure config source version starter).coordinates =
      sourceCoordinates measure config source version starter := by
  rw [computeLayout_eq]

theorem map_name_sourceCoordinates :
    (sourceCoordinates measure config source version starter).lifelines.map (·.name) =
      orderedNames (collect (parse source) starter) := by
  rw [sourceCoordinates, Coordinates.map_name_ofDocument, map_name_orderParticipants]

end Whole

/-! ### Who has a place -/

/-- A participant among the lifelines has a center. -/
theorem Coordinates.center_ok {c : Coordinates} {name : String}
    (h : name ∈ c.lifelines.map (·.name)) : ∃ x, c.center name = .ok x := by
  obtain ⟨l, hl, hname⟩ := List.mem_map.mp h
  cases hget : c.get? name with
  | none =>
    have hne := List.find?_eq_none.mp hget l hl
    exact absurd (decide_eq_true hname) hne
  | some l' => exact ⟨l'.center, by rw [center, hget]⟩

/-- The end of an arrow on a lifeline has an anchor. -/
theorem ArrowEnd.anchor_ok {c : Coordinates} {name : String}
    (h : name ∈ c.lifelines.map (·.name)) (layers : Nat) :
    ∃ a, ArrowEnd.anchor c ⟨name, layers⟩ = .ok a := by
  obtain ⟨x, hx⟩ := c.center_ok h
  exact ⟨⟨x, layers⟩, by simp only [anchor, hx]⟩

/-- An anchor stands on the lifeline of its participant. -/
theorem ArrowEnd.anchor_eq_ok {c : Coordinates} {e : ArrowEnd} {a : Anchor}
    (h : e.anchor c = .ok a) : ∃ l, c.get? e.name = some l ∧ a = ⟨l.center, e.layers⟩ := by
  unfold anchor Coordinates.center at h
  cases hget : c.get? e.name with
  | none =>
    rw [hget] at h
    cases h
  | some l =>
    rw [hget] at h
    cases h
    exact ⟨l, rfl, rfl⟩

/-- A message between lifelines has a place, and keeps its number there. -/
theorem MessageLayout.of_ok {c : Coordinates} {m : Message}
    (h : ∀ name ∈ m.mentions, name ∈ c.lifelines.map (·.name)) (config : LayoutConfig)
    (depths : MessageDepths) : ∃ l, MessageLayout.of c config m depths = .ok l ∧ l.id = m.id := by
  have hsender := h m.sender (by simp [Message.mentions])
  have hreceiver := h m.receiver (by simp [Message.mentions])
  have horigin := h m.origin (by simp [Message.mentions])
  obtain ⟨a, ha⟩ := ArrowEnd.anchor_ok horigin depths.origin
  obtain ⟨b, hb⟩ := ArrowEnd.anchor_ok hsender depths.sender
  obtain ⟨e, he⟩ := ArrowEnd.anchor_ok hreceiver
    (if m.kind.activates then depths.receiver + 1 else depths.receiver)
  -- with an anchor for each of the three ends nothing is left that could fail
  refine ⟨⟨m.id, m.kind, m.sender, m.receiver, m.signature,
    .between config (m.sender = m.receiver) a b e,
    if m.kind.activates then some (Occurrence.of config e) else none⟩, ?_, rfl⟩
  simp only [MessageLayout.of, layoutArrow, ha, hb, he]
  rfl

/-- What a message in its place is made of: its three ends have anchors, and if it opens a bar, that
    lies on top of the bars of the receiver. -/
theorem MessageLayout.exists_anchors {c : Coordinates} {config : LayoutConfig} {m : Message}
    {depths : MessageDepths} {p : MessageLayout} (h : MessageLayout.of c config m depths = .ok p) :
    ∃ origin source target, ArrowEnd.anchor c ⟨m.origin, depths.origin⟩ = .ok origin ∧
      ArrowEnd.anchor c ⟨m.sender, depths.sender⟩ = .ok source ∧
      ArrowEnd.anchor c ⟨m.receiver,
        if m.kind.activates then depths.receiver + 1 else depths.receiver⟩ = .ok target ∧
      p = ⟨m.id, m.kind, m.sender, m.receiver, m.signature,
        .between config (m.sender = m.receiver) origin source target,
        if m.kind.activates then some (Occurrence.of config target) else none⟩ := by
  unfold MessageLayout.of layoutArrow at h
  generalize (if m.kind.activates then depths.receiver + 1 else depths.receiver) = receiver at h ⊢
  cases horigin : ArrowEnd.anchor c ⟨m.origin, depths.origin⟩ with
  | error reason =>
    simp only [horigin] at h
    cases h
  | ok origin =>
    cases hsource : ArrowEnd.anchor c ⟨m.sender, depths.sender⟩ with
    | error reason =>
      simp only [horigin, hsource] at h
      cases h
    | ok source =>
      cases htarget : ArrowEnd.anchor c ⟨m.receiver, receiver⟩ with
      | error reason =>
        simp only [horigin, hsource, htarget] at h
        cases h
      | ok target =>
        simp only [horigin, hsource, htarget] at h
        cases h
        exact ⟨origin, source, target, rfl, rfl, rfl, rfl⟩

/-- A fragment whose origin has a lifeline lacks a place only if nobody takes part in it. -/
theorem FragmentBox.of_error {c : Coordinates} {config : LayoutConfig} {f : FragmentTree}
    {depth : Nat} {reason : LayoutError} (h : FragmentBox.of c config f depth = .error reason)
    (horigin : f.fragment.origin ∈ c.lifelines.map (·.name) ∨ c.lifelines = []) (name : String) :
    reason ≠ .unknownParticipant name := by
  unfold FragmentBox.of at h
  cases hextremes : c.extremes? f.fragment.participants with
  | none =>
    rw [hextremes] at h
    cases h
    exact LayoutError.noConfusion
  | some ends =>
    rw [hextremes] at h
    rcases horigin with horigin | hempty
    · obtain ⟨a, ha⟩ := ArrowEnd.anchor_ok horigin depth
      simp only [ha] at h
      cases h
    · -- without lifelines there are no extremes
      have hnone : c.extremes? f.fragment.participants = none := by
        simp [Coordinates.extremes?, hempty]
      rw [hnone] at hextremes
      cases hextremes

/-! ### Messages that are placed -/

/-- If every element has a place, then all are placed in their order. -/
theorem placed_map {α β κ : Type} {f : α → Except Diagnostic β} {left : α → κ} {right : β → κ}
    {xs : List α} (h : ∀ x ∈ xs, ∃ y, f x = .ok y ∧ right y = left x) :
    (placed (xs.map f)).map right = xs.map left ∧ unplaced (xs.map f) = [] := by
  induction xs with
  | nil => exact ⟨rfl, rfl⟩
  | cons x xs ih =>
    obtain ⟨y, hy, hkey⟩ := h x List.mem_cons_self
    obtain ⟨hplaced, hunplaced⟩ := ih fun z hz => h z (List.mem_cons_of_mem x hz)
    have hcons : placed ((x :: xs).map f) = y :: placed (xs.map f) := by
      rw [List.map_cons, hy]
      rfl
    have hnone : unplaced ((x :: xs).map f) = unplaced (xs.map f) := by
      rw [List.map_cons, hy]
      rfl
    rw [hcons, hnone, List.map_cons, List.map_cons, hplaced, hkey]
    exact ⟨rfl, hunplaced⟩

theorem mem_placed {α : Type} {results : List (Except Diagnostic α)} {x : α} :
    x ∈ placed results ↔ .ok x ∈ results := by
  unfold placed
  rw [List.mem_filterMap]
  constructor
  · rintro ⟨result, hmem, h⟩
    cases result with
    | error d => cases h
    | ok y =>
      cases h
      exact hmem
  · intro h
    exact ⟨_, h, rfl⟩

theorem mem_unplaced {α : Type} {results : List (Except Diagnostic α)} {d : Diagnostic} :
    d ∈ unplaced results ↔ .error d ∈ results := by
  unfold unplaced
  rw [List.mem_filterMap]
  constructor
  · rintro ⟨result, hmem, h⟩
    cases result with
    | ok y => cases h
    | error e =>
      cases h
      exact hmem
  · intro h
    exact ⟨_, h, rfl⟩

section Whole

variable (measure : TextMeasure) (config : LayoutConfig) (source : String) (version : Nat)
  (starter : Option String)

/-- Whom a document mentions stands among the lifelines of its layout, if there are any. -/
theorem mem_lifelines_of_mem_mentions {name : String}
    (h : name ∈ (sourceDocument source version starter).mentions) :
    name ∈ (sourceCoordinates measure config source version starter).lifelines.map (·.name) ∨
      (sourceCoordinates measure config source version starter).lifelines = [] := by
  have hnames := map_name_sourceCoordinates measure config source version starter
  rcases hasLifeline_of_mem_mentions h with h | ⟨_, h⟩
  · exact .inl (hnames ▸ h)
  · rw [h, List.map_eq_nil_iff] at hnames
    exact .inr hnames

/-- Without participants there are no lifelines. -/
theorem lifelines_eq_nil_iff :
    (sourceCoordinates measure config source version starter).lifelines = [] ↔
      orderParticipants (collect (parse source) starter) = [] := by
  rw [orderParticipants_eq_nil_iff,
    ← map_name_sourceCoordinates measure config source version starter, List.map_eq_nil_iff]

/-- No fragment lacks a place for want of a lifeline. -/
theorem fragmentLayout_error {f : FragmentTree} {d : Diagnostic}
    (hf : f ∈ (sourceDocument source version starter).fragments)
    (h : fragmentLayout measure config (sourceCoordinates measure config source version starter)
      (sourceDocument source version starter) f = .error d) (name : String) :
    d.reason ≠ .unknownParticipant name := by
  obtain ⟨conditionWidth, heq⟩ := fragmentLayout_eq measure config
    (sourceCoordinates measure config source version starter)
    (sourceDocument source version starter) f
  -- the origin is mentioned, so only a fragment without participants lacks a place
  have horigin : f.fragment.origin ∈ (sourceDocument source version starter).mentions :=
    List.mem_append_right _ (List.mem_flatMap.mpr ⟨f, hf, List.mem_cons_self⟩)
  rw [heq] at h
  cases hbox : FragmentBox.of (sourceCoordinates measure config source version starter) config f
      ((sourceDocument source version starter).depth f.fragment.id f.fragment.origin) with
  | error reason =>
    rw [hbox] at h
    cases h
    exact FragmentBox.of_error hbox
      (mem_lifelines_of_mem_mentions measure config source version starter horigin) name
  | ok box =>
    rw [hbox] at h
    cases h

/-- A message has a place, and keeps its number there, if there are lifelines. -/
theorem messageLayout_ok
    (hlines : (sourceCoordinates measure config source version starter).lifelines ≠ [])
    {m : Message} (hm : m ∈ (sourceDocument source version starter).messages) :
    ∃ l, messageLayout measure config (sourceCoordinates measure config source version starter)
      (sourceDocument source version starter) m = .ok l ∧ l.id = m.id := by
  have hnames : ∀ name ∈ m.mentions, name ∈
      (sourceCoordinates measure config source version starter).lifelines.map (·.name) := by
    intro name hname
    have hmention : name ∈ (sourceDocument source version starter).mentions :=
      List.mem_append_left _ (List.mem_flatMap.mpr ⟨m, hm, hname⟩)
    exact (mem_lifelines_of_mem_mentions measure config source version starter
      hmention).resolve_right hlines
  obtain ⟨l, hl, hid⟩ := MessageLayout.of_ok hnames config
    ⟨(sourceDocument source version starter).depth m.id m.origin,
      (sourceDocument source version starter).depth m.id m.sender,
      (sourceDocument source version starter).depth m.id m.receiver⟩
  exact ⟨l, by rw [messageLayout_eq, hl]; rfl, hid⟩

/-- Without lifelines no message has a place. -/
theorem messageLayout_error {c : Coordinates} (hlines : c.lifelines = []) (d : Document)
    (m : Message) : messageLayout measure config c d m =
      .error (.at m.source (.unknownParticipant m.origin)) := by
  have horigin : c.center m.origin = .error (.unknownParticipant m.origin) := by
    rw [Coordinates.center, Coordinates.get?, hlines]
    rfl
  rw [messageLayout_eq, MessageLayout.of, layoutArrow, ArrowEnd.anchor, horigin]
  rfl

/-- Every message in its place is one of the document, placed by the bars around it. -/
theorem exists_message_of_mem_layout {measure : TextMeasure} {config : LayoutConfig}
    {source : String} {version : Nat} {starter : Option String} {p : MessageLayout}
    (hp : p ∈ (computeLayout measure config source version starter).messages) :
    let d := sourceDocument source version starter
    ∃ m ∈ d.messages, MessageLayout.of (sourceCoordinates measure config source version starter)
      config m ⟨d.depth m.id m.origin, d.depth m.id m.sender, d.depth m.id m.receiver⟩ = .ok p := by
  rw [computeLayout_eq] at hp
  obtain ⟨m, hm, hplace⟩ := List.mem_map.mp (mem_placed.mp hp)
  refine ⟨m, hm, ?_⟩
  rw [messageLayout_eq] at hplace
  cases hlayout : MessageLayout.of _ config m _ with
  | error reason =>
    rw [hlayout] at hplace
    cases hplace
  | ok q =>
    rw [hlayout] at hplace
    cases hplace
    rfl

/-- **No message is lost unless there is no lifeline.** The messages of a layout are those that a
    walk over the document meets, in the same order and with the same numbers, and no element lacks
    a place for want of a lifeline, exactly if the document has a lifeline or no message. -/
theorem messages_placed_iff :
    ((computeLayout measure config source version starter).messages.map (·.id) =
        ((interpret (parse source) starter).document.places.filterMap
          (·.node.message?)).map (·.id) ∧
      ∀ d ∈ (computeLayout measure config source version starter).diagnostics, ∀ name,
        d.reason ≠ .unknownParticipant name) ↔
    ((computeLayout measure config source version starter).participants ≠ [] ∨
      (interpret (parse source) starter).document.places.filterMap (·.node.message?) = []) := by
  have hwalk : (interpret (parse source) starter).document.places.filterMap (·.node.message?) =
      (sourceDocument source version starter).messages := (messagesOf_eq none _).symm
  rw [hwalk, computeLayout_eq]
  show ((placed _).map _ = _ ∧ ∀ d ∈ unplaced _ ++ unplaced _, _) ↔
    (orderParticipants (collect (parse source) starter) ≠ [] ∨ _)
  rw [Ne, ← lifelines_eq_nil_iff measure config source version starter]
  by_cases hlines : (sourceCoordinates measure config source version starter).lifelines = []
  · -- nothing is placed, so there must be nothing to place
    have hnone : placed ((sourceDocument source version starter).messages.map
        (messageLayout measure config (sourceCoordinates measure config source version starter)
          (sourceDocument source version starter))) = [] := by
      refine List.eq_nil_iff_forall_not_mem.mpr fun l hl => ?_
      obtain ⟨m, _, hm⟩ := List.mem_map.mp (mem_placed.mp hl)
      rw [messageLayout_error measure config hlines] at hm
      cases hm
    rw [hnone]
    constructor
    · intro h
      exact .inr (List.map_eq_nil_iff.mp h.1.symm)
    · intro h
      have hempty := h.resolve_left (not_not_intro hlines)
      rw [hempty]
      refine ⟨rfl, fun d hd => ?_⟩
      obtain ⟨f, hf, hd⟩ := List.mem_map.mp (mem_unplaced.mp hd)
      exact fragmentLayout_error measure config source version starter hf hd
  · -- every message is placed, so all diagnostics are about fragments
    obtain ⟨hplaced, hunplaced⟩ := placed_map fun m hm =>
      messageLayout_ok measure config source version starter hlines hm
    refine iff_of_true ⟨hplaced, fun d hd => ?_⟩ (.inl hlines)
    rw [hunplaced, List.nil_append] at hd
    obtain ⟨f, hf, hd⟩ := List.mem_map.mp (mem_unplaced.mp hd)
    exact fragmentLayout_error measure config source version starter hf hd

end Whole

/-- A return that is written as a message, and names nobody, is such a message: the walk over the
    statements asks for no lifeline, and so the layout has no place for it. -/
theorem lone_message_return_is_lost :
    (interpret (parse "@return") none).document.places.filterMap (·.node.message?) ≠ [] ∧
      (computeLayout (approximateMeasure defaultCharRatio) .standard "@return" 0 none).messages =
        [] := by
  decide +kernel

end SequenceDiagram
