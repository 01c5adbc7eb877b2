import SequenceDiagram.Proofs.Document.Layers
import SequenceDiagram.Proofs.Layout.Afresh

namespace SequenceDiagram

/-!
# Arrows and the bars on the lifelines

The arrows of a layout end at stacks of bars, which are counted for each message on its own; the
lifelines keep room for the tallest stacks, which are found beforehand.

* `MessageLayout.Shows` is what a message in its place shows of the bars around it, and
  `MessageLayout.shows` says that it does.
* `arrows_attach_to_bars`: seen from the call around a message, its arrow ends at the bar which that
  call opens, and a return goes back to where the call came from.
* `layers_reserved`: no arrow, bar or fragment needs more layers than are reserved on its lifeline,
  and as many as are reserved are drawn.
-/

/-! ### Messages in their places -/

namespace MessageLayout

/-- The message in its place shows the bars around it on its three lifelines, and its own on top of
    those of the receiver. -/
structure Shows (d : Document) (m : Message) (p : MessageLayout) : Prop where
  id : p.id = m.id
  kind : p.kind = m.kind
  sender : p.sender = m.sender
  receiver : p.receiver = m.receiver
  origin : p.arrow.originLayers = d.depth m.id m.origin
  source : p.arrow.sourceLayers = d.depth m.id m.sender
  target : p.arrow.targetLayers =
    d.depth m.id m.receiver + if m.kind.activates then 1 else 0
  layer : p.occurrence.map (·.layer) =
    if m.kind.activates then some (d.depth m.id m.receiver + 1) else none

theorem shows {c : Coordinates} {config : LayoutConfig} {d : Document} {m : Message}
    {p : MessageLayout} (h : MessageLayout.of c config m
      ⟨d.depth m.id m.origin, d.depth m.id m.sender, d.depth m.id m.receiver⟩ = .ok p) :
    p.Shows d m := by
  obtain ⟨origin, source, target, horigin, hsource, htarget, rfl⟩ := exists_anchors h
  obtain ⟨_, -, rfl⟩ := ArrowEnd.anchor_eq_ok horigin
  obtain ⟨_, -, rfl⟩ := ArrowEnd.anchor_eq_ok hsource
  obtain ⟨_, -, rfl⟩ := ArrowEnd.anchor_eq_ok htarget
  refine ⟨rfl, rfl, rfl, rfl, rfl, rfl, ?_, ?_⟩
  · show (if m.kind.activates then d.depth m.id m.receiver + 1 else d.depth m.id m.receiver) = _
    split <;> rfl
  · show Option.map _ (if m.kind.activates then some _ else none) = _
    split <;> rfl

/-- A call shows its bar. -/
theorem Shows.bar {d : Document} {m : Message} {p : MessageLayout} (h : p.Shows d m)
    (hactivates : m.kind.activates = true) :
    ∃ bar, p.occurrence = some bar ∧ bar.layer = d.depth m.id m.receiver + 1 := by
  have hlayer := h.layer
  rw [if_pos hactivates] at hlayer
  exact Option.map_eq_some_iff.mp hlayer

end MessageLayout

section Whole

variable {measure : TextMeasure} {config : LayoutConfig} {source : String} {version : Nat}
  {starter : Option String}

theorem sourceDocument_wellIndexed (source : String) (version : Nat) (starter : Option String) :
    (sourceDocument source version starter).WellIndexed :=
  interpret_wellIndexed (parse source) starter

/-- A message in its place is that of its number, with the bars around that. -/
theorem shows_of_mem_layout {m : Message} {p : MessageLayout}
    (hm : m ∈ (sourceDocument source version starter).messages)
    (hp : p ∈ (computeLayout measure config source version starter).messages) (hid : p.id = m.id) :
    p.Shows (sourceDocument source version starter) m := by
  obtain ⟨m', hm', hlayout⟩ := exists_message_of_mem_layout hp
  have hshows := MessageLayout.shows hlayout
  have heq := (sourceDocument_wellIndexed source version starter).message_eq_of_id_eq hm hm'
    (hid.symm.trans hshows.id)
  exact heq ▸ hshows

/-- Every message has its place, if there are lifelines. -/
theorem exists_layout_of_mem_messages
    (hlines : (sourceCoordinates measure config source version starter).lifelines ≠ [])
    {m : Message} (hm : m ∈ (sourceDocument source version starter).messages) :
    ∃ p ∈ (computeLayout measure config source version starter).messages, p.id = m.id := by
  obtain ⟨p, hp, hid⟩ := messageLayout_ok measure config source version starter hlines hm
  rw [computeLayout_eq]
  exact ⟨p, mem_placed.mpr (List.mem_map.mpr ⟨m, hm, hp⟩), hid⟩

/-- Where a message has its place, there are lifelines. -/
theorem lifelines_ne_nil_of_mem_layout {p : MessageLayout}
    (hp : p ∈ (computeLayout measure config source version starter).messages) :
    (sourceCoordinates measure config source version starter).lifelines ≠ [] := by
  intro hlines
  rw [computeLayout_eq] at hp
  obtain ⟨m, -, hplace⟩ := List.mem_map.mp (mem_placed.mp hp)
  rw [messageLayout_error measure config hlines] at hplace
  cases hplace

end Whole

/-! ### Arrows and the call around them -/

/-- The arrow of a message ends at the bar of the call around it, which has its place as `q`. -/
structure MessageLayout.Attached (m : Message) (p q : MessageLayout) : Prop where
  /-- The origin stands under the bar, and so does the sender unless another one is written. -/
  bar : ∃ bar, q.occurrence = some bar ∧ p.arrow.originLayers = bar.layer ∧
    (m.senderWritten = false → p.arrow.sourceLayers = bar.layer)
  /-- A return without a written receiver ends where the call came from, and on top of the bar of
      the call if it came from its own receiver. -/
  back : m.kind = .ret → m.written = none →
    p.arrow.targetLayers = q.arrow.sourceLayers + if q.sender = q.receiver then 1 else 0

/-- A message under a call is attached to it. -/
theorem MessageLayout.Shows.attached {d : Document} (h : d.WellIndexed) {top : String}
    {m c : Message} {p q : MessageLayout} (hp : p.Shows d m) (hq : q.Shows d c)
    (hresolved : m.Resolved top (d.enclosingCall? m.id)) (hcall : d.enclosingCall? m.id = some c) :
    Attached m p q := by
  have hdepth (participant : String) : d.depth m.id participant =
      d.depth c.id participant + if c.receiver = participant then 1 else 0 := by
    rw [h.depth_enclosingCall?, hcall]
  rw [hcall] at hresolved
  obtain ⟨bar, hbar, hlayer⟩ := hq.bar (h.of_enclosingCall?_eq_some hcall).1
  -- the origin is the receiver of the call, so the bar is one more than those around the call
  have horigin : p.arrow.originLayers = bar.layer := by
    have hname : m.origin = c.receiver := hresolved.origin
    rw [hp.origin, hlayer, hname, hdepth, if_pos rfl]
  refine ⟨⟨bar, hbar, horigin, fun hopen => ?_⟩, fun hkind hwritten => ?_⟩
  · rw [hp.source, hresolved.sender hopen, ← hp.origin, horigin]
  · have hreceiver : m.receiver = c.sender := by
      rcases hresolved.unwritten hwritten with ⟨hsync, -⟩ | ⟨-, hreceiver⟩
      · rw [hkind] at hsync
        cases hsync
      · exact hreceiver
    -- a return opens no bar of its own
    have hnone : m.kind.activates = false := by rw [hkind]; rfl
    rw [hp.target, hreceiver, hdepth, hnone, hq.source, hq.sender, hq.receiver]
    simp only [Bool.false_eq_true, if_false, Nat.add_zero, eq_comm (a := c.receiver)]

/-- **Arrows end at the bar that they belong to.** In the body of a call the arrow of a message
    starts at the bar that the call opens, unless another sender is written, and a return goes back
    to where the call came from. Outside of every call an arrow starts at no bar. -/
theorem arrows_attach_to_bars {measure : TextMeasure} {config : LayoutConfig} {source : String}
    {version : Nat} {starter : Option String} {m : Message} {p : MessageLayout}
    (hm : m ∈ (sourceDocument source version starter).messages)
    (hp : p ∈ (computeLayout measure config source version starter).messages) (hid : p.id = m.id) :
    ((sourceDocument source version starter).enclosingCall? m.id = none →
      p.arrow.originLayers = 0 ∧ p.arrow.sourceLayers = 0) ∧
    ∀ c, (sourceDocument source version starter).enclosingCall? m.id = some c →
      (∃ q ∈ (computeLayout measure config source version starter).messages, q.id = c.id) ∧
      ∀ q ∈ (computeLayout measure config source version starter).messages, q.id = c.id →
        p.Attached m q := by
  have hindexed := sourceDocument_wellIndexed source version starter
  have hresolves := interpret_resolves (parse source) starter hindexed rfl
  have hresolved := hindexed.resolved_of_mem_messages hresolves hm
  have hshows := shows_of_mem_layout hm hp hid
  refine ⟨fun hcall => ?_, fun c hcall => ?_⟩
  · rw [hshows.origin, hshows.source, hindexed.depth_enclosingCall?, hindexed.depth_enclosingCall?,
      hcall]
    exact ⟨rfl, rfl⟩
  · have hc := (hindexed.of_enclosingCall?_eq_some hcall).2
    refine ⟨exists_layout_of_mem_messages (lifelines_ne_nil_of_mem_layout hp) hc,
      fun q hq hqid => ?_⟩
    exact hshows.attached hindexed (shows_of_mem_layout hc hq hqid) hresolved hcall

/-- A return in a fragment of a call of a participant to itself ends on top of the bar where that call
    came from. -/
theorem return_of_call_to_itself_attaches :
    let source := "A.m \x7b A->A.n \x7b opt \x7b return \x7d \x7d \x7d"
    let d := sourceDocument source 0 none
    let layout := computeLayout (approximateMeasure defaultCharRatio) .standard source 0 none
    ∃ m ∈ d.messages, ∃ p ∈ layout.messages, p.id = m.id ∧ m.kind = .ret ∧ m.written = none ∧
      p.arrow.targetLayers = 2 ∧ ∃ c, d.enclosingCall? m.id = some c ∧ c.sender = c.receiver ∧
        ∃ q ∈ layout.messages, q.id = c.id ∧ p.Attached m q ∧ q.arrow.sourceLayers = 1 := by
  intro source d layout
  have hexists : ∃ m ∈ d.messages, ∃ p ∈ layout.messages, p.id = m.id ∧ m.kind = .ret ∧
      m.written = none ∧ p.arrow.targetLayers = 2 ∧
      (d.enclosingCall? m.id).any fun c => c.sender = c.receiver := by decide +kernel
  obtain ⟨m, hm, p, hp, hid, hkind, hwritten, htarget, hsome⟩ := hexists
  obtain ⟨c, hcall, hself⟩ := (Option.any_eq_true ..).mp hsome
  have hself : c.sender = c.receiver := of_decide_eq_true hself
  obtain ⟨⟨q, hq, hqid⟩, hattached⟩ := (arrows_attach_to_bars hm hp hid).2 c hcall
  have hattached := hattached q hq hqid
  have hc := ((sourceDocument_wellIndexed source 0 none).of_enclosingCall?_eq_some hcall).2
  have hshows := shows_of_mem_layout hc hq hqid
  have hback := hattached.back hkind hwritten
  rw [hshows.sender, hshows.receiver, if_pos hself, htarget] at hback
  exact ⟨m, hm, p, hp, hid, hkind, hwritten, htarget, c, hcall, hself, q, hq, hqid, hattached,
    by omega⟩

/-! ### Reserved layers -/

/-- The bar of a call lies on a stack of the table. -/
theorem Document.WellIndexed.depth_lt_of_activates {d : Document} (h : d.WellIndexed) {m : Message}
    (hm : m ∈ d.messages) (hactivates : m.kind.activates = true) :
    d.depth m.id m.receiver + 1 ≤ d.layers.at m.receiver := by
  obtain ⟨x, hx, hid, hopened⟩ := exists_place_of_activates hm hactivates
  have hbar := h.activation?_eq hx
  rw [hid, hopened] at hbar
  exact depth_lt_layers hbar

/-- A call has its place: its receiver has a lifeline. -/
theorem exists_layout_of_opened (measure : TextMeasure) (config : LayoutConfig) {source : String}
    {version : Nat} {starter : Option String} {id : NodeId} {participant : String}
    (h : (sourceDocument source version starter).activation? id = some participant) :
    ∃ q ∈ (computeLayout measure config source version starter).messages,
      q.kind.activates = true ∧ q.receiver = participant ∧ ∃ bar, q.occurrence = some bar ∧
        bar.layer = (sourceDocument source version starter).depth id participant + 1 := by
  have hindexed := sourceDocument_wellIndexed source version starter
  rw [hindexed.activation?_eq_call?] at h
  obtain ⟨c, hcall, rfl⟩ := Option.map_eq_some_iff.mp h
  obtain ⟨rfl, hactivates, hc⟩ := hindexed.of_call?_eq_some hcall
  have hlines : (sourceCoordinates measure config source version starter).lifelines ≠ [] := by
    obtain ⟨x, hx, -, hopened⟩ := Document.exists_place_of_activates hc hactivates
    have hname := mem_orderedNames_of_opened hx hopened
    rw [← map_name_sourceCoordinates measure config source version starter] at hname
    intro hnil
    rw [hnil] at hname
    cases hname
  obtain ⟨q, hq, hid⟩ := exists_layout_of_mem_messages hlines hc
  have hshows := shows_of_mem_layout hc hq hid
  exact ⟨q, hq, hshows.kind ▸ hactivates, hshows.receiver, hshows.bar hactivates⟩

/-- **The layers that are drawn are reserved, and no more than these.** Around a message or a
    fragment there are at most as many bars as are reserved on the lifeline, the bar that a message
    opens included, and so the ends of the arrows and the bars stay within them; every lifeline keeps
    the room for them, and on every lifeline that has a bar the topmost reserved layer is drawn. -/
theorem layers_reserved (measure : TextMeasure) (config : LayoutConfig) (source : String)
    (version : Nat) (starter : Option String) :
    let d := sourceDocument source version starter
    let layout := computeLayout measure config source version starter
    (∀ m ∈ d.messages, d.depth m.id m.origin ≤ d.layers.at m.origin ∧
      d.depth m.id m.sender ≤ d.layers.at m.sender ∧
      d.depth m.id m.receiver ≤ d.layers.at m.receiver ∧
      (m.kind.activates = true → d.depth m.id m.receiver + 1 ≤ d.layers.at m.receiver)) ∧
    (∀ f ∈ d.fragments,
      d.depth f.fragment.id f.fragment.origin ≤ d.layers.at f.fragment.origin) ∧
    (∀ q ∈ layout.messages, q.arrow.sourceLayers ≤ d.layers.at q.sender ∧
      q.arrow.targetLayers ≤ d.layers.at q.receiver ∧
      ∀ bar, q.occurrence = some bar → bar.layer ≤ d.layers.at q.receiver) ∧
    (∀ l ∈ layout.coordinates.lifelines,
      l.box.activationReserve = activationReserve (d.layers.at l.name) config) ∧
    ∀ participant, 0 < d.layers.at participant → ∃ q ∈ layout.messages,
      q.kind.activates = true ∧ q.receiver = participant ∧
        ∃ bar, q.occurrence = some bar ∧ bar.layer = d.layers.at participant := by
  intro d layout
  have hindexed : d.WellIndexed := sourceDocument_wellIndexed source version starter
  refine ⟨fun m hm => ?_, fun f _ => hindexed.depth_le_layers _ _, fun q hq => ?_, fun l hl => ?_,
    fun participant hpos => ?_⟩
  · exact ⟨hindexed.depth_le_layers _ _, hindexed.depth_le_layers _ _,
      hindexed.depth_le_layers _ _, fun hactivates => hindexed.depth_lt_of_activates hm hactivates⟩
  · obtain ⟨m, hm, hlayout⟩ := exists_message_of_mem_layout hq
    have hshows := MessageLayout.shows hlayout
    rw [hshows.source, hshows.sender, hshows.target, hshows.receiver]
    refine ⟨hindexed.depth_le_layers _ _, ?_, fun bar hbar => ?_⟩
    · split
      · next hactivates => exact hindexed.depth_lt_of_activates hm hactivates
      · exact hindexed.depth_le_layers _ _
    · have hlayer := hshows.layer
      rw [hbar, Option.map_some] at hlayer
      obtain ⟨hactivates, hlayer⟩ := Option.ite_none_right_eq_some.mp hlayer.symm
      rw [Option.some.injEq] at hlayer
      rw [← hlayer]
      exact hindexed.depth_lt_of_activates hm hactivates
  · have hbox : l.box ∈ layout.coordinates.lifelines.map (·.box) := List.mem_map_of_mem hl
    rw [coordinates_computeLayout, sourceCoordinates, Coordinates.ofDocument_eq,
      Coordinates.map_box_place] at hbox
    obtain ⟨p, -, hp⟩ := List.mem_map.mp hbox
    rw [Lifeline.name, ← hp, Box.activationReserve_of, Box.name_of]
  · obtain ⟨id, hbar, hheight⟩ := Document.exists_eq_layers hpos
    rw [← hheight]
    exact exists_layout_of_opened measure config hbar

end SequenceDiagram
