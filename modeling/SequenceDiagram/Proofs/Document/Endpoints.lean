import SequenceDiagram.Proofs.Document.Table
import SequenceDiagram.Proofs.Participant.Collection
import SequenceDiagram.Syntax.Program

namespace SequenceDiagram

open Syntax

/-!
# Endpoints can be read off the document

While a program is read, a frame names who stands in for a sender or a receiver that was not
written. Nothing of the frames is left in the document; its nesting says the same.

* `Document.enclosingCall?` is the nearest call or creation around a node.
* `Message.Resolved` gives the endpoints of a message from what was written, the call around it and
  the origin at the top.
* `Frame.Follows` is the invariant: a frame says what the call around its statements says. A call
  and a creation set up a new frame for which it holds, and a fragment keeps it (`endpointSteps`).
* `endpoints_resolved` is the result for programs, and `IsTopOrigin` says who the origin at the top
  is.
-/

/-! ### The call around a node -/

namespace Node

/-- The call or the creation that a node is. -/
def call? : Node → Option Message
  | message m _ => if m.kind.activates then some m else none
  | _ => none

theorem call?_eq_some {n : Node} {c : Message} :
    n.call? = some c ↔ c.kind.activates = true ∧ ∃ body, n = .message c body := by
  cases n with
  | message m body =>
    simp only [call?, Option.ite_none_right_eq_some, Option.some.injEq, message.injEq]
    constructor
    · rintro ⟨h, rfl⟩
      exact ⟨h, body, rfl, rfl⟩
    · rintro ⟨h, _, rfl, _⟩
      exact ⟨h, rfl⟩
  | fragment f sections => simp [call?]
  | divider id note source => simp [call?]
  | rejected x => simp [call?]

/-- The bar that a node opens is that of the receiver of the call. -/
theorem opened_eq (n : Node) : n.opened = n.call?.map (·.receiver) := by
  cases n with
  | message m body => by_cases h : m.kind.activates <;> simp [opened, call?, h]
  | fragment f sections => rfl
  | divider id note source => rfl
  | rejected x => rfl

end Node

namespace Document

/-- The call or the creation of a number. -/
def call? (d : Document) (id : NodeId) : Option Message := (d.find? id).bind Node.call?

/-- The nearest call or creation around a node; fragments are looked through. -/
def enclosingCall? (d : Document) (id : NodeId) : Option Message :=
  (d.ancestors id).findSome? d.call?

/-- The nearest call or creation around what stands directly in a node, or at the top. -/
def callFrom? (d : Document) (around : Option NodeId) : Option Message :=
  around.bind fun a => (d.call? a).or (d.enclosingCall? a)

namespace WellIndexed

variable {d : Document}

theorem call?_eq (h : d.WellIndexed) {x : Place} (hx : x ∈ d.places) :
    d.call? x.node.id = x.node.call? := by
  rw [call?, h.find hx]
  rfl

/-- The call of a number is a message of the document, and has that number. -/
theorem of_call?_eq_some (h : d.WellIndexed) {id : NodeId} {c : Message}
    (hc : d.call? id = some c) : c.id = id ∧ c.kind.activates = true ∧ c ∈ d.messages := by
  by_cases hid : id < d.entries.length
  · obtain ⟨x, hx, rfl⟩ := h.exists_place hid
    rw [h.call?_eq hx] at hc
    obtain ⟨hactivates, body, hnode⟩ := Node.call?_eq_some.mp hc
    refine ⟨?_, hactivates, ?_⟩
    · rw [hnode]
      rfl
    · rw [messages, messagesOf_eq none]
      exact List.mem_filterMap.mpr ⟨x, hx, Node.message?_eq_some.mpr ⟨body, hnode⟩⟩
  · -- the tree has no such number either
    rw [call?, h.find_eq_none (Nat.le_of_not_lt hid)] at hc
    cases hc

/-- The call around a node is a message of the document. -/
theorem of_enclosingCall?_eq_some (h : d.WellIndexed) {id : NodeId} {c : Message}
    (hc : d.enclosingCall? id = some c) : c.kind.activates = true ∧ c ∈ d.messages := by
  obtain ⟨a, -, ha⟩ := List.exists_of_findSome?_eq_some hc
  exact (h.of_call?_eq_some ha).2

theorem enclosingCall?_eq (h : d.WellIndexed) (id : NodeId) :
    d.enclosingCall? id = d.callFrom? (d.parent? id) := by
  unfold callFrom?
  rw [enclosingCall?, h.ancestors_eq id]
  cases d.parent? id with
  | none => rfl
  | some a =>
    show ((a :: d.ancestors a).findSome? d.call?) = (d.call? a).or (d.enclosingCall? a)
    rw [List.findSome?_cons]
    cases d.call? a <;> rfl

/-- The call around a place is the one around the node that it stands directly in. -/
theorem enclosingCall?_place (h : d.WellIndexed) {x : Place} (hx : x ∈ d.places) :
    d.enclosingCall? x.node.id = d.callFrom? x.around := by
  rw [h.enclosingCall?_eq, h.parent?_eq hx]

/-- A node is the call around what stands directly in it, if it is a call. -/
theorem callFrom?_inside (h : d.WellIndexed) {x : Place} (hx : x ∈ d.places) :
    d.callFrom? (some x.node.id) = x.node.call?.or (d.callFrom? x.around) := by
  rw [← h.enclosingCall?_place hx, ← h.call?_eq hx]
  rfl

end WellIndexed

end Document

/-! ### Endpoints -/

/-- The origin in the body of a call is its receiver. Outside of every call it is the one at the
    top. -/
def originUnder (top : String) (call : Option Message) : String := (call.map (·.receiver)).getD top

/-- The endpoints of a message, from what was written, the call around it and the origin at the
    top. -/
structure Message.Resolved (top : String) (call : Option Message) (m : Message) : Prop where
  origin : m.origin = originUnder top call
  /-- A sender that is not written is the origin. -/
  sender : m.senderWritten = false → m.sender = m.origin
  /-- A receiver that is written is the receiver. -/
  written : ∀ name, m.written = some name → m.receiver = name
  /-- A receiver that is not written is that of the call for a call, and its sender for a return;
      other messages always have one, and a call outside of every call does, too. -/
  unwritten : m.written = none →
    (m.kind = .sync ∧ ∃ c, call = some c ∧ m.receiver = c.receiver) ∨
      (m.kind = .ret ∧ m.receiver = (call.map (·.sender)).getD m.origin)

/-- The endpoints in a node. -/
def Node.Resolved (top : String) (call : Option Message) : Node → Prop
  | message m _ => m.Resolved top call
  | fragment f _ => f.origin = originUnder top call
  | divider _ _ _ => True
  | rejected _ => True

namespace Frame

/-- The frame says of the call around its statements what the call says. -/
structure Follows (frame : Frame) (top : String) (call : Option Message) : Prop where
  origin : frame.origin = originUnder top call
  caller : frame.caller = call.map (·.sender)
  owner : frame.owner = call.map (·.receiver)

variable {frame : Frame} {top : String} {call : Option Message} {id : NodeId} {m : Message}

/-- At the top there is no call. -/
theorem follows_top (parent : Option NodeId) (top : String) :
    Follows ⟨parent, top, none, none⟩ top none :=
  ⟨rfl, rfl, rfl⟩

theorem follows_within (top : String) (m : Message) : (Frame.within m).Follows top (some m) :=
  ⟨rfl, rfl, rfl⟩

theorem Follows.inside (h : frame.Follows top call) (id : NodeId) :
    (frame.inside id).Follows top call :=
  ⟨h.origin, h.caller, h.owner⟩

/-- Who is not written is the one that stands in. -/
theorem getD_of_open {token : Option Token} (h : (Token.text? token).isSome = false)
    (name : String) : (Token.text? token).getD name = name := by
  rw [Option.not_isSome_iff_eq_none.mp (ne_true_of_eq_false h), Option.getD_none]

/-- A call and a creation are resolved by their frame. -/
theorem Follows.resolved_of_opens (h : frame.Follows top call) (hm : frame.Opens id m) :
    m.Resolved top call := by
  rcases hm with ⟨c, hc⟩ | ⟨c, hc⟩
  · obtain ⟨signature, receiver, -, hreceiver, rfl⟩ := call_ok hc
    refine ⟨h.origin, fun hopen => getD_of_open hopen _, fun name hname => ?_,
      fun hnone => .inl ⟨rfl, ?_⟩⟩
    · have htext : Token.text? c.receiver = some name := hname
      rw [htext, Option.some_or, Option.some.injEq] at hreceiver
      exact hreceiver.symm
    · -- the owner of the frame receives the call, so there is a call around it
      have htext : Token.text? c.receiver = none := hnone
      rw [htext, Option.none_or, h.owner] at hreceiver
      obtain ⟨around, haround, rfl⟩ := Option.map_eq_some_iff.mp hreceiver
      exact ⟨around, haround, rfl⟩
  · obtain ⟨constructor, signature, editable, -, rfl⟩ := creation_ok hc
    refine ⟨h.origin, fun _ => rfl, fun name hname => ?_, fun hnone => nomatch hnone⟩
    cases hname
    rfl

/-- An asynchronous message and a return are resolved by their frame. -/
theorem Follows.resolved_of_passes (h : frame.Follows top call) (hm : frame.Passes id m) :
    m.Resolved top call := by
  rcases hm with ⟨a, ha⟩ | ⟨r, rfl⟩
  · obtain ⟨receiver, -, rfl⟩ := asyncMessage_ok ha
    refine ⟨h.origin, fun hopen => getD_of_open hopen _, fun name hname => ?_,
      fun hnone => nomatch hnone⟩
    cases hname
    rfl
  · refine ⟨h.origin, fun hopen => getD_of_open hopen _, fun name hname => ?_,
      fun hnone => .inr ⟨rfl, ?_⟩⟩
    · have htext : Token.text? (r.message.bind (·.receiver)) = some name := hname
      show (Token.text? (r.message.bind (·.receiver))).getD _ = name
      rw [htext, Option.getD_some]
    · -- the caller of the frame sends the call around it
      have htext : Token.text? (r.message.bind (·.receiver)) = none := hnone
      show (Token.text? (r.message.bind (·.receiver))).getD (frame.caller.getD frame.origin) = _
      rw [htext, Option.getD_none, h.caller]
      rfl

end Frame

/-! ### Documents -/

/-- The endpoints at some places of a document follow from the calls around them. -/
def Document.Resolves (d : Document) (top : String) (places : List Place) : Prop :=
  ∀ x ∈ places, x.node.Resolved top (d.callFrom? x.around)

namespace Document.WellIndexed

variable {d : Document} {top : String}

theorem resolves_node {around : Option NodeId} {n : Node}
    (hn : n.Resolved top (d.callFrom? around)) (hinner : d.Resolves top n.inner) :
    d.Resolves top (n.places around) :=
  Node.forall_places hn hinner

theorem resolves_append {places others : List Place} (h : d.Resolves top places)
    (hothers : d.Resolves top others) : d.Resolves top (places ++ others) :=
  List.forall_mem_append.mpr ⟨h, hothers⟩

/-- **Frames follow the calls around them.** If the places of a reading are some of the document,
    and its frame says what the call around them says, then so do all frames inside, and every
    message and fragment has the endpoints that follow from the call around it. -/
theorem endpointSteps (h : d.WellIndexed) (top : String) : Frame.Steps
    (fun frame _ x => x.value.places frame.parent ⊆ d.places →
      frame.Follows top (d.callFrom? frame.parent) →
      d.Resolves top (x.value.places frame.parent))
    (fun frame _ x => placesOf frame.parent x.value ⊆ d.places →
      frame.Follows top (d.callFrom? frame.parent) →
      d.Resolves top (placesOf frame.parent x.value))
    (fun frame _ x => placesIn frame.parent x.value ⊆ d.places →
      frame.Follows top (d.callFrom? frame.parent) →
      d.Resolves top (placesIn frame.parent x.value)) where
  rejected frame id s reason _ _ := resolves_node trivial (fun _ hx => nomatch hx)
  opening frame id m inner hm hinner hsub hframe := by
    obtain ⟨hx, hbody⟩ := List.cons_subset.mp hsub
    -- the message itself is the call around its body
    have hcall : d.callFrom? (some m.id) = some m := by
      have hself : (Node.message m inner.value).call? = some m := if_pos hm.activates
      have hinside := h.callFrom?_inside hx
      rwa [hself, Option.some_or] at hinside
    have hwithin : (Frame.within m).Follows top (d.callFrom? (Frame.within m).parent) := by
      show (Frame.within m).Follows top (d.callFrom? (some m.id))
      rw [hcall]
      exact Frame.follows_within top m
    exact resolves_node (hframe.resolved_of_opens hm) (hinner hbody hwithin)
  passing frame id m hm _ hframe :=
    resolves_node (hframe.resolved_of_passes hm) (fun _ hx => nomatch hx)
  divider frame id note source _ _ := resolves_node trivial (fun _ hx => nomatch hx)
  reference frame id x _ hframe := resolves_node hframe.origin (fun _ hx => nomatch hx)
  block frame id kind source inner hinner hsub hframe := by
    obtain ⟨hx, hsections⟩ := List.cons_subset.mp hsub
    -- a fragment is no call, so the one around it is around its sections as well
    have hinside := h.callFrom?_inside hx
    refine resolves_node hframe.origin (hinner hsections ?_)
    show (frame.inside id).Follows top (d.callFrom? (some id))
    rw [show d.callFrom? (some id) = d.callFrom? frame.parent from hinside]
    exact hframe.inside id
  nil frame next _ _ := fun _ hx => nomatch hx
  cons frame next first rest hfirst hrest hsub hframe := by
    obtain ⟨hsubFirst, hsubRest⟩ := List.append_subset.mp hsub
    exact resolves_append (hfirst hsubFirst hframe) (hrest hsubRest hframe)
  noSection frame next _ _ := fun _ hx => nomatch hx
  inSection frame next label condition inner rest hinner hrest hsub hframe := by
    obtain ⟨hsubInner, hsubRest⟩ := List.append_subset.mp hsub
    exact resolves_append (hinner hsubInner hframe) (hrest hsubRest hframe)

/-- The messages of a document have the endpoints of their places. -/
theorem resolved_of_mem_messages (h : d.WellIndexed) (hresolves : d.Resolves top d.places)
    {m : Message} (hm : m ∈ d.messages) : m.Resolved top (d.enclosingCall? m.id) := by
  obtain ⟨x, hx, body, hnode⟩ := exists_place_of_mem_messages hm
  have hresolved := hresolves x hx
  rw [← h.enclosingCall?_place hx, hnode] at hresolved
  exact hresolved

/-- The fragments of a document have the origin of their places. -/
theorem origin_of_mem_fragments (h : d.WellIndexed) (hresolves : d.Resolves top d.places)
    {f : FragmentTree} (hf : f ∈ d.fragments) :
    f.fragment.origin = originUnder top (d.enclosingCall? f.fragment.id) := by
  obtain ⟨x, hx, hnode⟩ := exists_place_of_mem_fragments hf
  have hresolved := hresolves x hx
  rw [← h.enclosingCall?_place hx, hnode] at hresolved
  exact hresolved

end Document.WellIndexed

/-- The endpoints in a document with the places of a program are resolved. -/
theorem interpret_resolves (program : Program) (starter : Option String) {d : Document}
    (h : d.WellIndexed) (hplaces : d.places = (interpret program starter).document.places) :
    d.Resolves (topOrigin program starter) d.places := by
  have hsteps := (h.endpointSteps (topOrigin program starter)).statements
    ⟨none, topOrigin program starter, none, none⟩ 0 program.statements
  rw [hplaces]
  exact hsteps (hplaces ▸ List.Subset.refl _) (Frame.follows_top none _)

/-! ### The origin at the top -/

/-- Who is the origin at the top: the starter, unless that is the sentinel. The sentinel is it only
    if it is asked for, or if there is no lifeline; else the first lifeline takes its place. -/
structure IsTopOrigin (program : Program) (starter : Option String) (top : String) : Prop where
  named : effectiveStarter program starter ≠ sentinel → top = effectiveStarter program starter
  asked : effectiveStarter program starter = sentinel →
    (collect program starter).implicitSender = true ∨
      orderParticipants (collect program starter) = [] → top = sentinel
  leftmost : effectiveStarter program starter = sentinel →
    (collect program starter).implicitSender = false → ∀ first rest,
      orderParticipants (collect program starter) = first :: rest → top = first.name

section

variable {program : Program} {starter : Option String}

theorem topOrigin_eq_sentinel (hstarter : effectiveStarter program starter = sentinel)
    (h : (collect program starter).implicitSender = true ∨
      orderParticipants (collect program starter) = []) :
    topOrigin program starter = sentinel := by
  rw [topOrigin, if_neg (not_not_intro hstarter)]
  rcases h with himplicit | horder
  · exact if_pos himplicit
  · rw [orderParticipants_eq_nil_iff] at horder
    simp [horder]

theorem topOrigin_eq_first (hstarter : effectiveStarter program starter = sentinel)
    (himplicit : (collect program starter).implicitSender = false) {first : OrderedParticipant}
    {rest : List OrderedParticipant}
    (horder : orderParticipants (collect program starter) = first :: rest) :
    topOrigin program starter = first.name := by
  have hnames : orderedNames (collect program starter) = first.name :: rest.map (·.name) := by
    rw [← map_name_orderParticipants, horder, List.map_cons]
  rw [topOrigin, if_neg (not_not_intro hstarter)]
  simp [himplicit, hnames]

/-- The cases give an origin at the top, and only one. -/
theorem isTopOrigin_iff (top : String) :
    IsTopOrigin program starter top ↔ top = topOrigin program starter := by
  constructor
  · intro h
    by_cases hstarter : effectiveStarter program starter = sentinel
    · cases himplicit : (collect program starter).implicitSender with
      | true =>
        rw [h.asked hstarter (.inl himplicit), topOrigin_eq_sentinel hstarter (.inl himplicit)]
      | false =>
        cases horder : orderParticipants (collect program starter) with
        | nil => rw [h.asked hstarter (.inr horder), topOrigin_eq_sentinel hstarter (.inr horder)]
        | cons first rest =>
          rw [h.leftmost hstarter himplicit first rest horder,
            topOrigin_eq_first hstarter himplicit horder]
    · rw [h.named hstarter, topOrigin, if_pos hstarter]
  · rintro rfl
    exact ⟨fun hstarter => if_pos hstarter, topOrigin_eq_sentinel,
      fun hstarter himplicit _ _ horder => topOrigin_eq_first hstarter himplicit horder⟩

end

/-- **Endpoints can be read off the document.** There is one origin at the top with which every
    message has the endpoints, and every fragment the origin, that follow from the nearest call or
    creation around it. -/
theorem endpoints_resolved (program : Program) (starter : Option String) :
    let d := (interpret program starter).document
    ∃ top, (∀ top', IsTopOrigin program starter top' ↔ top' = top) ∧
      (∀ m ∈ d.messages, m.Resolved top (d.enclosingCall? m.id)) ∧
      ∀ f ∈ d.fragments, f.fragment.origin = originUnder top (d.enclosingCall? f.fragment.id) := by
  intro d
  have hindexed : d.WellIndexed := interpret_wellIndexed program starter
  have hresolves := interpret_resolves program starter hindexed rfl
  exact ⟨topOrigin program starter, isTopOrigin_iff,
    fun m hm => hindexed.resolved_of_mem_messages hresolves hm,
    fun f hf => hindexed.origin_of_mem_fragments hresolves hf⟩

/-- A fragment is looked through: the call around this return is the one around the fragment. -/
example : ((interpret (parse "A.m \x7b opt \x7b return \x7d \x7d") none).document.enclosingCall?
    2).map (·.receiver) = some "A" := by
  decide +kernel

end SequenceDiagram
