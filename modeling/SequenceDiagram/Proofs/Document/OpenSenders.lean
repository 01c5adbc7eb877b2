import SequenceDiagram.Proofs.Document.Table
import SequenceDiagram.Proofs.Participant.Collection
import SequenceDiagram.Syntax.Program

namespace SequenceDiagram

open Syntax

/-!
# Messages that leave their sender open

A message outside of every call that leaves its sender open is sent by the sentinel. Whether there
is one is decided from the tokens while the participants are collected, before it is known what
becomes of the statements.

* `Syntax.outerOf` lists the constructs outside of every call. `Construct.Asks` is what the
  collection goes by, `Construct.LeavesOpen` what the interpretation makes of a construct.
* `implicitSender_collect`: the sentinel is asked for exactly if an outer construct asks for it.
* `Frame.openSteps`: a message with an open sender is read outside of every bar exactly if an outer
  construct leaves its sender open; `Document.WellIndexed.mem_outerMessages_iff` says which messages
  those are in terms of the table.
* `sentinel_needed_iff` compares both: whoever asks does leave a sender open, and those that do
  without asking are `Construct.Overlooked`.
-/

/-! ### Constructs outside of every call -/

namespace Syntax

mutual

/-- The constructs of a statement outside of every call; blocks are looked through. -/
def Statement.outer : Statement → List Construct
  | .unrecognized _ _ => []
  | .recognized c _ _ => c.outer

/-- The construct, or the outer constructs in its branches. -/
def Construct.outer : Construct → List Construct
  | .call c body => [.call c body]
  | .asyncMessage m => [.asyncMessage m]
  | .creation c body => [.creation c body]
  | .ret r => [.ret r]
  | .divider d => [.divider d]
  | .reference r => [.reference r]
  | .block _ bs _ => outerIn bs

/-- The outer constructs of a block. -/
def Block.outer : Block → List Construct
  | .missing => []
  | .present ss _ => outerOf ss

/-- The outer constructs of some statements. -/
def outerOf : List Statement → List Construct
  | [] => []
  | s :: rest => s.outer ++ outerOf rest

/-- The outer constructs in some branches. -/
def outerIn : List Branch → List Construct
  | [] => []
  | .mk _ _ body :: rest => body.outer ++ outerIn rest

end

/-- A statement that is no block has one outer construct. -/
theorem exists_outer_iff {p : Construct → Prop} {c : Construct} (h : c.outer = [c]) {span : Span}
    {text : String} : (∃ x ∈ (Statement.recognized c span text).outer, p x) ↔ p c := by
  rw [Statement.outer, h]
  simp

theorem Block.outer_eq (body : Block) : body.outer = outerOf body.statements := by
  cases body <;> rfl

namespace Construct

/-- The collection asks for the sentinel where the construct stands outside of every call. -/
def Asks : Construct → Prop
  | .call c _ => Token.isNamed c.receiver ∧ Token.isNamed c.method ∧ c.sender = none
  | .asyncMessage m => Token.isNamed m.receiver ∧ m.sender = none
  | .creation c _ => Token.isNamed c.constructor
  | .ret r => ∀ m, r.message = some m → Token.isNamed m.receiver ∧ m.sender = none
  | .divider _ => False
  | .reference _ => False
  | .block _ _ _ => False

/-- The construct becomes a message without a written sender where it stands outside of every
    call. -/
def LeavesOpen : Construct → Prop
  | .call c _ => Token.isNamed c.receiver ∧ Token.isNamed c.method ∧ ¬ Token.isNamed c.sender
  | .asyncMessage m => Token.isNamed m.receiver ∧ ¬ Token.isNamed m.sender
  | .creation c _ => Token.isNamed c.constructor
  | .ret r => ∀ m, r.message = some m → ¬ Token.isNamed m.sender
  | .divider _ => False
  | .reference _ => False
  | .block _ _ _ => False

end Construct

end Syntax

/-! ### What the collection goes by -/

namespace Context

theorem implicitSender_use (context : Context) (token : Option Token) :
    (context.use token).implicitSender = context.implicitSender := by
  unfold use
  split <;> rfl

/-- Steps of which none asks for the sentinel do not ask for it together. -/
theorem implicitSender_foldl {α : Type} {f : Context → α → Context}
    (h : ∀ context x, (f context x).implicitSender = context.implicitSender) (xs : List α)
    (context : Context) : (xs.foldl f context).implicitSender = context.implicitSender := by
  induction xs generalizing context with
  | nil => rfl
  | cons x rest ih => rw [List.foldl_cons, ih, h]

theorem implicitSender_reference (context : Context) (r : Reference) :
    (context.reference r).implicitSender = context.implicitSender :=
  implicitSender_foldl (fun context name => implicitSender_use context (some name)) _ context

section Messages

variable (context : Context) (inCall : Bool)

theorem implicitSender_send (sender : Option Token) :
    (context.send inCall sender).implicitSender = true ↔
      context.implicitSender = true ∨ inCall = false ∧ sender = none := by
  cases sender <;> cases inCall <;> simp [send]

theorem implicitSender_asyncMessage (m : AsyncMessage) :
    (context.asyncMessage inCall m).implicitSender = true ↔ context.implicitSender = true ∨
      inCall = false ∧ Token.isNamed m.receiver ∧ m.sender = none := by
  unfold asyncMessage
  rw [implicitSender_use, implicitSender_use]
  by_cases h : Token.isNamed m.receiver
  · simp [h, implicitSender_send]
  · simp [h]

theorem implicitSender_call (c : Call) :
    (context.call inCall c).implicitSender = true ↔ context.implicitSender = true ∨
      inCall = false ∧ Token.isNamed c.receiver ∧ Token.isNamed c.method ∧ c.sender = none := by
  unfold call
  rw [implicitSender_use, implicitSender_use]
  by_cases h : Token.isNamed c.receiver ∧ Token.isNamed c.method
  · simp [h, implicitSender_send]
  · rw [← Bool.and_eq_true_iff] at h
    rw [if_neg h, ← and_assoc (a := Token.isNamed c.receiver = true), ← Bool.and_eq_true_iff]
    simp [h]

theorem implicitSender_creation (c : Creation) :
    (context.creation inCall c).implicitSender = true ↔
      context.implicitSender = true ∨ inCall = false ∧ Token.isNamed c.constructor := by
  obtain ⟨assignment, constructor, arguments, span⟩ := c
  by_cases h : Token.isNamed constructor
  · cases constructor <;> simp [creation, mention, h, implicitSender_send]
  · cases constructor <;> simp [creation, mention, h]

theorem implicitSender_ret (r : Return) :
    (context.ret inCall r).implicitSender = true ↔ context.implicitSender = true ∨
      inCall = false ∧ ∀ m, r.message = some m → Token.isNamed m.receiver ∧ m.sender = none := by
  obtain ⟨expression, message, span⟩ := r
  cases message with
  | none => simp [ret, implicitSender_send]
  | some m => simp [ret, implicitSender_asyncMessage]

end Messages

/-- **The sentinel is asked for exactly if an outer construct asks for it**, and inside of a call it
    is not asked for at all. -/
theorem implicitSenderSteps : Syntax.Steps
    (fun s => ∀ inCall context, (statement inCall context s).implicitSender = true ↔
      context.implicitSender = true ∨ inCall = false ∧ ∃ c ∈ s.outer, c.Asks)
    (fun ss => ∀ inCall context, (statements inCall context ss).implicitSender = true ↔
      context.implicitSender = true ∨ inCall = false ∧ ∃ c ∈ outerOf ss, c.Asks)
    (fun bs => ∀ inCall context, (branches inCall context bs).implicitSender = true ↔
      context.implicitSender = true ∨ inCall = false ∧ ∃ c ∈ outerIn bs, c.Asks) where
  unrecognized span text inCall context := by simp [statement, Statement.outer]
  call c body span text hbody inCall context := by
    -- nobody asks for the sentinel in the body
    rw [statement, construct, block_eq, hbody, implicitSender_call, exists_outer_iff rfl,
      Construct.Asks]
    simp
  creation c body span text hbody inCall context := by
    rw [statement, construct, block_eq, hbody, implicitSender_creation, exists_outer_iff rfl,
      Construct.Asks]
    simp
  asyncMessage m span text inCall context := by
    rw [statement, construct, implicitSender_asyncMessage, exists_outer_iff rfl, Construct.Asks]
  ret r span text inCall context := by
    rw [statement, construct, implicitSender_ret, exists_outer_iff rfl, Construct.Asks]
  divider d span text inCall context := by
    rw [exists_outer_iff rfl, Construct.Asks]
    simp [statement, construct]
  reference r span text inCall context := by
    rw [statement, construct, implicitSender_reference, exists_outer_iff rfl, Construct.Asks]
    simp
  block kind bs inner span text hbs inCall context := hbs inCall context
  nil inCall context := by simp [statements, outerOf]
  cons s rest hs hrest inCall context := by
    rw [statements, hrest, hs, outerOf, or_assoc, ← and_or_left]
    simp only [List.mem_append, or_and_right, exists_or]
  noBranch inCall context := by simp [branches, outerIn]
  branch role guard body rest hbody hrest inCall context := by
    rw [branches, branch, block_eq, hrest, hbody, outerIn, Block.outer_eq, or_assoc, ← and_or_left]
    simp only [List.mem_append, or_and_right, exists_or]

theorem implicitSender_declare (context : Context) (groupId : Option String) (d : Declaration) :
    (context.declare groupId d).implicitSender = context.implicitSender := by
  unfold declare
  split <;> rfl

theorem implicitSender_headItem (context : Context) (item : HeadItem) :
    (context.headItem item).implicitSender = context.implicitSender := by
  cases item with
  | participant d => exact implicitSender_declare context none d
  | group g =>
    exact implicitSender_foldl (fun context d => implicitSender_declare context _ d) g.members
      context

/-- The head does not ask for the sentinel. -/
theorem implicitSender_head (context : Context) (useStarter : Bool) (h : Syntax.Head) :
    (context.head useStarter h).implicitSender = context.implicitSender := by
  have hitems := implicitSender_foldl implicitSender_headItem h.items context
  unfold head
  split <;> exact hitems

end Context

/-- The sentinel is asked for exactly if an outer construct of the program asks for it. -/
theorem implicitSender_collect (program : Program) (starter : Option String) :
    (collect program starter).implicitSender = true ↔
      ∃ c ∈ outerOf program.statements, c.Asks := by
  obtain ⟨h, block, span⟩ := program
  unfold collect
  rw [Context.implicitSenderSteps.statements]
  -- before the statements nobody has asked
  cases effectiveOverride starter <;> cases h <;>
    simp [Context.start, Context.mention, Context.implicitSender_head, Context.empty]

/-! ### What the interpretation makes of a construct -/

mutual

/-- The messages at and below a node that are under none of the bars opened there. -/
def Node.outerMessages : Node → List Message
  | .message m body => m :: if m.kind.activates then [] else outerMessagesOf body
  | .fragment _ sections => outerMessagesIn sections
  | .divider _ _ _ => []
  | .rejected _ => []

/-- The messages at and below some nodes that are under none of the bars opened there. -/
def outerMessagesOf : List Node → List Message
  | [] => []
  | n :: rest => n.outerMessages ++ outerMessagesOf rest

/-- The messages in some sections that are under none of the bars opened there. -/
def outerMessagesIn : List Section → List Message
  | [] => []
  | .mk _ _ body :: rest => outerMessagesOf body ++ outerMessagesIn rest

end

namespace Frame

/-- A call outside of every call needs a receiver of its own. -/
theorem exists_open_call {frame : Frame} (howner : frame.owner = none) (id : NodeId) (c : Call) :
    (∃ m, frame.call id c = .ok m ∧ m.senderWritten = false) ↔
      Token.isNamed c.receiver ∧ Token.isNamed c.method ∧ ¬ Token.isNamed c.sender := by
  unfold call callSignature
  rw [howner, Option.or_none, ← Token.isSome_text?, ← Token.isSome_text?, ← Token.isSome_text?]
  cases Token.text? c.method <;> cases Token.text? c.receiver <;> cases Token.text? c.sender <;>
    simp

theorem exists_open_asyncMessage (frame : Frame) (id : NodeId) (m : AsyncMessage) :
    (∃ m', frame.asyncMessage id m = .ok m' ∧ m'.senderWritten = false) ↔
      Token.isNamed m.receiver ∧ ¬ Token.isNamed m.sender := by
  unfold asyncMessage
  rw [← Token.isSome_text?, ← Token.isSome_text?]
  cases Token.text? m.receiver <;> cases Token.text? m.sender <;> simp

theorem exists_open_creation (frame : Frame) (id : NodeId) (c : Creation) :
    (∃ m, frame.creation id c = .ok m ∧ m.senderWritten = false) ↔
      Token.isNamed c.constructor := by
  unfold creation
  rw [← Token.isSome_text?]
  cases Token.text? c.constructor <;> simp

theorem senderWritten_ret (frame : Frame) (id : NodeId) (r : Return) :
    (frame.ret id r).senderWritten = false ↔
      ∀ m, r.message = some m → ¬ Token.isNamed m.sender := by
  obtain ⟨expression, message, span⟩ := r
  cases message with
  | none => simp [ret, Token.text?]
  | some m => simp [ret, Token.text?_eq_none]

/-- A call or a creation opens a bar, so nothing in its body is outside of every bar. -/
theorem outerMessages_opening {frame : Frame} {id : NodeId} {m : Message} {body : List Node}
    (h : frame.Opens id m) : (Node.message m body).outerMessages = [m] := by
  rw [Node.outerMessages, if_pos h.activates]

/-- **A message with an open sender is read outside of every bar exactly if an outer construct
    leaves its sender open**, in a frame outside of every call. -/
theorem openSteps : Syntax.Steps
    (fun s => ∀ frame : Frame, ∀ id, frame.owner = none →
      ((∃ m ∈ (frame.statement id s).value.outerMessages, m.senderWritten = false) ↔
        ∃ c ∈ s.outer, c.LeavesOpen))
    (fun ss => ∀ frame : Frame, ∀ next, frame.owner = none →
      ((∃ m ∈ outerMessagesOf (frame.statements next ss).value, m.senderWritten = false) ↔
        ∃ c ∈ outerOf ss, c.LeavesOpen))
    (fun bs => ∀ frame : Frame, ∀ next kind, frame.owner = none →
      ((∃ m ∈ outerMessagesIn (frame.branches next kind bs).value, m.senderWritten = false) ↔
        ∃ c ∈ outerIn bs, c.LeavesOpen)) where
  unrecognized span text frame id howner := by
    simp [statement, reject, Node.outerMessages, Statement.outer]
  call c body span text hbody frame id howner := by
    rw [exists_outer_iff rfl, Construct.LeavesOpen, ← exists_open_call howner id, statement,
      construct]
    cases hc : frame.call id c with
    | error reason => simp [reject, Node.outerMessages]
    | ok m => simp [Reading.node, outerMessages_opening (.inl ⟨c, hc⟩)]
  creation c body span text hbody frame id howner := by
    rw [exists_outer_iff rfl, Construct.LeavesOpen, ← exists_open_creation frame id, statement,
      construct]
    cases hc : frame.creation id c with
    | error reason => simp [reject, Node.outerMessages]
    | ok m => simp [Reading.node, outerMessages_opening (.inr ⟨c, hc⟩)]
  asyncMessage m span text frame id howner := by
    rw [exists_outer_iff rfl, Construct.LeavesOpen, ← exists_open_asyncMessage frame id, statement,
      construct]
    cases hm : frame.asyncMessage id m with
    | error reason => simp [reject, Node.outerMessages]
    | ok m' => simp [Reading.leaf, Node.outerMessages, outerMessagesOf]
  ret r span text frame id howner := by
    rw [exists_outer_iff rfl, Construct.LeavesOpen, ← senderWritten_ret frame id, statement,
      construct]
    simp [Reading.leaf, Node.outerMessages, outerMessagesOf]
  divider d span text frame id howner := by
    rw [exists_outer_iff rfl, Construct.LeavesOpen]
    simp [statement, construct, Reading.leaf, Node.outerMessages]
  reference r span text frame id howner := by
    -- the one section of a reference is empty
    rw [exists_outer_iff rfl, Construct.LeavesOpen]
    simp [statement, construct, Reading.leaf, reference, fragment, Node.outerMessages,
      outerMessagesIn, outerMessagesOf]
  block kind bs inner span text hbs frame id howner :=
    hbs (frame.inside id) (id + 1) kind howner
  nil frame next howner := by simp [statements, Reading.nothing, outerMessagesOf, outerOf]
  cons s rest hs hrest frame next howner := by
    simp only [statements, Reading.cons, outerMessagesOf, outerOf, List.mem_append, or_and_right,
      exists_or, hs frame _ howner, hrest frame _ howner]
  noBranch frame next kind howner := by
    simp [branches, Reading.nothing, outerMessagesIn, outerIn]
  branch role guard body rest hbody hrest frame next kind howner := by
    simp only [branches, branch, Reading.cons, block_eq, outerMessagesIn, outerIn, Block.outer_eq,
      List.mem_append, or_and_right, exists_or, hbody frame _ howner, hrest frame _ kind howner]

end Frame

/-! ### Messages outside of every bar -/

namespace Document

/-- None of the nodes around a node opens a bar. -/
def Outside (d : Document) (id : NodeId) : Prop :=
  ∀ a ∈ d.ancestors id, d.activation? a = none

/-- What stands directly in the node, or at the top, is outside of every bar. -/
def Clear (d : Document) (around : Option NodeId) : Prop :=
  ∀ a, around = some a → d.activation? a = none ∧ d.Outside a

namespace WellIndexed

variable {d : Document}

/-- A node is outside of every bar if what stands around it is. -/
theorem outside_iff (h : d.WellIndexed) {x : Place} (hx : x ∈ d.places) :
    d.Outside x.node.id ↔ d.Clear x.around := by
  unfold Outside Clear
  rw [h.ancestors_eq, h.parent?_eq hx]
  cases x.around with
  | none => simp
  | some a => simp [Outside]

/-- A node is clear if it opens no bar, and is outside of every bar itself. -/
theorem clear_iff (h : d.WellIndexed) {x : Place} (hx : x ∈ d.places) :
    d.Clear (some x.node.id) ↔ x.node.opened = none ∧ d.Clear x.around := by
  rw [← h.outside_iff hx, ← h.activation?_eq hx]
  simp [Clear]

/-- The walk through a tree meets a message outside of every bar exactly if the table says so. -/
theorem outerSteps (h : d.WellIndexed) : Node.Steps
    (fun n => ∀ around, n.places around ⊆ d.places → ∀ m,
      m ∈ n.outerMessages ∧ d.Clear around ↔
        ∃ x ∈ n.places around, x.node.message? = some m ∧ d.Clear x.around)
    (fun ns => ∀ around, placesOf around ns ⊆ d.places → ∀ m,
      m ∈ outerMessagesOf ns ∧ d.Clear around ↔
        ∃ x ∈ placesOf around ns, x.node.message? = some m ∧ d.Clear x.around)
    (fun ss => ∀ around, placesIn around ss ⊆ d.places → ∀ m,
      m ∈ outerMessagesIn ss ∧ d.Clear around ↔
        ∃ x ∈ placesIn around ss, x.node.message? = some m ∧ d.Clear x.around) where
  message m body hbody around hsub m' := by
    rw [Node.places] at hsub ⊢
    obtain ⟨hx, hinner⟩ := List.cons_subset.mp hsub
    -- the body is clear exactly if the message opens no bar and stands outside of every bar
    have hclear : d.Clear (some m.id) ↔ (Node.message m body).opened = none ∧ d.Clear around :=
      h.clear_iff hx
    simp only [List.mem_cons, or_and_right, exists_or, exists_eq_left]
    rw [← hbody (some m.id) hinner m', hclear]
    by_cases hactivates : m.kind.activates
    · simp [Node.outerMessages, Node.message?, Node.opened, hactivates, eq_comm]
    · simp [Node.outerMessages, Node.message?, Node.opened, hactivates, eq_comm, or_and_right]
  fragment f sections hsections around hsub m := by
    rw [Node.places] at hsub ⊢
    obtain ⟨hx, hinner⟩ := List.cons_subset.mp hsub
    have hclear : d.Clear (some f.id) ↔ (Node.fragment f sections).opened = none ∧ d.Clear around :=
      h.clear_iff hx
    simp only [List.mem_cons, or_and_right, exists_or, exists_eq_left]
    rw [← hsections (some f.id) hinner m, hclear]
    simp [Node.outerMessages, Node.message?, Node.opened]
  divider id note source around hsub m := by
    simp [Node.outerMessages, Node.places, Node.message?]
  rejected x around hsub m := by
    simp [Node.outerMessages, Node.places, Node.message?]
  nil around hsub m := by simp [outerMessagesOf, placesOf]
  cons n rest hn hrest around hsub m := by
    obtain ⟨hfirst, hothers⟩ := List.append_subset.mp hsub
    simp only [outerMessagesOf, placesOf, List.mem_append, or_and_right, exists_or,
      hn around hfirst m, hrest around hothers m]
  noSection around hsub m := by simp [outerMessagesIn, placesIn]
  inSection label condition body rest hbody hrest around hsub m := by
    obtain ⟨hfirst, hothers⟩ := List.append_subset.mp hsub
    simp only [outerMessagesIn, placesIn, List.mem_append, or_and_right, exists_or,
      hbody around hfirst m, hrest around hothers m]

/-- The messages outside of every bar are those of the walk that looks through fragments only. -/
theorem mem_outerMessages_iff (h : d.WellIndexed) (m : Message) :
    m ∈ outerMessagesOf d.nodes ↔ m ∈ d.messages ∧ d.Outside m.id := by
  have hclear : d.Clear none := fun a ha => nomatch ha
  have hwalk := (h.outerSteps.nodes d.nodes) none (List.Subset.refl _) m
  rw [and_iff_left hclear] at hwalk
  rw [hwalk, messages, messagesOf_eq none, List.mem_filterMap, ← exists_and_right]
  refine exists_congr fun x => ?_
  rw [and_assoc]
  refine and_congr_right fun hx => and_congr_right fun hm => ?_
  obtain ⟨body, hnode⟩ := Node.message?_eq_some.mp hm
  have hid : x.node.id = m.id := by rw [hnode]; rfl
  rw [← h.outside_iff hx, hid]

end WellIndexed

end Document

/-! ### Both compared -/

namespace Syntax

/-- The construct leaves its sender open, but the collection does not see that: the sender is
    written without a name, or the construct is a return written as a message whose receiver is not
    named. -/
inductive Construct.Overlooked : Construct → Prop
  /-- The sender of a call is empty. -/
  | call {c : Call} {body : Block} : Token.isNamed c.receiver → Token.isNamed c.method →
      c.sender.isSome → ¬ Token.isNamed c.sender → Overlooked (.call c body)
  /-- The sender of an asynchronous message is empty. -/
  | asyncMessage {m : AsyncMessage} : Token.isNamed m.receiver → m.sender.isSome →
      ¬ Token.isNamed m.sender → Overlooked (.asyncMessage m)
  /-- A return has an empty sender, or none and no receiver. -/
  | ret {r : Return} {m : AsyncMessage} : r.message = some m → ¬ Token.isNamed m.sender →
      (m.sender.isSome ∨ ¬ Token.isNamed m.receiver) → Overlooked (.ret r)

namespace Construct

/-- A token that is not there has no name. -/
theorem not_isNamed {token : Option Token} (h : token = none) : ¬ Token.isNamed token :=
  h ▸ Bool.false_ne_true

/-- The collection asks only where the sender is left open. -/
theorem Asks.leavesOpen {c : Construct} (h : c.Asks) : c.LeavesOpen := by
  cases c with
  | call c body => exact ⟨h.1, h.2.1, not_isNamed h.2.2⟩
  | asyncMessage m => exact ⟨h.1, not_isNamed h.2⟩
  | creation c body => exact h
  | ret r => exact fun m hm => not_isNamed (h m hm).2
  | divider d => cases h
  | reference r => cases h
  | block kind bs span => cases h

theorem Overlooked.leavesOpen {c : Construct} (h : c.Overlooked) : c.LeavesOpen := by
  cases h with
  | call hreceiver hmethod _ hsender => exact ⟨hreceiver, hmethod, hsender⟩
  | asyncMessage hreceiver _ hsender => exact ⟨hreceiver, hsender⟩
  | ret hm hsender _ =>
    intro m hm'
    rw [hm, Option.some.injEq] at hm'
    exact hm' ▸ hsender

/-- Who leaves the sender open asks for the sentinel, or is overlooked. -/
theorem LeavesOpen.asks_or_overlooked {c : Construct} (h : c.LeavesOpen) :
    c.Asks ∨ c.Overlooked := by
  cases c with
  | call c body =>
    obtain ⟨hreceiver, hmethod, hsender⟩ := h
    cases htoken : c.sender with
    | none => exact .inl ⟨hreceiver, hmethod, htoken⟩
    | some t => exact .inr (.call hreceiver hmethod (htoken ▸ rfl) hsender)
  | asyncMessage m =>
    obtain ⟨hreceiver, hsender⟩ := h
    cases htoken : m.sender with
    | none => exact .inl ⟨hreceiver, htoken⟩
    | some t => exact .inr (.asyncMessage hreceiver (htoken ▸ rfl) hsender)
  | creation c body => exact .inl h
  | ret r =>
    cases hm : r.message with
    | none => exact .inl fun m hm' => by rw [hm] at hm'; cases hm'
    | some m =>
      -- a return that is written as a message is noted like an asynchronous one
      by_cases hasks : Token.isNamed m.receiver ∧ m.sender = none
      · refine .inl fun m' hm' => ?_
        rw [hm, Option.some.injEq] at hm'
        exact hm' ▸ hasks
      · refine .inr (.ret hm (h m hm) ?_)
        cases htoken : m.sender with
        | none => exact .inr fun hreceiver => hasks ⟨hreceiver, htoken⟩
        | some t => exact .inl rfl
  | divider d => cases h
  | reference r => cases h
  | block kind bs span => cases h

theorem leavesOpen_iff (c : Construct) : c.LeavesOpen ↔ c.Asks ∨ c.Overlooked :=
  ⟨LeavesOpen.asks_or_overlooked, fun h => h.elim Asks.leavesOpen Overlooked.leavesOpen⟩

end Construct

end Syntax

/-- **The sentinel is needed exactly if it is asked for, or if a construct is overlooked.** It is
    needed if some message outside of every call and creation leaves its sender open. -/
theorem sentinel_needed_iff (program : Program) (starter : Option String) :
    (∃ m ∈ (interpret program starter).document.messages, m.senderWritten = false ∧
        ∀ a ∈ (interpret program starter).document.ancestors m.id,
          (interpret program starter).document.activation? a = none) ↔
      (collect program starter).implicitSender = true ∨
        ∃ c ∈ outerOf program.statements, c.Overlooked := by
  rw [implicitSender_collect, ← exists_or]
  simp only [← and_or_left, ← Construct.leavesOpen_iff]
  rw [← Frame.openSteps.statements program.statements
    ⟨none, topOrigin program starter, none, none⟩ 0 rfl]
  refine exists_congr fun m => ?_
  have hmem := (interpret_wellIndexed program starter).mem_outerMessages_iff m
  rw [and_comm (a := m.senderWritten = false), ← and_assoc]
  exact and_congr_left fun _ => hmem.symm

/-- A call with an empty sender and a return without a receiver are overlooked: both are messages
    with an open sender at the top, and the sentinel is not asked for. -/
theorem open_senders_are_overlooked :
    let call := parse "\"\"->B.m"
    let ret := parse "@return"
    (collect call none).implicitSender = false ∧ (collect ret none).implicitSender = false ∧
      (∃ m ∈ (interpret call none).document.messages, m.senderWritten = false ∧
        (interpret call none).document.ancestors m.id = []) ∧
      ∃ m ∈ (interpret ret none).document.messages, m.senderWritten = false ∧
        (interpret ret none).document.ancestors m.id = [] := by
  decide +kernel

end SequenceDiagram
