import SequenceDiagram.Document.Interpretation
import SequenceDiagram.Document.Queries

namespace SequenceDiagram

open Syntax

/-!
# Induction over programs, readings and documents

Statements hold lists of statements, and nodes hold lists of nodes, so every induction over them has
one property for a single element and one for each kind of list. The properties are bundled with
what has to be shown for them:

* `Syntax.Steps` — properties of statements and branches, `Syntax.Steps.statements` gives them for
  whole programs.
* `Node.Steps` — the same for the nodes of a document.
* `Frame.Steps` — properties of what `Frame.statements` makes of statements. The cases are the
  nodes that can come out, so a call and a creation are one case; the source of a node is only
  visible in the message or the reference that was read.
-/

/-! ### Programs -/

/-- What has to be shown for a property `p` of statements, `q` of lists of statements and `r` of
    lists of branches. -/
structure Syntax.Steps (p : Statement → Prop) (q : List Statement → Prop)
    (r : List Branch → Prop) : Prop where
  unrecognized : ∀ span text, p (.unrecognized span text)
  call : ∀ c body span text, q body.statements → p (.recognized (.call c body) span text)
  creation : ∀ c body span text, q body.statements → p (.recognized (.creation c body) span text)
  asyncMessage : ∀ m span text, p (.recognized (.asyncMessage m) span text)
  ret : ∀ m span text, p (.recognized (.ret m) span text)
  divider : ∀ d span text, p (.recognized (.divider d) span text)
  reference : ∀ m span text, p (.recognized (.reference m) span text)
  block : ∀ kind bs inner span text, r bs → p (.recognized (.block kind bs inner) span text)
  nil : q []
  cons : ∀ s rest, p s → q rest → q (s :: rest)
  noBranch : r []
  branch : ∀ role guard body rest, q body.statements → r rest → r (.mk role guard body :: rest)

namespace Syntax.Steps

variable {p : Statement → Prop} {q : List Statement → Prop} {r : List Branch → Prop}

mutual

/-- The property holds of every statement. -/
theorem statement (h : Steps p q r) : ∀ s, p s
  | .unrecognized span text => h.unrecognized span text
  | .recognized c span text => h.construct c span text

/-- The property holds of every statement with a construct. -/
theorem construct (h : Steps p q r) : ∀ c span text, p (.recognized c span text)
  | .call c body, span, text => h.call c body span text (h.inBlock body)
  | .creation c body, span, text => h.creation c body span text (h.inBlock body)
  | .asyncMessage m, span, text => h.asyncMessage m span text
  | .ret m, span, text => h.ret m span text
  | .divider d, span, text => h.divider d span text
  | .reference m, span, text => h.reference m span text
  | .block kind bs inner, span, text => h.block kind bs inner span text (h.branches bs)

/-- The property holds of the statements in every block. -/
theorem inBlock (h : Steps p q r) : ∀ body : Block, q body.statements
  | .missing => h.nil
  | .present ss _ => h.statements ss

/-- The property holds of every list of branches. -/
theorem branches (h : Steps p q r) : ∀ bs, r bs
  | [] => h.noBranch
  | .mk role guard body :: rest =>
    h.branch role guard body rest (h.inBlock body) (h.branches rest)

/-- The property holds of every list of statements. -/
theorem statements (h : Steps p q r) : ∀ ss, q ss
  | [] => h.nil
  | s :: rest => h.cons s rest (h.statement s) (h.statements rest)

end

end Syntax.Steps

/-! ### Documents -/

/-- What has to be shown for a property `p` of nodes, `q` of lists of nodes and `r` of lists of
    sections. -/
structure Node.Steps (p : Node → Prop) (q : List Node → Prop) (r : List Section → Prop) :
    Prop where
  message : ∀ m body, q body → p (.message m body)
  fragment : ∀ f sections, r sections → p (.fragment f sections)
  divider : ∀ id note source, p (.divider id note source)
  rejected : ∀ x, p (.rejected x)
  nil : q []
  cons : ∀ n rest, p n → q rest → q (n :: rest)
  noSection : r []
  inSection : ∀ label condition body rest,
    q body → r rest → r (.mk label condition body :: rest)

namespace Node.Steps

variable {p : Node → Prop} {q : List Node → Prop} {r : List Section → Prop}

mutual

/-- The property holds of every node. -/
theorem node (h : Steps p q r) : ∀ n, p n
  | .message m body => h.message m body (h.nodes body)
  | .fragment f sections => h.fragment f sections (h.sections sections)
  | .divider id note source => h.divider id note source
  | .rejected x => h.rejected x

/-- The property holds of every list of nodes. -/
theorem nodes (h : Steps p q r) : ∀ ns, q ns
  | [] => h.nil
  | n :: rest => h.cons n rest (h.node n) (h.nodes rest)

/-- The property holds of every list of sections. -/
theorem sections (h : Steps p q r) : ∀ ss, r ss
  | [] => h.noSection
  | .mk label condition body :: rest =>
    h.inSection label condition body rest (h.nodes body) (h.sections rest)

end

end Node.Steps

/-! ### Readings -/

namespace Frame

/-- A block is read like the statements in it. -/
theorem block_eq (frame : Frame) (next : NodeId) (body : Block) :
    frame.block next body = frame.statements next body.statements := by
  cases body <;> rfl

/-- What a call is read as: it has a method, and a receiver from the text or from the frame. -/
theorem call_ok {frame : Frame} {id : NodeId} {c : Call} {m : Message}
    (h : frame.call id c = .ok m) : ∃ signature receiver, callSignature c = some signature ∧
      (Token.text? c.receiver).or frame.owner = some receiver ∧
      m = ⟨id, .sync, (Token.text? c.sender).getD frame.origin, (Token.text? c.sender).isSome,
        Token.text? c.receiver, receiver, frame.origin, signature, Variable.of c.assignment, c.span,
        true⟩ := by
  unfold Frame.call at h
  split at h
  · cases h
  · next signature hs =>
    split at h
    · cases h
    · next receiver hr =>
      cases h
      exact ⟨signature, receiver, hs, hr, rfl⟩

/-- What an asynchronous message is read as: its receiver is written. -/
theorem asyncMessage_ok {frame : Frame} {id : NodeId} {a : AsyncMessage} {m : Message}
    (h : frame.asyncMessage id a = .ok m) : ∃ receiver, Token.text? a.receiver = some receiver ∧
      m = ⟨id, .async, (Token.text? a.sender).getD frame.origin, (Token.text? a.sender).isSome,
        some receiver, receiver, frame.origin, (displayOf a.content).getD "", none, a.span,
        true⟩ := by
  unfold Frame.asyncMessage at h
  split at h
  · cases h
  · next receiver hr =>
    cases h
    exact ⟨receiver, hr, rfl⟩

/-- What a creation is read as: its constructor is written. -/
theorem creation_ok {frame : Frame} {id : NodeId} {c : Creation} {m : Message}
    (h : frame.creation id c = .ok m) : ∃ constructor signature editable,
      Token.text? c.constructor = some constructor ∧
      m = ⟨id, .creation, frame.origin, false, some (creationName c.assignment constructor),
        creationName c.assignment constructor, frame.origin, signature, Variable.of c.assignment,
        c.span, editable⟩ := by
  unfold Frame.creation at h
  split at h
  · cases h
  · next constructor hc =>
    cases h
    exact ⟨constructor, _, _, hc, rfl⟩

/-- The message is read off a call or a creation in the frame. -/
def Opens (frame : Frame) (id : NodeId) (m : Message) : Prop :=
  (∃ c, frame.call id c = .ok m) ∨ ∃ c, frame.creation id c = .ok m

/-- The message is read off an asynchronous message or a return in the frame. -/
def Passes (frame : Frame) (id : NodeId) (m : Message) : Prop :=
  (∃ a, frame.asyncMessage id a = .ok m) ∨ ∃ r, frame.ret id r = m

theorem Opens.id_eq {frame : Frame} {id : NodeId} {m : Message} (h : frame.Opens id m) :
    m.id = id := by
  rcases h with ⟨c, hc⟩ | ⟨c, hc⟩
  · obtain ⟨_, _, _, _, rfl⟩ := call_ok hc
    rfl
  · obtain ⟨_, _, _, _, rfl⟩ := creation_ok hc
    rfl

theorem Opens.activates {frame : Frame} {id : NodeId} {m : Message} (h : frame.Opens id m) :
    m.kind.activates = true := by
  rcases h with ⟨c, hc⟩ | ⟨c, hc⟩
  · obtain ⟨_, _, _, _, rfl⟩ := call_ok hc
    rfl
  · obtain ⟨_, _, _, _, rfl⟩ := creation_ok hc
    rfl

theorem Passes.id_eq {frame : Frame} {id : NodeId} {m : Message} (h : frame.Passes id m) :
    m.id = id := by
  rcases h with ⟨a, ha⟩ | ⟨r, rfl⟩
  · obtain ⟨_, _, rfl⟩ := asyncMessage_ok ha
    rfl
  · rfl

theorem Passes.not_activates {frame : Frame} {id : NodeId} {m : Message} (h : frame.Passes id m) :
    m.kind.activates = false := by
  rcases h with ⟨a, ha⟩ | ⟨r, rfl⟩
  · obtain ⟨_, _, rfl⟩ := asyncMessage_ok ha
    rfl
  · rfl

/-- What has to be shown for a property `p` of the reading of a node, `q` of the reading of a list
    of nodes and `r` of the reading of a list of sections, each in its frame and from its number
    on. -/
structure Steps (p : Frame → NodeId → Reading Node → Prop)
    (q : Frame → NodeId → Reading (List Node) → Prop)
    (r : Frame → NodeId → Reading (List Section) → Prop) : Prop where
  rejected : ∀ frame id s reason, p frame id (frame.reject id s reason)
  opening : ∀ frame id m inner, frame.Opens id m → q (.within m) (id + 1) inner →
    p frame id (.node ⟨frame.parent, some m.receiver⟩ inner (.message m))
  passing : ∀ frame id m, frame.Passes id m → p frame id (.leaf frame.entry (.message m []))
  divider : ∀ frame id note source, p frame id (.leaf frame.entry (.divider id note source))
  reference : ∀ frame id x, p frame id (.leaf frame.entry (frame.reference id x))
  block : ∀ frame id kind source inner, r (frame.inside id) (id + 1) inner →
    p frame id (.node frame.entry inner fun sections =>
      frame.fragment id (.block kind) source sections [])
  nil : ∀ frame next, q frame next .nothing
  cons : ∀ frame next first rest, p frame next first →
    q frame (next + first.entries.length) rest → q frame next (first.cons rest)
  noSection : ∀ frame next, r frame next .nothing
  inSection : ∀ frame next label condition inner rest, q frame next inner →
    r frame (next + inner.entries.length) rest →
    r frame next (.cons ⟨.mk label condition inner.value, inner.entries, inner.faults⟩ rest)

namespace Steps

variable {p : Frame → NodeId → Reading Node → Prop}
  {q : Frame → NodeId → Reading (List Node) → Prop}
  {r : Frame → NodeId → Reading (List Section) → Prop}

/-- The cases of the syntax fall under those of the readings. -/
theorem syntaxSteps (h : Steps p q r) : Syntax.Steps
    (fun s => ∀ frame id, p frame id (frame.statement id s))
    (fun ss => ∀ frame next, q frame next (frame.statements next ss))
    (fun bs => ∀ frame next kind, r frame next (frame.branches next kind bs)) where
  unrecognized span text frame id := h.rejected frame id _ _
  call c body span text hbody frame id := by
    rw [Frame.statement, Frame.construct]
    cases hc : frame.call id c with
    | error reason => exact h.rejected frame id _ _
    | ok m =>
      simp only [block_eq]
      exact h.opening frame id m _ (.inl ⟨c, hc⟩) (hbody _ _)
  creation c body span text hbody frame id := by
    rw [Frame.statement, Frame.construct]
    cases hc : frame.creation id c with
    | error reason => exact h.rejected frame id _ _
    | ok m =>
      simp only [block_eq]
      exact h.opening frame id m _ (.inr ⟨c, hc⟩) (hbody _ _)
  asyncMessage a span text frame id := by
    rw [Frame.statement, Frame.construct]
    cases ha : frame.asyncMessage id a with
    | error reason => exact h.rejected frame id _ _
    | ok m => exact h.passing frame id m (.inl ⟨a, ha⟩)
  ret x span text frame id := h.passing frame id _ (.inr ⟨x, rfl⟩)
  divider d span text frame id := h.divider frame id _ _
  reference x span text frame id := h.reference frame id x
  block kind bs inner span text hbs frame id := h.block frame id kind inner _ (hbs _ _ _)
  nil frame next := h.nil frame next
  cons s rest hs hrest frame next := h.cons frame next _ _ (hs _ _) (hrest _ _)
  noBranch frame next kind := h.noSection frame next
  branch role guard body rest hbody hrest frame next kind := by
    rw [Frame.branches, Frame.branch]
    simp only [block_eq]
    exact h.inSection frame next _ _ _ _ (hbody _ _) (hrest _ _ _)

/-- The property holds of the reading of all statements in every frame. -/
theorem statements (h : Steps p q r) (frame : Frame) (next : NodeId) (ss : List Statement) :
    q frame next (frame.statements next ss) :=
  h.syntaxSteps.statements ss frame next

end Steps

end Frame

end SequenceDiagram
