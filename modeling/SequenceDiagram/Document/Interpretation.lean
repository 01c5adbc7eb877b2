import SequenceDiagram.Document.Basic
import SequenceDiagram.Participant.Order

namespace SequenceDiagram

open Syntax

/-!
# Interpreting a program

`interpret program starter` resolves the names of a program and numbers its statements.

* A statement is read in a `Frame`, which names the participants that stand in for a sender or a
  receiver that was not written.
* A call or a creation opens a new frame for its body; a fragment keeps the frame of its
  surroundings.
* A statement that is not understood becomes a rejected node and a `Fault`, without what stands
  inside it; the statements around it are not affected.
-/

/-! ### Frames -/

/-- The surroundings of a statement. -/
structure Frame where
  /-- The message or the fragment around the statement. -/
  parent : Option NodeId
  /-- Who sends if no sender is written. -/
  origin : String
  /-- Who sent the nearest call or creation around the statement. -/
  caller : Option String
  /-- Who received the nearest call or creation around the statement. -/
  owner : Option String

namespace Frame

/-- The frame of the statements in a fragment. -/
def inside (frame : Frame) (id : NodeId) : Frame := { frame with parent := some id }

/-- The frame of the statements in the body of a message. -/
def within (m : Message) : Frame := ⟨some m.id, m.receiver, some m.sender, some m.receiver⟩

end Frame

/-! ### Texts -/

/-- The display text of a token, unless nothing is left of it. -/
def displayOf (token : Option Token) : Option String :=
  (token.map fun t => displayText t.text).filter (· ≠ "")

/-- The variable of an assignment; it needs a name. -/
def Variable.of (assignment : Option Assignment) : Option Variable :=
  (Token.text? (assignment.bind (·.assignee))).map fun name =>
    ⟨name, Token.text? (assignment.bind (·.type))⟩

/-- The text on the arrow of a call: the method as it was written, or the display text of method and
    arguments. -/
def callSignature (c : Call) : Option String :=
  (Token.text? c.method).map fun method =>
    match c.arguments with
    | some arguments => displayText (method ++ "(" ++ arguments.text ++ ")")
    | none => method

/-- What can be read off a statement, whether or not it is understood. -/
def Salvage.of : Option Construct → Salvage
  | some (.call c _) => ⟨Token.text? c.sender, Token.text? c.receiver, callSignature c⟩
  | some (.asyncMessage m) => ⟨Token.text? m.sender, Token.text? m.receiver, displayOf m.content⟩
  | _ => ⟨none, none, none⟩

/-! ### Messages -/

namespace Frame

/-- A call goes to the written receiver, else to the owner of the frame. -/
def call (frame : Frame) (id : NodeId) (c : Call) : Except Rejection Message :=
  match callSignature c with
  | none => .error .missingMethod
  | some signature =>
    match (Token.text? c.receiver).or frame.owner with
    | none => .error (.missingReceiver signature)
    | some receiver => .ok
      { id := id
        kind := .sync
        sender := (Token.text? c.sender).getD frame.origin
        senderWritten := (Token.text? c.sender).isSome
        written := Token.text? c.receiver
        receiver := receiver
        origin := frame.origin
        signature := signature
        assigned := Variable.of c.assignment
        source := c.span
        editable := true }

/-- An asynchronous message needs a written receiver. -/
def asyncMessage (frame : Frame) (id : NodeId) (m : AsyncMessage) : Except Rejection Message :=
  match Token.text? m.receiver with
  | none => .error .missingAsyncReceiver
  | some receiver => .ok
    { id := id
      kind := .async
      sender := (Token.text? m.sender).getD frame.origin
      senderWritten := (Token.text? m.sender).isSome
      written := some receiver
      receiver := receiver
      origin := frame.origin
      signature := (displayOf m.content).getD ""
      assigned := none
      source := m.span
      editable := true }

/-- A creation goes from the origin to the created participant. Without arguments there is nothing
    to edit in its signature. -/
def creation (frame : Frame) (id : NodeId) (c : Creation) : Except Rejection Message :=
  match Token.text? c.constructor with
  | none => .error .missingConstructor
  | some constructor =>
    let name := creationName c.assignment constructor
    let arguments := (c.arguments.map fun a => displayText a.text).filter (· ≠ "")
    .ok
      { id := id
        kind := .creation
        sender := frame.origin
        senderWritten := false
        written := some name
        receiver := name
        origin := frame.origin
        signature := "«" ++ arguments.getD "create" ++ "»"
        assigned := Variable.of c.assignment
        source := c.span
        editable := arguments.isSome }

/-- A return goes to the written receiver, else to the caller of the frame, else to the origin. -/
def ret (frame : Frame) (id : NodeId) (r : Return) : Message :=
  let sender := Token.text? (r.message.bind (·.sender))
  let receiver := Token.text? (r.message.bind (·.receiver))
  let content := match r.message with
    | some m => m.content
    | none => r.expression
  { id := id
    kind := .ret
    sender := sender.getD frame.origin
    senderWritten := sender.isSome
    written := receiver
    receiver := receiver.getD (frame.caller.getD frame.origin)
    origin := frame.origin
    signature := (displayOf content).getD ""
    assigned := none
    source := r.span
    editable := true }

end Frame

/-! ### Who takes part in a fragment -/

mutual

/-- The participants that a node names, with repetitions. -/
def Node.names : Node → List String
  | .message m body => m.sender :: m.receiver :: namesOf body
  | .fragment f _ => f.participants
  | .divider _ _ _ => []
  | .rejected _ => []

/-- The participants that some nodes name, with repetitions. -/
def namesOf : List Node → List String
  | [] => []
  | n :: rest => n.names ++ namesOf rest

end

/-- A fragment with its sections; `others` take part without being named in a section. -/
def Frame.fragment (frame : Frame) (id : NodeId) (kind : FragmentKind) (source : Span)
    (sections : List Section) (others : List String) : Node :=
  .fragment
    { id := id
      kind := kind
      origin := frame.origin
      participants := ((sections.flatMap fun s => namesOf s.body) ++ others).eraseDups
      source := source }
    sections

/-- A reference is a fragment with one section, whose condition is the name of the diagram. -/
def Frame.reference (frame : Frame) (id : NodeId) (r : Reference) : Node :=
  frame.fragment id .reference r.span [.mk "ref" (r.names.head?.map (·.text)) []]
    ((r.names.tail.map (·.text)).filter (· ≠ ""))

/-! ### Statements -/

/-- Where a statement was not understood, and why. -/
structure Fault where
  line : Nat
  column : Nat
  reason : Rejection
  deriving DecidableEq

/-- The place and the wording of a fault. -/
def Fault.text (f : Fault) : String :=
  toString f.line ++ ":" ++ toString f.column ++ " " ++ f.reason.message

/-- What was made of some statements: a value, the table of the nodes that were numbered for it, and
    the faults. -/
structure Reading (α : Type) where
  value : α
  entries : List Entry
  faults : List Fault

namespace Reading

/-- The reading of no statement. -/
def nothing {α : Type} : Reading (List α) := ⟨[], [], []⟩

/-- One reading in front of others. -/
def cons {α : Type} (first : Reading α) (rest : Reading (List α)) : Reading (List α) :=
  ⟨first.value :: rest.value, first.entries ++ rest.entries, first.faults ++ rest.faults⟩

/-- The reading of a node, from the reading of what stands inside it. -/
def node {α : Type} (entry : Entry) (inner : Reading α) (make : α → Node) : Reading Node :=
  ⟨make inner.value, entry :: inner.entries, inner.faults⟩

/-- The reading of a node with nothing inside. -/
def leaf (entry : Entry) (node : Node) : Reading Node := ⟨node, [entry], []⟩

end Reading

namespace Frame

/-- The reading of a statement that is not understood. -/
def reject (frame : Frame) (id : NodeId) (s : Statement) (reason : Rejection) : Reading Node :=
  ⟨.rejected ⟨id, reason, s.text, s.span, .of s.construct?⟩, [⟨frame.parent, none⟩],
    [⟨s.span.line, s.span.column, reason⟩]⟩

/-- The entry of a node that opens no bar. -/
def entry (frame : Frame) : Entry := ⟨frame.parent, none⟩

mutual

/-- Reads a statement, as the node with the given number. -/
def statement (frame : Frame) (id : NodeId) : Statement → Reading Node
  | .unrecognized span text => frame.reject id (.unrecognized span text) .unrecognized
  | .recognized c span text =>
    match construct frame id c with
    | .ok reading => reading
    | .error reason => frame.reject id (.recognized c span text) reason

/-- Reads a construct, as the node with the given number. -/
def construct (frame : Frame) (id : NodeId) : Construct → Except Rejection (Reading Node)
  | .call c body =>
    match frame.call id c with
    | .error reason => .error reason
    | .ok m => .ok (.node ⟨frame.parent, some m.receiver⟩ (block (.within m) (id + 1) body)
        (.message m))
  | .creation c body =>
    match frame.creation id c with
    | .error reason => .error reason
    | .ok m => .ok (.node ⟨frame.parent, some m.receiver⟩ (block (.within m) (id + 1) body)
        (.message m))
  | .asyncMessage m =>
    match frame.asyncMessage id m with
    | .error reason => .error reason
    | .ok m => .ok (.leaf frame.entry (.message m []))
  | .ret r => .ok (.leaf frame.entry (.message (frame.ret id r) []))
  | .divider d => .ok (.leaf frame.entry (.divider id ((displayOf d.note).getD "") d.span))
  | .reference r => .ok (.leaf frame.entry (frame.reference id r))
  | .block kind bs span =>
    .ok (.node frame.entry (branches (frame.inside id) (id + 1) kind bs) fun sections =>
      frame.fragment id (.block kind) span sections [])

/-- Reads a block, whose nodes are numbered from `next` on. -/
def block (frame : Frame) (next : NodeId) : Block → Reading (List Node)
  | .missing => .nothing
  | .present ss _ => statements frame next ss

/-- Reads statements, whose nodes are numbered from `next` on. -/
def statements (frame : Frame) (next : NodeId) : List Statement → Reading (List Node)
  | [] => .nothing
  | s :: rest =>
    let first := statement frame next s
    first.cons (statements frame (next + first.entries.length) rest)

/-- Reads a branch as a section, whose nodes are numbered from `next` on. -/
def branch (frame : Frame) (next : NodeId) (kind : BlockKind) : Branch → Reading Section
  | .mk role guard body =>
    let inner := block frame next body
    let condition := (guard.map fun c => displayText (unquote c.text.text)).filter (· ≠ "")
    ⟨.mk (role.keyword kind) condition inner.value, inner.entries, inner.faults⟩

/-- Reads branches, whose nodes are numbered from `next` on. -/
def branches (frame : Frame) (next : NodeId) (kind : BlockKind) :
    List Branch → Reading (List Section)
  | [] => .nothing
  | b :: rest =>
    let first := branch frame next kind b
    first.cons (branches frame (next + first.entries.length) kind rest)

end

end Frame

/-! ### Programs -/

/-- The participant that starts the interaction. -/
def effectiveStarter (program : Program) (starter : Option String) : String :=
  ((effectiveOverride starter).or (program.declaredStarter?.map (·.text))).getD sentinel

/-- The participant in whose frame the program stands. The sentinel has a lifeline only if some
    message needs it, so else the first lifeline takes its place. -/
def topOrigin (program : Program) (starter : Option String) : String :=
  if effectiveStarter program starter ≠ sentinel then effectiveStarter program starter
  else
    let context := collect program starter
    if context.implicitSender then sentinel
    else (orderedNames context).head?.getD sentinel

/-- A document, and what was not understood of its source. -/
structure Interpretation where
  document : Document
  faults : List Fault

namespace Interpretation

/-- Everything was understood. -/
def success (i : Interpretation) : Bool := i.faults.isEmpty

/-- The wording of all faults. -/
def errors (i : Interpretation) : List String := i.faults.map (·.text)

end Interpretation

/-- The document of a program; `starter` takes the place of the declared starter. -/
def interpret (program : Program) (starter : Option String) : Interpretation :=
  let frame : Frame := ⟨none, topOrigin program starter, none, none⟩
  let reading := frame.statements 0 program.statements
  ⟨⟨0, effectiveStarter program starter, reading.value, reading.entries⟩, reading.faults⟩

end SequenceDiagram
