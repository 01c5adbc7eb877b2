import SequenceDiagram.Document.Basic
import SequenceDiagram.Participant.Context

namespace SequenceDiagram

/-!
# Queries on documents

* `Document.parent?`, `ancestors` and `activation?` read the table of the nodes.
* `Document.messages`, `fragments` and `find?` walk the tree, in the order of the source.
* `nestedFragments` are the fragments directly inside some sections; the bodies of messages are
  looked through. `nestingLevels` says how deep they nest.
-/

/-! ### The table -/

namespace Document

/-- The document as that of another version. -/
def withVersion (d : Document) (version : Nat) : Document := { d with version := version }

/-- The node around a node. -/
def parent? (d : Document) (id : NodeId) : Option NodeId := d.entries[id]?.bind (·.parent)

/-- The lifeline on which a node opens a bar. -/
def activation? (d : Document) (id : NodeId) : Option String := d.entries[id]?.bind (·.activation)

/-- The nodes around a node, from the nearest. A node stands behind the one around it, so the chain
    ends. -/
def ancestors (d : Document) (id : NodeId) : List NodeId :=
  match d.parent? id with
  | some p => if p < id then p :: d.ancestors p else []
  | none => []
termination_by id

end Document

/-! ### The tree -/

/-- A fragment with its sections. -/
structure FragmentTree where
  fragment : Fragment
  sections : List Section

/-- A message that a participant sends to itself, both written. The sentinel has no such message. -/
def Message.isToItself (m : Message) : Bool :=
  m.senderWritten && m.written == some m.sender && m.sender != sentinel

mutual

/-- The messages at and below a node. -/
def Node.messages : Node → List Message
  | .message m body => m :: messagesOf body
  | .fragment _ sections => messagesIn sections
  | .divider _ _ _ => []
  | .rejected _ => []

/-- The messages at and below some nodes. -/
def messagesOf : List Node → List Message
  | [] => []
  | n :: rest => n.messages ++ messagesOf rest

/-- The messages in some sections. -/
def messagesIn : List Section → List Message
  | [] => []
  | .mk _ _ body :: rest => messagesOf body ++ messagesIn rest

end

mutual

/-- The fragments at and below a node. -/
def Node.fragments : Node → List FragmentTree
  | .message _ body => fragmentsOf body
  | .fragment f sections => ⟨f, sections⟩ :: fragmentsIn sections
  | .divider _ _ _ => []
  | .rejected _ => []

/-- The fragments at and below some nodes. -/
def fragmentsOf : List Node → List FragmentTree
  | [] => []
  | n :: rest => n.fragments ++ fragmentsOf rest

/-- The fragments in some sections, at every depth. -/
def fragmentsIn : List Section → List FragmentTree
  | [] => []
  | .mk _ _ body :: rest => fragmentsOf body ++ fragmentsIn rest

end

mutual

/-- The fragment that a node is, or the outermost fragments in the body of the message. -/
def Node.outerFragments : Node → List FragmentTree
  | .message _ body => outerFragmentsOf body
  | .fragment f sections => [⟨f, sections⟩]
  | .divider _ _ _ => []
  | .rejected _ => []

/-- The outermost fragments among some nodes. -/
def outerFragmentsOf : List Node → List FragmentTree
  | [] => []
  | n :: rest => n.outerFragments ++ outerFragmentsOf rest

end

/-- The fragments directly inside some sections. -/
def nestedFragments (sections : List Section) : List FragmentTree :=
  sections.flatMap fun s => outerFragmentsOf s.body

mutual

/-- How many fragments stand around each other at most, at and below a node. -/
def Node.levels : Node → Nat
  | .message _ body => levelsOf body
  | .fragment _ sections => nestingLevels sections + 1
  | .divider _ _ _ => 0
  | .rejected _ => 0

/-- How many fragments stand around each other at most, at and below some nodes. -/
def levelsOf : List Node → Nat
  | [] => 0
  | n :: rest => max n.levels (levelsOf rest)

/-- How many fragments stand around each other at most in some sections. -/
def nestingLevels : List Section → Nat
  | [] => 0
  | .mk _ _ body :: rest => max (levelsOf body) (nestingLevels rest)

end

mutual

/-- The node of a number, at or below a node. -/
def Node.find? (id : NodeId) (n : Node) : Option Node :=
  if n.id = id then some n
  else match n with
    | .message _ body => findOf? id body
    | .fragment _ sections => findIn? id sections
    | .divider _ _ _ => none
    | .rejected _ => none

/-- The node of a number, at or below some nodes. -/
def findOf? (id : NodeId) : List Node → Option Node
  | [] => none
  | n :: rest => (n.find? id).or (findOf? id rest)

/-- The node of a number in some sections. -/
def findIn? (id : NodeId) : List Section → Option Node
  | [] => none
  | .mk _ _ body :: rest => (findOf? id body).or (findIn? id rest)

end

namespace Document

/-- The messages, in the order of the source. -/
def messages (d : Document) : List Message := messagesOf d.nodes

/-- The fragments at every depth, in the order of the source. -/
def fragments (d : Document) : List FragmentTree := fragmentsOf d.nodes

/-- The node of a number. -/
def find? (d : Document) (id : NodeId) : Option Node := findOf? id d.nodes

end Document

end SequenceDiagram
