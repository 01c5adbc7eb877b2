import SequenceDiagram.Syntax.Tree

namespace SequenceDiagram

/-!
# Documents

A `Document` is a program with its names resolved: every message knows who sends and who receives
it, and every statement that could not be understood stands as a `Node.rejected` in its place.

* Nodes are numbered from zero in the order of the source, a node before those inside it.
* `Document.entries` is the table of the nodes, by number: what each stands in, and which bar it
  opens. The queries on depths read this table and not the tree.
* `Rejection.message` is the wording of each reason for which a statement is not understood.
-/

/-- The number of a node. -/
abbrev NodeId := Nat

/-! ### Messages -/

/-- The kinds of messages. -/
inductive MessageKind where
  | sync
  | async
  | creation
  | ret
  deriving DecidableEq

namespace MessageKind

/-- The word for the kind. -/
def name : MessageKind → String
  | sync => "sync"
  | async => "async"
  | creation => "creation"
  | ret => "return"

/-- A call and a creation open a bar on the lifeline of their receiver. -/
def activates : MessageKind → Bool
  | sync => true
  | creation => true
  | async => false
  | ret => false

end MessageKind

/-- The variable that takes the result of a message. -/
structure Variable where
  name : String
  type : Option String
  deriving DecidableEq

/-- A message, without the statements inside it. -/
structure Message where
  id : NodeId
  kind : MessageKind
  sender : String
  /-- The sender was written, and is not just the origin. -/
  senderWritten : Bool
  /-- The receiver as it was written. -/
  written : Option String
  receiver : String
  /-- The participant in whose frame the message stands. -/
  origin : String
  signature : String
  assigned : Option Variable
  source : Span
  /-- The signature has a source text that can be edited. -/
  editable : Bool
  deriving DecidableEq

/-! ### Fragments -/

/-- The kinds of fragments. -/
inductive FragmentKind where
  | block (kind : Syntax.BlockKind)
  | reference
  deriving DecidableEq

/-- The word for the kind. -/
def FragmentKind.name : FragmentKind → String
  | block kind => kind.keyword
  | reference => "ref"

/-- A fragment, without its sections. -/
structure Fragment where
  id : NodeId
  kind : FragmentKind
  /-- The participant in whose frame the fragment stands. -/
  origin : String
  /-- Everyone who takes part, in the order of the first appearance. -/
  participants : List String
  source : Span
  deriving DecidableEq

/-! ### Rejected statements -/

/-- The reasons for which a statement is not understood. -/
inductive Rejection where
  | unrecognized
  | missingMethod
  | missingReceiver (signature : String)
  | missingAsyncReceiver
  | missingConstructor
  deriving DecidableEq

/-- The wording of a reason. -/
def Rejection.message : Rejection → String
  | unrecognized => "unrecognized statement"
  | missingMethod => "message has no method name"
  | missingReceiver signature => "cannot determine receiver of `" ++ signature ++ "`"
  | missingAsyncReceiver => "async message has no receiver"
  | missingConstructor => "creation has no constructor"

/-- What can still be read off a statement that is not understood. -/
structure Salvage where
  sender : Option String
  receiver : Option String
  signature : Option String
  deriving DecidableEq

/-- A statement that is not understood. -/
structure Rejected where
  id : NodeId
  reason : Rejection
  text : String
  source : Span
  salvage : Salvage
  deriving DecidableEq

/-! ### Trees -/

mutual

/-- A node of the document. -/
inductive Node where
  | message (message : Message) (body : List Node)
  | fragment (fragment : Fragment) (sections : List Section)
  | divider (id : NodeId) (note : String) (source : Span)
  | rejected (rejected : Rejected)

/-- A part of a fragment, with the keyword that introduces it and its condition. -/
inductive Section where
  | mk (label : String) (condition : Option String) (body : List Node)

end

namespace Section

/-- The keyword that introduces the section. -/
def label : Section → String
  | mk label _ _ => label

/-- The condition of the section. -/
def condition : Section → Option String
  | mk _ condition _ => condition

/-- The nodes in the section. -/
def body : Section → List Node
  | mk _ _ body => body

end Section

/-- The number of a node. -/
def Node.id : Node → NodeId
  | message m _ => m.id
  | fragment f _ => f.id
  | divider id _ _ => id
  | rejected r => r.id

/-- What the table says about a node. -/
structure Entry where
  /-- The message or the fragment around the node. -/
  parent : Option NodeId
  /-- The lifeline on which the node opens a bar. -/
  activation : Option String
  deriving DecidableEq

/-- A program with its names resolved. -/
structure Document where
  version : Nat
  starter : String
  nodes : List Node
  entries : List Entry

end SequenceDiagram
