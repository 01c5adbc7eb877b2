import SequenceDiagram.Binary32.Decimal
import SequenceDiagram.Participant.Ledger
import SequenceDiagram.Syntax.Tree
import SequenceDiagram.Text.Display

namespace SequenceDiagram

open Syntax

/-!
# Collecting the participants of a program

One walk over the syntax tree notes every place that names a participant.

* Declarations are explicit; the starter, senders, receivers, created participants and the names in
  references are mentions. Arguments and conditions name nobody.
* `Context.implicitSender` says that some message outside of every call has no sender of its own, so
  that the starter sends it.
* A starter from outside takes the place of the declared one.
-/

/-- The participant that starts the interaction if no other is named. -/
def sentinel : String := "_STARTER_"

/-- What a program says about its participants. -/
structure Context where
  ledger : Ledger
  starter : Option String
  implicitSender : Bool

/-- The name of a created participant: the constructor's, after that of the variable if the result
    is assigned. -/
def creationName (assignment : Option Assignment) (constructor : String) : String :=
  match Token.text? (assignment.bind (·.assignee)) with
  | some assignee => assignee ++ ":" ++ constructor
  | none => constructor

/-- A starter from outside counts only if it is not empty. -/
def effectiveOverride (starter : Option String) : Option String := starter.filter (· ≠ "")

namespace Context

/-- Nothing is known yet. -/
def empty : Context := ⟨.empty, none, false⟩

/-- The participant that sends what has no sender of its own. -/
def starterName (context : Context) : String := context.starter.getD sentinel

/-- Adds a mention to the ledger. -/
def mention (context : Context) (name : String) (m : Mention) : Context :=
  { context with ledger := context.ledger.add name m }

/-- Notes a name where it is used; an empty name is none. -/
def use (context : Context) (token : Option Token) : Context :=
  match token.filter (·.text ≠ "") with
  | some t => context.mention t.text (.of t.span)
  | none => context

/-- Notes a message, outside of every call unless `inCall`, that leaves its sender open. -/
def send (context : Context) (inCall : Bool) (sender : Option Token) : Context :=
  if sender.isNone && !inCall then { context with implicitSender := true } else context

/-! ### The head -/

/-- Notes a declaration. -/
def declare (context : Context) (groupId : Option String) (d : Declaration) : Context :=
  match d.name with
  | none => context
  | some name =>
    let text (token : Option Token) := token.map fun t => displayText t.text
    context.mention name.text
      { explicit := true
        label := text d.label
        stereotype := text d.stereotype
        type := text d.type
        color := text d.color
        width := d.width.bind fun w => Binary32.ofText? w.text
        groupId := groupId
        position := some name.span }

/-- Notes an entry of the head. -/
def headItem (context : Context) : HeadItem → Context
  | .participant d => context.declare none d
  | .group g => g.members.foldl (·.declare (g.name.map (·.text))) context

/-- Notes the starter. -/
def start (context : Context) (name : String) (position : Option Span) : Context :=
  { context.mention name { isStarter := true, position := position } with starter := some name }

/-- Notes the head, and with it the declared starter if it is to count. -/
def head (context : Context) (useStarter : Bool) (h : Syntax.Head) : Context :=
  let context := h.items.foldl headItem context
  match (h.starter.bind (·.name)).filter fun _ => useStarter with
  | some name => context.start name.text (some name.span)
  | none => context

/-! ### Statements -/

/-- Notes an asynchronous message. Without a receiver it is no message. -/
def asyncMessage (context : Context) (inCall : Bool) (m : AsyncMessage) : Context :=
  let context := if Token.isNamed m.receiver then context.send inCall m.sender else context
  (context.use m.sender).use m.receiver

/-- Notes a call without its body. It needs a receiver, or a call around it, and a method. -/
def call (context : Context) (inCall : Bool) (c : Call) : Context :=
  let context :=
    if Token.isNamed c.receiver && Token.isNamed c.method then context.send inCall c.sender
    else context
  (context.use c.sender).use c.receiver

/-- Notes a creation without its body. -/
def creation (context : Context) (inCall : Bool) (c : Creation) : Context :=
  let context := if Token.isNamed c.constructor then context.send inCall none else context
  match c.constructor with
  | some constructor =>
    context.mention (creationName c.assignment constructor.text) (.of constructor.span)
  | none => context

/-- Notes a return. -/
def ret (context : Context) (inCall : Bool) (r : Return) : Context :=
  match r.message with
  | some m => context.asyncMessage inCall m
  | none => context.send inCall none

/-- Notes a reference: its first name is not a participant. -/
def reference (context : Context) (r : Reference) : Context :=
  r.names.tail.foldl (fun context name => context.use (some name)) context

mutual

/-- Notes a statement. -/
def statement (inCall : Bool) (context : Context) : Statement → Context
  | .unrecognized _ _ => context
  | .recognized c _ _ => construct inCall context c

/-- Notes a construct. -/
def construct (inCall : Bool) (context : Context) : Construct → Context
  | .call c body => block true (context.call inCall c) body
  | .asyncMessage m => context.asyncMessage inCall m
  | .creation c body => block true (context.creation inCall c) body
  | .ret r => context.ret inCall r
  | .divider _ => context
  | .reference r => context.reference r
  | .block _ bs _ => branches inCall context bs

/-- Notes a branch. -/
def branch (inCall : Bool) (context : Context) : Branch → Context
  | .mk _ _ body => block inCall context body

/-- Notes a block. -/
def block (inCall : Bool) (context : Context) : Block → Context
  | .missing => context
  | .present ss _ => statements inCall context ss

/-- Notes statements in their order. -/
def statements (inCall : Bool) (context : Context) : List Statement → Context
  | [] => context
  | s :: rest => statements inCall (statement inCall context s) rest

/-- Notes branches in their order. -/
def branches (inCall : Bool) (context : Context) : List Branch → Context
  | [] => context
  | b :: rest => branches inCall (branch inCall context b) rest

end

end Context

/-- The participants of a program; `starter` takes the place of the declared starter. -/
def collect (program : Program) (starter : Option String) : Context :=
  let override := effectiveOverride starter
  let context := match program.head with
    | some h => Context.empty.head override.isNone h
    | none => Context.empty
  let context := match override with
    | some name => context.start name none
    | none => context
  context.statements false program.statements

end SequenceDiagram
