import SequenceDiagram.Proofs.Participant.Collection

namespace SequenceDiagram

open Syntax

/-!
# Names in expressions are not noted

`collect` passes over the arguments of calls and the guards of blocks. A walk that goes into every
expression comes to the same participants, as long as it counts the lists that are open around it.

* A `Walk` has two counters, for the argument lists and conditions and for the calls that are open.
* `expression_of_blind`: while a list is open nothing is noted, however deep the invocations.
* `arguments_eq` and `condition_eq`: what is opened is closed again.
* `walk_eq` is the result for whole programs, and both counters end where they started.
-/

/-- How far a walk over a program has come. -/
structure Walk where
  context : Context
  /-- The argument lists and conditions that are open. -/
  blind : Nat
  /-- The calls and creations that are open. -/
  calls : Nat

namespace Walk

/-! ### Steps -/

/-- A step that is made whatever is open. -/
def update (w : Walk) (f : Context → Context) : Walk := { w with context := f w.context }

/-- A step that is only made while no list is open. -/
def note (w : Walk) (f : Context → Context) : Walk := if w.blind = 0 then w.update f else w

/-- Notes a name where it is used. -/
def use (w : Walk) (token : Option Token) : Walk := w.note (·.use token)

/-- Notes a message that leaves its sender open. -/
def send (w : Walk) (sender : Option Token) : Walk := w.update (·.send (0 < w.calls) sender)

/-- Goes into an argument list or a condition. -/
def openList (w : Walk) : Walk := { w with blind := w.blind + 1 }

/-- Leaves an argument list or a condition. -/
def closeList (w : Walk) : Walk := { w with blind := w.blind - 1 }

/-- Goes into a call or a creation. -/
def openCall (w : Walk) : Walk := { w with calls := w.calls + 1 }

/-- Leaves a call or a creation. -/
def closeCall (w : Walk) : Walk := { w with calls := w.calls - 1 }

/-! ### Expressions -/

mutual

/-- Goes through an expression, in which the target of an invocation is a name that is used. -/
def expression (w : Walk) : Expression → Walk
  | .atom _ => w
  | .invocation target _ arguments => expressions (w.use target) arguments
  | .raw _ => w

/-- Goes through expressions in their order. -/
def expressions (w : Walk) : List Expression → Walk
  | [] => w
  | e :: rest => expressions (expression w e) rest

end

/-- Goes through the arguments of a call. -/
def arguments (w : Walk) : Option Arguments → Walk
  | none => w
  | some a => (w.openList.expressions a.expressions).closeList

/-- Goes through the guard of a branch. -/
def condition (w : Walk) : Option Condition → Walk
  | none => w
  | some c => (w.openList.expressions c.expression.toList).closeList

/-! ### Statements -/

/-- Goes through an asynchronous message. -/
def asyncMessage (w : Walk) (m : AsyncMessage) : Walk :=
  let w := if Token.isNamed m.receiver then w.send m.sender else w
  (w.use m.sender).use m.receiver

/-- Goes through a call up to its body. -/
def call (w : Walk) (c : Call) : Walk :=
  let w := if Token.isNamed c.receiver && Token.isNamed c.method then w.send c.sender else w
  ((w.use c.sender).use c.receiver).arguments c.arguments

/-- Goes through a creation up to its body. -/
def creation (w : Walk) (c : Creation) : Walk :=
  let w := if Token.isNamed c.constructor then w.send none else w
  let w := match c.constructor with
    | some t => w.note (·.mention (creationName c.assignment t.text) (.of t.span))
    | none => w
  w.arguments c.arguments

/-- Goes through a return. -/
def ret (w : Walk) (r : Return) : Walk :=
  match r.message with
  | some m => w.asyncMessage m
  | none => w.send none

/-- Goes through a reference. -/
def reference (w : Walk) (r : Reference) : Walk :=
  r.names.tail.foldl (fun w name => w.use (some name)) w

mutual

/-- Goes through a statement. -/
def statement (w : Walk) : Statement → Walk
  | .unrecognized _ _ => w
  | .recognized c _ _ => construct w c

/-- Goes through a construct. -/
def construct (w : Walk) : Construct → Walk
  | .call c body => (block (w.call c).openCall body).closeCall
  | .asyncMessage m => w.asyncMessage m
  | .creation c body => (block (w.creation c).openCall body).closeCall
  | .ret r => w.ret r
  | .divider _ => w
  | .reference r => w.reference r
  | .block _ bs _ => branches w bs

/-- Goes through a branch. -/
def branch (w : Walk) : Branch → Walk
  | .mk _ guard body => block (w.condition guard) body

/-- Goes through a block. -/
def block (w : Walk) : Block → Walk
  | .missing => w
  | .present ss _ => statements w ss

/-- Goes through statements in their order. -/
def statements (w : Walk) : List Statement → Walk
  | [] => w
  | s :: rest => statements (statement w s) rest

/-- Goes through branches in their order. -/
def branches (w : Walk) : List Branch → Walk
  | [] => w
  | b :: rest => branches (branch w b) rest

end

/-! ### Nothing is noted in lists -/

variable {w : Walk}

theorem use_of_blind (h : w.blind ≠ 0) (token : Option Token) : w.use token = w := if_neg h

mutual

/-- While a list is open, an expression leaves no trace. -/
theorem expression_of_blind (h : w.blind ≠ 0) : ∀ e, w.expression e = w
  | .atom _ => rfl
  | .invocation target _ arguments => by
    rw [expression, use_of_blind h]
    exact expressions_of_blind h arguments
  | .raw _ => rfl

theorem expressions_of_blind (h : w.blind ≠ 0) : ∀ es, w.expressions es = w
  | [] => rfl
  | e :: rest => by
    rw [expressions, expression_of_blind h e]
    exact expressions_of_blind h rest

end

/-- Behind an argument list the walk is where it was before. -/
theorem arguments_eq (w : Walk) (a : Option Arguments) : w.arguments a = w := by
  cases a with
  | none => rfl
  | some a =>
    have hinside : w.openList.expressions a.expressions = w.openList :=
      expressions_of_blind (Nat.succ_ne_zero w.blind) a.expressions
    rw [arguments, hinside]
    rfl

/-- Behind a condition the walk is where it was before. -/
theorem condition_eq (w : Walk) (c : Option Condition) : w.condition c = w := by
  cases c with
  | none => rfl
  | some c =>
    have hinside : w.openList.expressions c.expression.toList = w.openList :=
      expressions_of_blind (Nat.succ_ne_zero w.blind) c.expression.toList
    rw [condition, hinside]
    rfl

/-! ### Outside of lists the walk notes what `collect` notes -/

theorem update_sighted {f : Context → Context} (h : w.blind = 0) : (w.update f).blind = 0 := h

theorem note_of_sighted (h : w.blind = 0) (f : Context → Context) : w.note f = w.update f :=
  if_pos h

theorem use_eq (h : w.blind = 0) (token : Option Token) : w.use token = w.update (·.use token) :=
  note_of_sighted h _

theorem uses_eq (h : w.blind = 0) (sender receiver : Option Token) :
    (w.use sender).use receiver = w.update fun c => (c.use sender).use receiver := by
  rw [use_eq h]
  exact use_eq (update_sighted h) receiver

theorem sendIf_eq (w : Walk) (named : Bool) (sender : Option Token) :
    (if named then w.send sender else w) =
      w.update fun c => if named then c.send (0 < w.calls) sender else c := by
  cases named <;> rfl

theorem asyncMessage_eq (h : w.blind = 0) (m : AsyncMessage) :
    w.asyncMessage m = w.update (·.asyncMessage (0 < w.calls) m) := by
  simp only [asyncMessage, sendIf_eq, uses_eq (update_sighted h)]
  rfl

theorem call_eq (h : w.blind = 0) (c : Call) :
    w.call c = w.update (·.call (0 < w.calls) c) := by
  simp only [call, sendIf_eq, uses_eq (update_sighted h), arguments_eq]
  rfl

theorem creation_eq (h : w.blind = 0) (c : Creation) :
    w.creation c = w.update (·.creation (0 < w.calls) c) := by
  simp only [creation, Context.creation, sendIf_eq, arguments_eq]
  cases c.constructor with
  | none => rfl
  | some t => exact note_of_sighted (update_sighted h) _

theorem ret_eq (h : w.blind = 0) (r : Return) : w.ret r = w.update (·.ret (0 < w.calls) r) := by
  unfold ret Context.ret
  cases r.message with
  | none => rfl
  | some m => exact asyncMessage_eq h m

theorem reference_eq (h : w.blind = 0) (r : Reference) :
    w.reference r = w.update (·.reference r) := by
  unfold reference Context.reference
  induction r.names.tail generalizing w with
  | nil => rfl
  | cons name rest ih =>
    rw [List.foldl_cons, use_eq h, ih (update_sighted h)]
    rfl

theorem block_eq (w : Walk) (body : Block) : w.block body = w.statements body.statements := by
  cases body <;> rfl

/-- What a walk makes of a body, from what it makes of the statements in it. -/
theorem body_eq {w : Walk} {body : Block} (h : w.blind = 0)
    (hbody : ∀ w : Walk, w.blind = 0 →
      w.statements body.statements = w.update (.statements (0 < w.calls) · body.statements)) :
    (block w.openCall body).closeCall = w.update (.block true · body) := by
  rw [block_eq, hbody w.openCall h]
  simp only [Context.block_eq]
  have hopen : decide (0 < w.openCall.calls) = true := decide_eq_true (Nat.succ_pos w.calls)
  rw [hopen]
  rfl

/-- **A walk outside of lists notes what `collect` notes**, and both counters end as they were. -/
theorem walkSteps : Syntax.Steps
    (fun s => ∀ w : Walk, w.blind = 0 → w.statement s = w.update (.statement (0 < w.calls) · s))
    (fun ss => ∀ w : Walk, w.blind = 0 →
      w.statements ss = w.update (.statements (0 < w.calls) · ss))
    (fun bs => ∀ w : Walk, w.blind = 0 →
      w.branches bs = w.update (.branches (0 < w.calls) · bs)) where
  unrecognized span text w h := rfl
  call c body span text hbody w h := by
    rw [statement, construct, call_eq h, body_eq (update_sighted h) hbody]
    rfl
  creation c body span text hbody w h := by
    rw [statement, construct, creation_eq h, body_eq (update_sighted h) hbody]
    rfl
  asyncMessage m span text w h := asyncMessage_eq h m
  ret r span text w h := ret_eq h r
  divider d span text w h := rfl
  reference r span text w h := reference_eq h r
  block kind bs inner span text hbs w h := hbs w h
  nil w h := rfl
  cons s rest hs hrest w h := by
    rw [statements, hs w h, hrest _ (update_sighted h)]
    rfl
  noBranch w h := rfl
  branch role guard body rest hbody hrest w h := by
    rw [branches, branch, condition_eq, block_eq, hbody w h, hrest _ (update_sighted h)]
    simp only [Context.branches, Context.branch, Context.block_eq]
    rfl

end Walk

/-! ### Programs -/

/-- What is known before the statements: the head, and the starter from outside. -/
def headContext (program : Program) (starter : Option String) : Context :=
  let override := effectiveOverride starter
  let context := match program.head with
    | some h => Context.empty.head override.isNone h
    | none => Context.empty
  match override with
  | some name => context.start name none
  | none => context

/-- The walk over a whole program. -/
def walk (program : Program) (starter : Option String) : Walk :=
  Walk.statements ⟨headContext program starter, 0, 0⟩ program.statements

/-- **Going into every expression changes nothing**, and all that was opened is closed. -/
theorem walk_eq (program : Program) (starter : Option String) :
    walk program starter = ⟨collect program starter, 0, 0⟩ :=
  Walk.walkSteps.statements program.statements ⟨headContext program starter, 0, 0⟩ rfl

end SequenceDiagram
