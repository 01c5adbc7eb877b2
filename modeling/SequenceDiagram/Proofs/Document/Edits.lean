import SequenceDiagram.Proofs.Participant.Mentions

namespace SequenceDiagram

open Syntax

/-!
# Edits that go unseen

An `Edit` changes the parts of the statements of a program, at every depth, and keeps their form.
Whether anybody sees the difference is decided by what it does to a single part. An edit may come
before or after the choice between several readings of a text (`Statement.edit_ofCandidates`).

* `Edit.Uncollected` — collecting the participants does not see the parts change, and then it does
  not see the program change (`collect_edit`).
* `Edit.Unmentioned` — the parts keep their mentions, and with them the program its ledger
  (`ledger_edit`).
* `Edit.Unread` — the parts are read as before, and then so are all statements
  (`Frame.statements_edit`).
-/

/-! ### Edits -/

/-- What becomes of the parts of a program. -/
structure Edit where
  call : Call → Call := id
  message : AsyncMessage → AsyncMessage := id
  creation : Creation → Creation := id
  reference : Reference → Reference := id
  guard : Condition → Condition := id

namespace Syntax

/-- A return with its message edited. -/
def Return.edit (e : Edit) (r : Return) : Return := { r with message := r.message.map e.message }

mutual

/-- A statement with its parts edited; the source text stays. -/
def Statement.edit (e : Edit) : Statement → Statement
  | .unrecognized span text => .unrecognized span text
  | .recognized c span text => .recognized (c.edit e) span text

/-- A construct with its parts edited. -/
def Construct.edit (e : Edit) : Construct → Construct
  | .call c body => .call (e.call c) (body.edit e)
  | .asyncMessage m => .asyncMessage (e.message m)
  | .creation c body => .creation (e.creation c) (body.edit e)
  | .ret r => .ret (r.edit e)
  | .divider d => .divider d
  | .reference r => .reference (e.reference r)
  | .block kind bs span => .block kind (editIn e bs) span

/-- A block with the parts of its statements edited. -/
def Block.edit (e : Edit) : Block → Block
  | .missing => .missing
  | .present ss span => .present (editOf e ss) span

/-- Statements with their parts edited. -/
def editOf (e : Edit) : List Statement → List Statement
  | [] => []
  | s :: rest => s.edit e :: editOf e rest

/-- Branches with their guards and the parts of their statements edited. -/
def editIn (e : Edit) : List Branch → List Branch
  | [] => []
  | .mk role guard body :: rest => .mk role (guard.map e.guard) (body.edit e) :: editIn e rest

end

/-- A program with the parts of its statements edited; the head stays. -/
def Program.edit (e : Edit) (program : Program) : Program :=
  { program with block := program.block.edit e }

@[simp] theorem Block.statements_edit (e : Edit) (body : Block) :
    (body.edit e).statements = editOf e body.statements := by
  cases body <;> rfl

@[simp] theorem Program.statements_edit (e : Edit) (program : Program) :
    (program.edit e).statements = editOf e program.statements :=
  Block.statements_edit e program.block

theorem Construct.rank_edit (e : Edit) (c : Construct) : (c.edit e).rank = c.rank := by
  cases c <;> rfl

theorem Construct.leading_edit (e : Edit) (cs : List Construct) :
    leading? (cs.map (·.edit e)) = (leading? cs).map (·.edit e) := by
  induction cs with
  | nil => rfl
  | cons c rest ih =>
    rw [List.map_cons, leading?, leading?, ih]
    cases leading? rest with
    | none => rfl
    | some d =>
      simp only [Option.map_some, rank_edit]
      split <;> rfl

/-- Among several readings of a text, the choice does not depend on what an edit changes. -/
theorem Statement.edit_ofCandidates (e : Edit) (cs : List Construct) (span : Span)
    (text : String) :
    (ofCandidates cs span text).edit e = ofCandidates (cs.map (·.edit e)) span text := by
  unfold ofCandidates
  rw [Construct.leading_edit]
  cases Construct.leading? cs <;> rfl

end Syntax

variable {e : Edit}

/-! ### Edits that collecting does not see -/

/-- No part changes what is collected. -/
structure Edit.Uncollected (e : Edit) : Prop where
  call : ∀ inCall (context : Context) c, context.call inCall (e.call c) = context.call inCall c
  message : ∀ inCall (context : Context) m,
    context.asyncMessage inCall (e.message m) = context.asyncMessage inCall m
  creation : ∀ inCall (context : Context) c,
    context.creation inCall (e.creation c) = context.creation inCall c
  reference : ∀ (context : Context) r, context.reference (e.reference r) = context.reference r

namespace Context

theorem ret_edit (h : e.Uncollected) (inCall : Bool) (context : Context) (r : Return) :
    context.ret inCall (r.edit e) = context.ret inCall r := by
  obtain ⟨expression, message, span⟩ := r
  cases message with
  | none => rfl
  | some m => exact h.message inCall context m

theorem editSteps (h : e.Uncollected) : Syntax.Steps
    (fun s => ∀ inCall context, statement inCall context (s.edit e) = statement inCall context s)
    (fun ss => ∀ inCall context,
      statements inCall context (editOf e ss) = statements inCall context ss)
    (fun bs => ∀ inCall context,
      branches inCall context (editIn e bs) = branches inCall context bs) where
  unrecognized span text inCall context := rfl
  call c body span text hbody inCall context := by
    simp only [Statement.edit, Construct.edit, statement, construct, block_eq,
      Block.statements_edit, h.call, hbody]
  creation c body span text hbody inCall context := by
    simp only [Statement.edit, Construct.edit, statement, construct, block_eq,
      Block.statements_edit, h.creation, hbody]
  asyncMessage m span text inCall context := h.message inCall context m
  ret r span text inCall context := ret_edit h inCall context r
  divider d span text inCall context := rfl
  reference r span text inCall context := h.reference context r
  block kind bs inner span text hbs inCall context := hbs inCall context
  nil inCall context := rfl
  cons s rest hs hrest inCall context := by rw [editOf, statements, hs, hrest, statements]
  noBranch inCall context := rfl
  branch role guard body rest hbody hrest inCall context := by
    simp only [editIn, branches, branch, block_eq, Block.statements_edit, hbody, hrest]

end Context

theorem collect_edit (h : e.Uncollected) (program : Program) (starter : Option String) :
    collect (program.edit e) starter = collect program starter := by
  unfold collect
  rw [Program.statements_edit]
  exact (Context.editSteps h).statements program.statements false _

/-! ### Edits that keep the ledger -/

/-- Every part keeps its mentions. -/
structure Edit.Unmentioned (e : Edit) : Prop where
  call : ∀ c, (e.call c).mentions = c.mentions
  message : ∀ m, (e.message m).mentions = m.mentions
  creation : ∀ c, (e.creation c).mentions = c.mentions
  reference : ∀ r, (e.reference r).mentions = r.mentions

theorem Syntax.mentionSteps_edit (h : e.Unmentioned) : Syntax.Steps
    (fun s => (s.edit e).mentions = s.mentions)
    (fun ss => mentionsOf (editOf e ss) = mentionsOf ss)
    (fun bs => mentionsIn (editIn e bs) = mentionsIn bs) where
  unrecognized span text := rfl
  call c body span text hbody := by
    simp only [Statement.edit, Construct.edit, Statement.mentions, Construct.mentions,
      Block.mentions_eq, Block.statements_edit, h.call, hbody]
  creation c body span text hbody := by
    simp only [Statement.edit, Construct.edit, Statement.mentions, Construct.mentions,
      Block.mentions_eq, Block.statements_edit, h.creation, hbody]
  asyncMessage m span text := h.message m
  ret r span text := by
    obtain ⟨expression, message, retSpan⟩ := r
    cases message with
    | none => rfl
    | some m => exact congrArg (· ++ []) (h.message m)
  divider d span text := rfl
  reference r span text := h.reference r
  block kind bs inner span text hbs := hbs
  nil := rfl
  cons s rest hs hrest := by rw [editOf, mentionsOf, hs, hrest, mentionsOf]
  noBranch := rfl
  branch role guard body rest hbody hrest := by
    simp only [editIn, mentionsIn, Block.mentions_eq, Block.statements_edit, hbody, hrest]

theorem ledger_edit (h : e.Unmentioned) (program : Program) (starter : Option String) :
    (collect (program.edit e) starter).ledger = (collect program starter).ledger := by
  have hmentions : (program.edit e).mentions starter = program.mentions starter := by
    unfold Program.mentions
    rw [Program.statements_edit, (mentionSteps_edit h).statements]
    rfl
  rw [ledger_collect, ledger_collect, hmentions]

/-! ### Edits that reading does not see -/

/-- Every part is read as before, and as much can be read off it if it is rejected. -/
structure Edit.Unread (e : Edit) : Prop where
  call : ∀ (frame : Frame) id c, frame.call id (e.call c) = frame.call id c
  message : ∀ (frame : Frame) id m, frame.asyncMessage id (e.message m) = frame.asyncMessage id m
  creation : ∀ (frame : Frame) id c, frame.creation id (e.creation c) = frame.creation id c
  ret : ∀ (frame : Frame) id r, frame.ret id (Return.edit e r) = frame.ret id r
  reference : ∀ (frame : Frame) id r, frame.reference id (e.reference r) = frame.reference id r
  guard : ∀ c, (e.guard c).text = c.text
  salvage : ∀ c, Salvage.of (some (Construct.edit e c)) = Salvage.of (some c)

namespace Frame

theorem reject_edit (h : e.Unread) (frame : Frame) (id : NodeId) (s : Statement)
    (reason : Rejection) : frame.reject id (s.edit e) reason = frame.reject id s reason := by
  cases s with
  | unrecognized span text => rfl
  | recognized c span text =>
    have hsalvage := h.salvage c
    simp only [reject, Statement.edit, Statement.construct?, Statement.text, Statement.span,
      hsalvage]

theorem editSteps (h : e.Unread) : Syntax.Steps
    (fun s => ∀ frame id, statement frame id (s.edit e) = statement frame id s)
    (fun ss => ∀ frame next, statements frame next (editOf e ss) = statements frame next ss)
    (fun bs => ∀ frame next kind,
      branches frame next kind (editIn e bs) = branches frame next kind bs) where
  unrecognized span text frame id := rfl
  call c body span text hbody frame id := by
    simp only [Statement.edit, Construct.edit, statement, construct, block_eq,
      Block.statements_edit, h.call, hbody]
    cases frame.call id c with
    | error reason => exact reject_edit h frame id (.recognized (.call c body) span text) reason
    | ok m => rfl
  creation c body span text hbody frame id := by
    simp only [Statement.edit, Construct.edit, statement, construct, block_eq,
      Block.statements_edit, h.creation, hbody]
    cases frame.creation id c with
    | error reason => exact reject_edit h frame id (.recognized (.creation c body) span text) reason
    | ok m => rfl
  asyncMessage m span text frame id := by
    simp only [Statement.edit, Construct.edit, statement, construct, h.message]
    cases frame.asyncMessage id m with
    | error reason => exact reject_edit h frame id (.recognized (.asyncMessage m) span text) reason
    | ok m => rfl
  ret r span text frame id := by
    simp only [Statement.edit, Construct.edit, statement, construct, h.ret]
  divider d span text frame id := rfl
  reference r span text frame id := by
    simp only [Statement.edit, Construct.edit, statement, construct, h.reference]
  block kind bs inner span text hbs frame id := by
    simp only [Statement.edit, Construct.edit, statement, construct, hbs]
  nil frame next := rfl
  cons s rest hs hrest frame next := by simp only [editOf, statements, hs, hrest]
  noBranch frame next kind := rfl
  branch role guard body rest hbody hrest frame next kind := by
    -- a section shows the text of its guard
    have hguard : (guard.map e.guard).map (fun c => displayText (unquote c.text.text)) =
        guard.map fun c => displayText (unquote c.text.text) := by
      cases guard with
      | none => rfl
      | some c => simp only [Option.map_some, h.guard]
    simp only [editIn, branches, branch, block_eq, Block.statements_edit, hbody, hrest, hguard]

theorem statements_edit (h : e.Unread) (frame : Frame) (next : NodeId) (ss : List Statement) :
    statements frame next (editOf e ss) = statements frame next ss :=
  (editSteps h).statements ss frame next

end Frame

/-- **An edit that nobody sees leaves the document as it was.** -/
theorem interpret_edit (hcollected : e.Uncollected) (hread : e.Unread) (program : Program)
    (starter : Option String) : interpret (program.edit e) starter = interpret program starter := by
  have horigin : topOrigin (program.edit e) starter = topOrigin program starter := by
    unfold topOrigin
    rw [collect_edit hcollected]
    rfl
  unfold interpret
  simp only [Program.statements_edit, horigin, Frame.statements_edit hread]
  rfl

end SequenceDiagram
