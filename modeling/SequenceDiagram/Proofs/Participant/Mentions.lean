import Mathlib.Data.List.Nodup
import SequenceDiagram.Proofs.Participant.Collection

namespace SequenceDiagram

open Syntax

/-!
# The ledger as the sum of its mentions

The walk over a program adds one mention after the other to the ledger. The mentions themselves
depend on the program alone, and not on what was added before.

* `Program.mentions` lists the mentions of a program, in the order in which they are added.
* `Ledger.addAll` adds some mentions. `Ledger.mem_positions_addAll` says where the places of a
  record come from.
* `ledger_collect`: the ledger of a program is the sum of its mentions.
-/

/-! ### Adding mentions -/

namespace Ledger

/-- There is one record per name. -/
theorem eq_of_name_eq {ledger : Ledger} {p q : Participant} (hp : p ∈ ledger.entries)
    (hq : q ∈ ledger.entries) (h : p.name = q.name) : p = q :=
  List.inj_on_of_nodup_map ledger.nodup hp hq h

/-- The ledger after some more mentions. -/
def addAll (ledger : Ledger) (mentions : List (String × Mention)) : Ledger :=
  mentions.foldl (fun ledger x => ledger.add x.1 x.2) ledger

@[simp] theorem addAll_append (ledger : Ledger) (first others : List (String × Mention)) :
    ledger.addAll (first ++ others) = (ledger.addAll first).addAll others := List.foldl_append ..

end Ledger

/-- A place that is inserted is the only one that is new. -/
theorem mem_insertSpan {s t : Span} {spans : List Span} :
    t ∈ insertSpan s spans ↔ t = s ∨ t ∈ spans := by
  induction spans with
  | nil => simp [insertSpan]
  | cons u rest ih =>
    unfold insertSpan
    split
    · next heq => simp [heq]
    · split
      · exact List.mem_cons
      · simp only [List.mem_cons, ih]
        exact or_left_comm

namespace Ledger

/-- A merged record has the places of the record, and that of the mention. -/
theorem mem_positions_merge {p : Participant} {m : Mention} {s : Span} :
    s ∈ (p.merge m).positions ↔ m.position = some s ∨ s ∈ p.positions := by
  rw [Participant.merge]
  cases m.position with
  | none => simp
  | some t =>
    dsimp only
    rw [mem_insertSpan, Option.some.injEq, eq_comm]

/-- After one more mention, a place of a record is that of the mention, or it was there before. -/
theorem mem_positions_add {ledger : Ledger} {name : String} {m : Mention} {p : Participant}
    {s : Span} (hp : p ∈ (ledger.add name m).entries) (hs : s ∈ p.positions) :
    (p.name = name ∧ m.position = some s) ∨
      ∃ q ∈ ledger.entries, q.name = p.name ∧ s ∈ q.positions := by
  change p ∈ entriesAfter ledger.entries name m at hp
  unfold entriesAfter at hp
  split at hp
  · -- the record of the name is merged with the mention, the others stay
    obtain ⟨q, hq, heq⟩ := List.mem_map.mp hp
    by_cases hname : q.name = name
    · rw [if_pos hname] at heq
      subst heq
      rcases mem_positions_merge.mp hs with hm | hs
      · exact .inl ⟨hname, hm⟩
      · exact .inr ⟨q, hq, rfl, hs⟩
    · rw [if_neg hname] at heq
      subst heq
      exact .inr ⟨q, hq, rfl, hs⟩
  · rcases List.mem_append.mp hp with hp | hp
    · exact .inr ⟨p, hp, rfl, hs⟩
    · -- a new record has no place yet
      rw [List.mem_singleton] at hp
      subst hp
      rcases mem_positions_merge.mp hs with hm | hs
      · exact .inl ⟨rfl, hm⟩
      · cases hs

/-- **Every place of a record is that of a mention of its name**, or it was there before. -/
theorem mem_positions_addAll {ledger : Ledger} {mentions : List (String × Mention)}
    {p : Participant} {s : Span} (hp : p ∈ (ledger.addAll mentions).entries)
    (hs : s ∈ p.positions) : (∃ m, (p.name, m) ∈ mentions ∧ m.position = some s) ∨
      ∃ q ∈ ledger.entries, q.name = p.name ∧ s ∈ q.positions := by
  induction mentions generalizing ledger with
  | nil => exact .inr ⟨p, hp, rfl, hs⟩
  | cons x rest ih =>
    rcases ih hp with ⟨m, hm, hposition⟩ | ⟨q, hq, hname, hs⟩
    · exact .inl ⟨m, List.mem_cons_of_mem x hm, hposition⟩
    · rcases mem_positions_add hq hs with ⟨heq, hposition⟩ | ⟨q', hq', hname', hs'⟩
      · refine .inl ⟨x.2, ?_, hposition⟩
        rw [← hname, heq]
        exact List.mem_cons_self
      · exact .inr ⟨q', hq', hname'.trans hname, hs'⟩

end Ledger

/-! ### The mentions of a program -/

namespace Syntax

/-- The mention of a name where it is used. -/
def Token.used (token : Option Token) : List (String × Mention) :=
  (token.filter (·.text ≠ "")).toList.map fun t => (t.text, .of t.span)

/-- The mention of a declared participant. -/
def Declaration.mentions (groupId : Option String) (d : Declaration) : List (String × Mention) :=
  let text (token : Option Token) := token.map fun t => displayText t.text
  d.name.toList.map fun name =>
    (name.text,
      { explicit := true
        label := text d.label
        stereotype := text d.stereotype
        type := text d.type
        color := text d.color
        width := d.width.bind fun w => Binary32.ofText? w.text
        groupId := groupId
        position := some name.span })

/-- The mentions in an entry of the head. -/
def HeadItem.mentions : HeadItem → List (String × Mention)
  | .participant d => d.mentions none
  | .group g => g.members.flatMap (·.mentions (g.name.map (·.text)))

/-- The mentions in a head, whose starter may not count. -/
def Head.mentions (useStarter : Bool) (h : Head) : List (String × Mention) :=
  h.items.flatMap (·.mentions) ++
    ((h.starter.bind (·.name)).filter fun _ => useStarter).toList.map fun name =>
      (name.text, { isStarter := true, position := some name.span })

/-- The mentions in an asynchronous message. -/
def AsyncMessage.mentions (m : AsyncMessage) : List (String × Mention) :=
  Token.used m.sender ++ Token.used m.receiver

/-- The mentions in a call, without those in its body. -/
def Call.mentions (c : Call) : List (String × Mention) :=
  Token.used c.sender ++ Token.used c.receiver

/-- The mention of a created participant. -/
def Creation.mentions (c : Creation) : List (String × Mention) :=
  c.constructor.toList.map fun t => (creationName c.assignment t.text, .of t.span)

/-- The mentions in a reference. -/
def Reference.mentions (r : Reference) : List (String × Mention) :=
  r.names.tail.flatMap fun name => Token.used (some name)

mutual

/-- The mentions in a statement. -/
def Statement.mentions : Statement → List (String × Mention)
  | .unrecognized _ _ => []
  | .recognized c _ _ => c.mentions

/-- The mentions in a construct. -/
def Construct.mentions : Construct → List (String × Mention)
  | .call c body => c.mentions ++ body.mentions
  | .asyncMessage m => m.mentions
  | .creation c body => c.mentions ++ body.mentions
  | .ret r => r.message.toList.flatMap (·.mentions)
  | .divider _ => []
  | .reference r => r.mentions
  | .block _ bs _ => mentionsIn bs

/-- The mentions in a block. -/
def Block.mentions : Block → List (String × Mention)
  | .missing => []
  | .present ss _ => mentionsOf ss

/-- The mentions in some statements. -/
def mentionsOf : List Statement → List (String × Mention)
  | [] => []
  | s :: rest => s.mentions ++ mentionsOf rest

/-- The mentions in some branches. -/
def mentionsIn : List Branch → List (String × Mention)
  | [] => []
  | .mk _ _ body :: rest => body.mentions ++ mentionsIn rest

end

theorem Block.mentions_eq (body : Block) : body.mentions = mentionsOf body.statements := by
  cases body <;> rfl

/-- The mentions of a program; a starter from outside comes between the head and the statements. -/
def Program.mentions (program : Program) (starter : Option String) : List (String × Mention) :=
  program.head.toList.flatMap (·.mentions (effectiveOverride starter).isNone) ++
    (effectiveOverride starter).toList.map (·, { isStarter := true }) ++
    mentionsOf program.statements

end Syntax

/-! ### The ledger of a program -/

namespace Context

theorem ledger_use (context : Context) (token : Option Token) :
    (context.use token).ledger = context.ledger.addAll (Token.used token) := by
  unfold use Token.used
  cases token.filter (·.text ≠ "") <;> rfl

theorem ledger_send (context : Context) (inCall : Bool) (sender : Option Token) :
    (context.send inCall sender).ledger = context.ledger := by
  unfold send
  split <;> rfl

/-- Steps that add the mentions of some elements add those of all of them together. -/
theorem ledger_foldl {α : Type} {f : Context → α → Context} {mentions : α → List (String × Mention)}
    (h : ∀ context x, (f context x).ledger = context.ledger.addAll (mentions x)) (xs : List α)
    (context : Context) :
    (xs.foldl f context).ledger = context.ledger.addAll (xs.flatMap mentions) := by
  induction xs generalizing context with
  | nil => rfl
  | cons x rest ih => rw [List.foldl_cons, ih, h, List.flatMap_cons, Ledger.addAll_append]

theorem ledger_declare (context : Context) (groupId : Option String) (d : Declaration) :
    (context.declare groupId d).ledger = context.ledger.addAll (d.mentions groupId) := by
  unfold declare Declaration.mentions
  cases d.name <;> rfl

theorem ledger_headItem (context : Context) (item : HeadItem) :
    (context.headItem item).ledger = context.ledger.addAll item.mentions := by
  cases item with
  | participant d => exact context.ledger_declare none d
  | group g => exact ledger_foldl (fun context d => context.ledger_declare _ d) g.members context

theorem ledger_head (context : Context) (useStarter : Bool) (h : Syntax.Head) :
    (context.head useStarter h).ledger = context.ledger.addAll (h.mentions useStarter) := by
  have hitems := ledger_foldl ledger_headItem h.items context
  unfold head Syntax.Head.mentions
  rw [Ledger.addAll_append, ← hitems]
  cases (h.starter.bind (·.name)).filter fun _ => useStarter <;> rfl

theorem ledger_asyncMessage (context : Context) (inCall : Bool) (m : AsyncMessage) :
    (context.asyncMessage inCall m).ledger = context.ledger.addAll m.mentions := by
  unfold asyncMessage AsyncMessage.mentions
  rw [ledger_use, ledger_use, Ledger.addAll_append]
  split
  · rw [ledger_send]
  · rfl

theorem ledger_call (context : Context) (inCall : Bool) (c : Call) :
    (context.call inCall c).ledger = context.ledger.addAll c.mentions := by
  unfold call Call.mentions
  rw [ledger_use, ledger_use, Ledger.addAll_append]
  split
  · rw [ledger_send]
  · rfl

theorem ledger_creation (context : Context) (inCall : Bool) (c : Creation) :
    (context.creation inCall c).ledger = context.ledger.addAll c.mentions := by
  have hsend : (if Token.isNamed c.constructor then context.send inCall none else context).ledger =
      context.ledger := by
    split
    · exact context.ledger_send inCall none
    · rfl
  unfold creation Creation.mentions
  rw [← hsend]
  cases c.constructor <;> rfl

theorem ledger_ret (context : Context) (inCall : Bool) (r : Return) :
    (context.ret inCall r).ledger =
      context.ledger.addAll (r.message.toList.flatMap (·.mentions)) := by
  unfold ret
  cases r.message with
  | none => exact context.ledger_send inCall none
  | some m =>
    show (context.asyncMessage inCall m).ledger = context.ledger.addAll (m.mentions ++ [])
    rw [List.append_nil, ledger_asyncMessage]

theorem ledger_reference (context : Context) (r : Reference) :
    (context.reference r).ledger = context.ledger.addAll r.mentions :=
  ledger_foldl (fun context name => context.ledger_use (some name)) r.names.tail context

/-- **Statements add their mentions**, in their order and at every depth. -/
theorem ledgerSteps : Syntax.Steps
    (fun s => ∀ inCall context,
      (statement inCall context s).ledger = context.ledger.addAll s.mentions)
    (fun ss => ∀ inCall context,
      (statements inCall context ss).ledger = context.ledger.addAll (mentionsOf ss))
    (fun bs => ∀ inCall context,
      (branches inCall context bs).ledger = context.ledger.addAll (mentionsIn bs)) where
  unrecognized span text inCall context := rfl
  call c body span text hbody inCall context := by
    rw [statement, construct, block_eq, hbody, ledger_call, Statement.mentions, Construct.mentions,
      Block.mentions_eq, Ledger.addAll_append]
  creation c body span text hbody inCall context := by
    rw [statement, construct, block_eq, hbody, ledger_creation, Statement.mentions,
      Construct.mentions, Block.mentions_eq, Ledger.addAll_append]
  asyncMessage m span text inCall context := context.ledger_asyncMessage inCall m
  ret r span text inCall context := context.ledger_ret inCall r
  divider d span text inCall context := rfl
  reference r span text inCall context := context.ledger_reference r
  block kind bs inner span text hbs inCall context := hbs inCall context
  nil inCall context := rfl
  cons s rest hs hrest inCall context := by
    rw [statements, hrest, hs, mentionsOf, Ledger.addAll_append]
  noBranch inCall context := rfl
  branch role guard body rest hbody hrest inCall context := by
    rw [branches, branch, block_eq, hrest, hbody, mentionsIn, Block.mentions_eq,
      Ledger.addAll_append]

end Context

/-- **The ledger of a program is the sum of its mentions.** -/
theorem ledger_collect (program : Program) (starter : Option String) :
    (collect program starter).ledger = Ledger.empty.addAll (program.mentions starter) := by
  obtain ⟨head, block, span⟩ := program
  unfold collect Program.mentions
  dsimp only
  rw [Context.ledgerSteps.statements, Ledger.addAll_append, Ledger.addAll_append]
  congr 1
  generalize effectiveOverride starter = override
  -- the head comes first, and then the starter from outside
  cases head with
  | none => cases override <;> rfl
  | some h =>
    rw [Option.toList_some, List.flatMap_singleton]
    show _ = (Context.empty.ledger.addAll (h.mentions override.isNone)).addAll _
    rw [← Context.ledger_head]
    cases override <;> rfl

end SequenceDiagram
