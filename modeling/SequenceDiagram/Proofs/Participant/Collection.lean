import SequenceDiagram.Participant.Order
import SequenceDiagram.Proofs.Induction

namespace SequenceDiagram

open Syntax

/-!
# What the walk over a program collects

* `Context.Extends` says how a context grows along the walk: no name is lost, a sender that was once
  left open stays noted, and statements do not change the starter.
* `Context.extends_statements` holds for every statement, so what holds of all names at the end of
  the walk holds of those after each step.
* `mem_orderedNames` says who gets a lifeline: everyone in the ledger and the leading participant.
-/

/-! ### Names of tokens -/

/-- A token has a name exactly when it is there and its text is not empty. -/
theorem Token.text?_eq_some {token : Option Token} {name : String} :
    Token.text? token = some name ↔ ∃ t, token = some t ∧ t.text = name ∧ name ≠ "" := by
  cases token with
  | none => simp [Token.text?]
  | some t =>
    simp only [Token.text?, Option.map_some, Option.filter_eq_some_iff, Option.some.injEq,
      decide_eq_true_eq]
    constructor
    · rintro ⟨rfl, hne⟩
      exact ⟨t, rfl, rfl, hne⟩
    · rintro ⟨_, rfl, rfl, hne⟩
      exact ⟨rfl, hne⟩

theorem Token.text?_eq_none {token : Option Token} :
    Token.text? token = none ↔ ¬ Token.isNamed token := by
  cases token <;> simp [Token.text?, Token.isNamed, Option.filter]

/-- To have a text and to be named are the same. -/
theorem Token.isSome_text? {token : Option Token} :
    (Token.text? token).isSome = Token.isNamed token := by
  cases token with
  | none => rfl
  | some t => by_cases h : t.text = "" <;> simp [Token.text?, Token.isNamed, Option.filter, h]

/-! ### The ledger grows -/

namespace Ledger

theorem mem_names_add (ledger : Ledger) (name : String) (m : Mention) :
    name ∈ (ledger.add name m).names := by
  rw [names_add]
  by_cases h : name ∈ ledger.names
  · rwa [if_pos h]
  · rw [if_neg h]
    exact List.mem_append_right _ (List.mem_singleton.mpr rfl)

theorem names_subset_add (ledger : Ledger) (name : String) (m : Mention) :
    ledger.names ⊆ (ledger.add name m).names := by
  rw [names_add]
  by_cases h : name ∈ ledger.names
  · rw [if_pos h]
    exact List.Subset.refl _
  · rw [if_neg h]
    exact List.subset_append_left _ _

/-- A name is in the ledger exactly when it has a record. -/
theorem mem_names_iff (ledger : Ledger) (name : String) :
    name ∈ ledger.names ↔ ∃ p ∈ ledger.entries, p.name = name := by
  rw [names, List.mem_map]

end Ledger

/-! ### The context grows -/

namespace Context

/-- What the walk adds to a context. -/
structure Extends (before after : Context) : Prop where
  starter : after.starter = before.starter
  names : before.ledger.names ⊆ after.ledger.names
  implicitSender : before.implicitSender = true → after.implicitSender = true

namespace Extends

theorem refl (context : Context) : context.Extends context :=
  ⟨rfl, List.Subset.refl _, id⟩

theorem trans {first second third : Context} (h : first.Extends second)
    (h' : second.Extends third) : first.Extends third :=
  ⟨h'.starter.trans h.starter, List.Subset.trans h.names h'.names,
    fun hs => h'.implicitSender (h.implicitSender hs)⟩

end Extends

theorem extends_mention (context : Context) (name : String) (m : Mention) :
    context.Extends (context.mention name m) :=
  ⟨rfl, context.ledger.names_subset_add name m, id⟩

theorem extends_use (context : Context) (token : Option Token) :
    context.Extends (context.use token) := by
  unfold use
  split
  · exact context.extends_mention _ _
  · exact .refl context

/-- A name that is used is in the ledger. -/
theorem mem_names_use (context : Context) {token : Option Token} {name : String}
    (h : Token.text? token = some name) : name ∈ (context.use token).ledger.names := by
  obtain ⟨t, rfl, rfl, hne⟩ := Token.text?_eq_some.mp h
  have huse : context.use (some t) = context.mention t.text (.of t.span) := by
    simp [use, Option.filter, hne]
  rw [huse]
  exact context.ledger.mem_names_add _ _

theorem extends_send (context : Context) (inCall : Bool) (sender : Option Token) :
    context.Extends (context.send inCall sender) := by
  unfold send
  split
  · exact ⟨rfl, List.Subset.refl _, fun _ => rfl⟩
  · exact .refl context

theorem extends_asyncMessage (context : Context) (inCall : Bool) (m : AsyncMessage) :
    context.Extends (context.asyncMessage inCall m) := by
  -- the sender may be noted as left open, then both names are used
  have hsend : context.Extends
      (if Token.isNamed m.receiver then context.send inCall m.sender else context) := by
    split
    · exact context.extends_send inCall m.sender
    · exact .refl context
  exact (hsend.trans (extends_use _ m.sender)).trans (extends_use _ m.receiver)

theorem extends_call (context : Context) (inCall : Bool) (c : Call) :
    context.Extends (context.call inCall c) := by
  have hsend : context.Extends
      (if Token.isNamed c.receiver && Token.isNamed c.method then context.send inCall c.sender
      else context) := by
    split
    · exact context.extends_send inCall c.sender
    · exact .refl context
  exact (hsend.trans (extends_use _ c.sender)).trans (extends_use _ c.receiver)

theorem extends_creation (context : Context) (inCall : Bool) (c : Creation) :
    context.Extends (context.creation inCall c) := by
  have hsend : context.Extends
      (if Token.isNamed c.constructor then context.send inCall none else context) := by
    split
    · exact context.extends_send inCall none
    · exact .refl context
  obtain ⟨assignment, constructor, arguments, span⟩ := c
  cases constructor with
  | none => exact hsend
  | some t => exact hsend.trans (extends_mention _ _ _)

theorem extends_ret (context : Context) (inCall : Bool) (r : Return) :
    context.Extends (context.ret inCall r) := by
  unfold ret
  split
  · exact context.extends_asyncMessage inCall _
  · exact context.extends_send inCall none

/-- Every name that a reference covers is used. -/
theorem extends_useAll (context : Context) (names : List Token) :
    context.Extends (names.foldl (fun context name => context.use (some name)) context) := by
  induction names generalizing context with
  | nil => exact .refl context
  | cons name rest ih => exact (context.extends_use (some name)).trans (ih _)

theorem extends_reference (context : Context) (r : Reference) :
    context.Extends (context.reference r) := context.extends_useAll r.names.tail

/-- A block is noted like the statements in it. -/
theorem block_eq (inCall : Bool) (context : Context) (body : Block) :
    block inCall context body = statements inCall context body.statements := by
  cases body <;> rfl

/-- No statement takes anything out of a context. -/
theorem extendSteps : Syntax.Steps
    (fun s => ∀ inCall context, Extends context (statement inCall context s))
    (fun ss => ∀ inCall context, Extends context (statements inCall context ss))
    (fun bs => ∀ inCall context, Extends context (branches inCall context bs)) where
  unrecognized span text inCall context := .refl context
  call c body span text hbody inCall context := by
    rw [statement, construct, block_eq]
    exact (context.extends_call inCall c).trans (hbody _ _)
  creation c body span text hbody inCall context := by
    rw [statement, construct, block_eq]
    exact (context.extends_creation inCall c).trans (hbody _ _)
  asyncMessage m span text inCall context := context.extends_asyncMessage inCall m
  ret r span text inCall context := context.extends_ret inCall r
  divider d span text inCall context := .refl context
  reference r span text inCall context := context.extends_reference r
  block kind bs inner span text hbs inCall context := hbs inCall context
  nil inCall context := .refl context
  cons s rest hs hrest inCall context := (hs inCall context).trans (hrest _ _)
  noBranch inCall context := .refl context
  branch role guard body rest hbody hrest inCall context := by
    rw [branches, branch, block_eq]
    exact (hbody _ _).trans (hrest _ _)

theorem extends_statements (inCall : Bool) (context : Context) (ss : List Statement) :
    context.Extends (statements inCall context ss) :=
  extendSteps.statements ss inCall context

/-! ### Names that the statements use -/

theorem mem_names_asyncMessage (context : Context) (inCall : Bool) {m : AsyncMessage}
    {name : String} (h : Token.text? m.sender = some name ∨ Token.text? m.receiver = some name) :
    name ∈ (context.asyncMessage inCall m).ledger.names := by
  rcases h with h | h
  · exact (extends_use _ m.receiver).names (mem_names_use _ h)
  · exact mem_names_use _ h

theorem mem_names_call (context : Context) (inCall : Bool) {c : Call} {name : String}
    (h : Token.text? c.sender = some name ∨ Token.text? c.receiver = some name) :
    name ∈ (context.call inCall c).ledger.names := by
  rcases h with h | h
  · exact (extends_use _ c.receiver).names (mem_names_use _ h)
  · exact mem_names_use _ h

theorem mem_names_creation (context : Context) (inCall : Bool) {c : Creation}
    {constructor : String} (h : Token.text? c.constructor = some constructor) :
    creationName c.assignment constructor ∈ (context.creation inCall c).ledger.names := by
  obtain ⟨t, ht, rfl, _⟩ := Token.text?_eq_some.mp h
  unfold creation
  rw [ht]
  exact Ledger.mem_names_add _ _ _

theorem mem_names_useAll (context : Context) {names : List Token} {name : Token}
    (hmem : name ∈ names) (hne : name.text ≠ "") :
    name.text ∈
      (names.foldl (fun context name => context.use (some name)) context).ledger.names := by
  induction names generalizing context with
  | nil => cases hmem
  | cons first rest ih =>
    rcases List.mem_cons.mp hmem with rfl | hmem
    · -- the rest of the names takes nothing out
      have huse : name.text ∈ (context.use (some name)).ledger.names :=
        context.mem_names_use (Token.text?_eq_some.mpr ⟨name, rfl, rfl, hne⟩)
      exact (extends_useAll _ rest).names huse
    · exact ih _ hmem

end Context

/-! ### Before the statements -/

namespace Context

theorem extends_declare (context : Context) (groupId : Option String) (d : Declaration) :
    context.Extends (context.declare groupId d) := by
  unfold declare
  split
  · exact .refl context
  · exact context.extends_mention _ _

theorem extends_headItem (context : Context) (item : HeadItem) :
    context.Extends (context.headItem item) := by
  cases item with
  | participant d => exact context.extends_declare none d
  | group g =>
    show context.Extends (g.members.foldl (·.declare (g.name.map (·.text))) context)
    induction g.members generalizing context with
    | nil => exact .refl context
    | cons d rest ih => exact (context.extends_declare _ d).trans (ih _)

/-- Declarations leave the starter alone. -/
theorem extends_headItems (context : Context) (items : List HeadItem) :
    context.Extends (items.foldl headItem context) := by
  induction items generalizing context with
  | nil => exact .refl context
  | cons item rest ih => exact (context.extends_headItem item).trans (ih _)

/-- The head gives the declared starter, if it is to count. -/
theorem starter_head (useStarter : Bool) (h : Syntax.Head) :
    (empty.head useStarter h).starter =
      ((h.starter.bind (·.name)).filter fun _ => useStarter).map (·.text) := by
  unfold head
  cases (h.starter.bind (·.name)).filter fun _ => useStarter with
  | none => exact (empty.extends_headItems h.items).starter
  | some name => rfl

/-- A starter that the head gives has a record. -/
theorem mem_names_head (useStarter : Bool) (h : Syntax.Head) {name : String}
    (hname : (empty.head useStarter h).starter = some name) :
    name ∈ (empty.head useStarter h).ledger.names := by
  rw [starter_head] at hname
  obtain ⟨token, htoken, rfl⟩ := Option.map_eq_some_iff.mp hname
  unfold head
  rw [htoken]
  exact Ledger.mem_names_add _ _ _

end Context

/-- The walk over the statements starts with the effective starter, which has a record. -/
theorem collect_eq (program : Program) (starter : Option String) :
    ∃ context : Context, collect program starter = context.statements false program.statements ∧
      context.starter = (effectiveOverride starter).or (program.declaredStarter?.map (·.text)) ∧
      ∀ name, context.starter = some name → name ∈ context.ledger.names := by
  obtain ⟨h, block, span⟩ := program
  refine ⟨_, rfl, ?_⟩
  unfold Program.declaredStarter?
  cases effectiveOverride starter with
  | some name =>
    -- the override is noted after the head, whose own starter does not count
    refine ⟨rfl, ?_⟩
    rintro _ ⟨⟩
    exact Ledger.mem_names_add _ _ _
  | none =>
    cases h with
    | none => exact ⟨rfl, fun _ h => nomatch h⟩
    | some h =>
      refine ⟨?_, fun name => Context.mem_names_head true h⟩
      show (Context.empty.head true h).starter = _
      rw [Context.starter_head, Option.none_or]
      show _ = (h.starter.bind (·.name)).map (·.text)
      cases h.starter.bind (·.name) <;> rfl

/-- The statements do not change who starts. -/
theorem starter_collect (program : Program) (starter : Option String) :
    (collect program starter).starter =
      (effectiveOverride starter).or (program.declaredStarter?.map (·.text)) := by
  obtain ⟨context, hcollect, hstarter, _⟩ := collect_eq program starter
  rw [hcollect, (context.extends_statements false _).starter, hstarter]

/-- Who starts has a record. -/
theorem mem_names_collect {program : Program} {starter : Option String} {name : String}
    (h : (collect program starter).starter = some name) :
    name ∈ (collect program starter).ledger.names := by
  obtain ⟨context, hcollect, _, hnames⟩ := collect_eq program starter
  have hextends : context.Extends (collect program starter) := by
    rw [hcollect]
    exact context.extends_statements false _
  rw [hextends.starter] at h
  exact hextends.names (hnames name h)

/-! ### Lifelines -/

/-- Everyone in the ledger and the leading participant get a lifeline, and nobody else does. -/
theorem mem_orderedNames {context : Context} {name : String} :
    name ∈ orderedNames context ↔
      leadingName? context = some name ∨ name ∈ context.ledger.names := by
  -- those that are declared and those that are not make up the whole ledger
  have hdeclared : name ∈ (context.ledger.entries.filter (·.explicit) ++
      context.ledger.entries.filter (!·.explicit)).map (·.name) ↔ name ∈ context.ledger.names := by
    rw [List.mem_map, Ledger.mem_names_iff]
    refine exists_congr fun p => and_congr_left fun _ => ?_
    rw [List.mem_append, List.mem_filter, List.mem_filter]
    cases p.explicit <;> simp
  unfold orderedNames
  rw [List.mem_append, List.mem_filter, hdeclared, Option.mem_toList]
  by_cases hlead : leadingName? context = some name
  · simp [hlead]
  · simp [hlead, Ne.symm hlead]

theorem map_fst_withLeft (left : String) (names : List String) :
    (withLeft left names).map Prod.fst = names := by
  induction names generalizing left with
  | nil => rfl
  | cons name rest ih => rw [withLeft, List.map_cons, ih]

/-- The lifelines stand in the order of their names. -/
theorem map_name_orderParticipants (context : Context) :
    (orderParticipants context).map (·.name) = orderedNames context := by
  rw [orderParticipants, List.map_map]
  exact map_fst_withLeft "" (orderedNames context)

theorem orderParticipants_eq_nil_iff (context : Context) :
    orderParticipants context = [] ↔ orderedNames context = [] := by
  rw [← map_name_orderParticipants, List.map_eq_nil_iff]

end SequenceDiagram
