import Mathlib.Data.List.Forall2
import SequenceDiagram.Proofs.Induction
import SequenceDiagram.Text.Display

namespace SequenceDiagram

open Syntax

/-!
# Programs that are alike

Two programs are alike if they have the same form and the same names, their statements stand on the
same lines and in the same columns, and all texts that are only displayed look the same.

* `SameText` and `SameDisplay` compare single tokens.
* `Statement.Alike t` and `Program.Alike t` compare trees. The relation `t` says how near the texts
  of guards and arguments must be to each other, since these can go over several lines.
* `Program.parenthesized` lists those texts. They are related by `t` one by one, and
  `Program.Alike.of_parenthesized` replaces this relation between them by another.
* `LooksLike` holds of texts that no layout can tell apart.
-/

/-! ### Tokens and places -/

/-- Two values that may be missing are missing together. -/
theorem rel_cases {α β : Type} {r : α → β → Prop} {a : Option α} {b : Option β}
    (h : Option.Rel r a b) :
    a = none ∧ b = none ∨ ∃ x y, a = some x ∧ b = some y ∧ r x y := by
  cases h with
  | none => exact .inl ⟨rfl, rfl⟩
  | some h => exact .inr ⟨_, _, rfl, rfl, h⟩

/-- Two tokens have the same text, or both are missing. -/
def SameText (s t : Option Token) : Prop := s.map (·.text) = t.map (·.text)

/-- Two tokens are displayed in the same way, or both are missing. -/
def SameDisplay (s t : Option Token) : Prop :=
  s.map (displayText ·.text) = t.map (displayText ·.text)

theorem SameText.sameDisplay {s t : Option Token} (h : SameText s t) : SameDisplay s t := by
  have hdisplay := congrArg (Option.map displayText) h
  rw [Option.map_map, Option.map_map] at hdisplay
  exact hdisplay

/-- Tokens with the same text are missing together. -/
theorem SameText.cases {s t : Option Token} (h : SameText s t) :
    s = none ∧ t = none ∨ ∃ a b, s = some a ∧ t = some b ∧ a.text = b.text := by
  cases s <;> cases t
  · exact .inl ⟨rfl, rfl⟩
  · cases h
  · cases h
  · exact .inr ⟨_, _, rfl, rfl, Option.some.inj h⟩

/-- Two spans start on the same line and in the same column. -/
def Span.SamePlace (s t : Span) : Prop := s.line = t.line ∧ s.column = t.column

/-- A layout cannot tell the two texts apart: not as a text of its own, not without quotes, and not
    in the parentheses behind a method. -/
structure LooksLike (a b : String) : Prop where
  alone : displayText a = displayText b
  unquoted : displayText (unquote a) = displayText (unquote b)
  asArguments : ∀ method, displayText (method ++ "(" ++ a ++ ")") =
    displayText (method ++ "(" ++ b ++ ")")

theorem LooksLike.refl (a : String) : LooksLike a a := ⟨rfl, rfl, fun _ => rfl⟩

namespace Syntax

/-! ### The head -/

structure Declaration.Alike (d e : Declaration) : Prop where
  name : SameText d.name e.name
  type : SameText d.type e.type
  stereotype : SameDisplay d.stereotype e.stereotype
  label : SameText d.label e.label
  color : SameText d.color e.color
  width : SameText d.width e.width

structure Group.Alike (g h : Group) : Prop where
  name : SameText g.name h.name
  members : List.Forall₂ Declaration.Alike g.members h.members

inductive HeadItem.Alike : HeadItem → HeadItem → Prop where
  | participant {d e : Declaration} (h : d.Alike e) : Alike (.participant d) (.participant e)
  | group {g h : Group} (hgroup : g.Alike h) : Alike (.group g) (.group h)

def Starter.Alike (s t : Starter) : Prop := SameText s.name t.name

structure Head.Alike (g h : Head) : Prop where
  items : List.Forall₂ HeadItem.Alike g.items h.items
  starter : Option.Rel Starter.Alike g.starter h.starter

theorem Head.Alike.starterName {g h : Head} (hgh : g.Alike h) :
    SameText (g.starter.bind (·.name)) (h.starter.bind (·.name)) := by
  rcases rel_cases hgh.starter with ⟨hg, hh⟩ | ⟨x, y, hg, hh, hxy⟩
  · rw [hg, hh]
    rfl
  · rw [hg, hh]
    exact hxy

/-! ### Constructs without inner blocks -/

structure Assignment.Alike (a b : Assignment) : Prop where
  assignee : SameText a.assignee b.assignee
  type : SameText a.type b.type

structure AsyncMessage.Alike (m n : AsyncMessage) : Prop where
  sender : SameText m.sender n.sender
  receiver : SameText m.receiver n.receiver
  content : SameDisplay m.content n.content

structure Return.Alike (r s : Return) : Prop where
  expression : SameDisplay r.expression s.expression
  message : Option.Rel AsyncMessage.Alike r.message s.message

section Trees

variable (t : String → String → Prop)

def Arguments.Alike (a b : Arguments) : Prop := t a.text b.text

def Condition.Alike (a b : Condition) : Prop := t a.text.text b.text.text

structure Call.Alike (c d : Call) : Prop where
  sender : SameText c.sender d.sender
  receiver : SameText c.receiver d.receiver
  method : SameText c.method d.method
  arguments : Option.Rel (Arguments.Alike t) c.arguments d.arguments
  assignment : Option.Rel Assignment.Alike c.assignment d.assignment

structure Creation.Alike (c d : Creation) : Prop where
  assignment : Option.Rel Assignment.Alike c.assignment d.assignment
  constructor : SameText c.constructor d.constructor
  arguments : Option.Rel (Arguments.Alike t) c.arguments d.arguments

/-! ### Statements -/

/-- Where a construct stands. -/
def Construct.span : Construct → Span
  | .call c _ => c.span
  | .asyncMessage m => m.span
  | .creation c _ => c.span
  | .ret r => r.span
  | .divider d => d.span
  | .reference r => r.span
  | .block _ _ span => span

mutual

/-- Two constructs are alike. -/
inductive Construct.Alike : Construct → Construct → Prop where
  | call {c d : Call} {body other : Block} (h : c.Alike t d) (hbody : Block.Alike body other) :
    Construct.Alike (.call c body) (.call d other)
  | asyncMessage {m n : AsyncMessage} (h : m.Alike n) :
    Construct.Alike (.asyncMessage m) (.asyncMessage n)
  | creation {c d : Creation} {body other : Block} (h : c.Alike t d)
    (hbody : Block.Alike body other) : Construct.Alike (.creation c body) (.creation d other)
  | ret {r s : Return} (h : r.Alike s) : Construct.Alike (.ret r) (.ret s)
  | divider {d e : Divider} (h : SameDisplay d.note e.note) :
    Construct.Alike (.divider d) (.divider e)
  | reference {r s : Reference} (h : r.names.map (·.text) = s.names.map (·.text)) :
    Construct.Alike (.reference r) (.reference s)
  | block {kind : BlockKind} {bs cs : List Branch} {span other : Span} (h : Branches.Alike bs cs) :
    Construct.Alike (.block kind bs span) (.block kind cs other)

/-- Two statements are alike, and so are their places. -/
inductive Statement.Alike : Statement → Statement → Prop where
  | unrecognized {span other : Span} {text text' : String} (hspan : span.SamePlace other) :
    Statement.Alike (.unrecognized span text) (.unrecognized other text')
  | recognized {c d : Construct} {span other : Span} {text text' : String}
    (h : Construct.Alike c d) (hconstruct : c.span.SamePlace d.span)
    (hspan : span.SamePlace other) :
    Statement.Alike (.recognized c span text) (.recognized d other text')

/-- Two blocks are alike. -/
inductive Block.Alike : Block → Block → Prop where
  | missing : Block.Alike .missing .missing
  | present {ss ts : List Statement} {span other : Span} (h : Statements.Alike ss ts) :
    Block.Alike (.present ss span) (.present ts other)

/-- The statements of two lists are alike, one by one. -/
inductive Statements.Alike : List Statement → List Statement → Prop where
  | nil : Statements.Alike [] []
  | cons {s u : Statement} {ss us : List Statement} (h : Statement.Alike s u)
    (hrest : Statements.Alike ss us) : Statements.Alike (s :: ss) (u :: us)

/-- The branches of two lists are alike, one by one. -/
inductive Branches.Alike : List Branch → List Branch → Prop where
  | nil : Branches.Alike [] []
  | cons {role : BranchRole} {guard other : Option Condition} {body inner : Block}
    {bs cs : List Branch} (hguard : Option.Rel (Condition.Alike t) guard other)
    (hbody : Block.Alike body inner) (hrest : Branches.Alike bs cs) :
    Branches.Alike (.mk role guard body :: bs) (.mk role other inner :: cs)

end

variable {t} in
theorem Block.Alike.statements {b c : Block} (h : b.Alike t c) :
    Statements.Alike t b.statements c.statements := by
  cases h with
  | missing => exact .nil
  | present h => exact h

variable {t} in
theorem Block.Alike.isPresent {b c : Block} (h : b.Alike t c) : b.isPresent = c.isPresent := by
  cases h <;> rfl

variable {t} in
theorem Branches.Alike.append {bs cs bs' cs' : List Branch} (h : Branches.Alike t bs cs)
    (h' : Branches.Alike t bs' cs') : Branches.Alike t (bs ++ bs') (cs ++ cs') := by
  induction bs generalizing cs with
  | nil =>
    cases h
    exact h'
  | cons b bs ih =>
    cases h with
    | cons hguard hbody hrest => exact .cons hguard hbody (ih hrest)

/-- Two programs are alike. -/
structure Program.Alike (p q : Program) : Prop where
  head : Option.Rel Head.Alike p.head q.head
  statements : Statements.Alike t p.statements q.statements

end Trees

/-! ### The texts in parentheses -/

mutual

/-- The texts of the arguments and the guards in a statement, in their order. -/
def Statement.parenthesized : Statement → List String
  | .unrecognized _ _ => []
  | .recognized c _ _ => c.parenthesized

/-- The texts of the arguments and the guards in a construct. -/
def Construct.parenthesized : Construct → List String
  | .call c body => c.arguments.toList.map (·.text) ++ body.parenthesized
  | .creation c body => c.arguments.toList.map (·.text) ++ body.parenthesized
  | .block _ bs _ => parenthesizedIn bs
  | .asyncMessage _ => []
  | .ret _ => []
  | .divider _ => []
  | .reference _ => []

/-- The texts of the arguments and the guards in a block. -/
def Block.parenthesized : Block → List String
  | .missing => []
  | .present ss _ => parenthesizedOf ss

/-- The texts of the arguments and the guards in some statements. -/
def parenthesizedOf : List Statement → List String
  | [] => []
  | s :: rest => s.parenthesized ++ parenthesizedOf rest

/-- The texts of the guards of some branches, and of what is inside them. -/
def parenthesizedIn : List Branch → List String
  | [] => []
  | .mk _ guard body :: rest =>
    guard.toList.map (·.text.text) ++ (body.parenthesized ++ parenthesizedIn rest)

end

theorem Block.parenthesized_eq (b : Block) : b.parenthesized = parenthesizedOf b.statements := by
  cases b <;> rfl

/-- The texts of all arguments and guards of a program, in their order. -/
def Program.parenthesized (p : Program) : List String := parenthesizedOf p.statements

section Texts

variable {t : String → String → Prop}

/-- The texts of two values that may be missing. -/
theorem forall₂_of_rel {α : Type} {text : α → String} {a b : Option α}
    (h : Option.Rel (fun x y => t (text x) (text y)) a b) :
    List.Forall₂ t (a.toList.map text) (b.toList.map text) := by
  cases h with
  | none => exact .nil
  | some h => exact .cons h .nil

/-- The texts in parentheses are related one by one. -/
theorem forall₂Steps : Steps
    (fun s => ∀ u, Statement.Alike t s u → List.Forall₂ t s.parenthesized u.parenthesized)
    (fun ss => ∀ us, Statements.Alike t ss us →
      List.Forall₂ t (parenthesizedOf ss) (parenthesizedOf us))
    (fun bs => ∀ cs, Branches.Alike t bs cs →
      List.Forall₂ t (parenthesizedIn bs) (parenthesizedIn cs)) where
  unrecognized span text u h := by
    cases h
    exact .nil
  call c body span text hbody u h := by
    cases h with
    | recognized h =>
      cases h with
      | call h hinner =>
        simp only [Statement.parenthesized, Construct.parenthesized, Block.parenthesized_eq]
        exact List.rel_append (forall₂_of_rel h.arguments) (hbody _ hinner.statements)
  creation c body span text hbody u h := by
    cases h with
    | recognized h =>
      cases h with
      | creation h hinner =>
        simp only [Statement.parenthesized, Construct.parenthesized, Block.parenthesized_eq]
        exact List.rel_append (forall₂_of_rel h.arguments) (hbody _ hinner.statements)
  asyncMessage m span text u h := by
    cases h with
    | recognized h =>
      cases h
      exact .nil
  ret r span text u h := by
    cases h with
    | recognized h =>
      cases h
      exact .nil
  divider d span text u h := by
    cases h with
    | recognized h =>
      cases h
      exact .nil
  reference r span text u h := by
    cases h with
    | recognized h =>
      cases h
      exact .nil
  block kind bs inner span text hbs u h := by
    cases h with
    | recognized h =>
      cases h with
      | block h => exact hbs _ h
  nil us h := by
    cases h
    exact .nil
  cons s rest hs hrest us h := by
    cases h with
    | cons h hothers => exact List.rel_append (hs _ h) (hrest _ hothers)
  noBranch cs h := by
    cases h
    exact .nil
  branch role guard body rest hbody hrest cs h := by
    cases h with
    | cons hguard hinner hothers =>
      simp only [parenthesizedIn, Block.parenthesized_eq]
      exact List.rel_append (forall₂_of_rel hguard)
        (List.rel_append (hbody _ hinner.statements) (hrest _ hothers))

/-- The texts in parentheses of programs that are alike are related one by one. -/
theorem Program.Alike.parenthesized {p q : Program} (h : p.Alike t q) :
    List.Forall₂ t p.parenthesized q.parenthesized :=
  forall₂Steps.statements _ _ h.statements

end Texts

section Replace

variable {t r : String → String → Prop}

/-- A text that may be missing, in front of others. -/
theorem rel_of_forall₂ {α : Type} {text : α → String} {a b : Option α} {xs ys : List String}
    (h : Option.Rel (fun x y => t (text x) (text y)) a b)
    (hall : List.Forall₂ r (a.toList.map text ++ xs) (b.toList.map text ++ ys)) :
    Option.Rel (fun x y => r (text x) (text y)) a b ∧ List.Forall₂ r xs ys := by
  cases h with
  | none => exact ⟨.none, hall⟩
  | some h =>
    obtain ⟨hfirst, hrest⟩ := List.forall₂_cons.mp hall
    exact ⟨.some hfirst, hrest⟩

theorem Block.Alike.of_statements {b c : Block} (h : Block.Alike t b c)
    (hs : Statements.Alike r b.statements c.statements) : Block.Alike r b c := by
  cases h with
  | missing => exact .missing
  | present _ => exact .present hs

/-- Whatever comes behind the texts of a statement stays as it was. -/
theorem parenthesizedSteps : Steps
    (fun s => ∀ u xs ys, Statement.Alike t s u →
      List.Forall₂ r (s.parenthesized ++ xs) (u.parenthesized ++ ys) →
      Statement.Alike r s u ∧ List.Forall₂ r xs ys)
    (fun ss => ∀ us xs ys, Statements.Alike t ss us →
      List.Forall₂ r (parenthesizedOf ss ++ xs) (parenthesizedOf us ++ ys) →
      Statements.Alike r ss us ∧ List.Forall₂ r xs ys)
    (fun bs => ∀ cs xs ys, Branches.Alike t bs cs →
      List.Forall₂ r (parenthesizedIn bs ++ xs) (parenthesizedIn cs ++ ys) →
      Branches.Alike r bs cs ∧ List.Forall₂ r xs ys) where
  unrecognized span text u xs ys h hall := by
    cases h with
    | unrecognized hspan => exact ⟨.unrecognized hspan, hall⟩
  call c body span text hbody u xs ys h hall := by
    cases h with
    | recognized h hconstruct hspan =>
      cases h with
      | call h hinner =>
        simp only [Statement.parenthesized, Construct.parenthesized, Block.parenthesized_eq,
          List.append_assoc] at hall
        obtain ⟨harguments, hall⟩ := rel_of_forall₂ h.arguments hall
        obtain ⟨hs, hall⟩ := hbody _ _ _ hinner.statements hall
        exact ⟨.recognized (.call { h with arguments := harguments } (hinner.of_statements hs))
          hconstruct hspan, hall⟩
  creation c body span text hbody u xs ys h hall := by
    cases h with
    | recognized h hconstruct hspan =>
      cases h with
      | creation h hinner =>
        simp only [Statement.parenthesized, Construct.parenthesized, Block.parenthesized_eq,
          List.append_assoc] at hall
        obtain ⟨harguments, hall⟩ := rel_of_forall₂ h.arguments hall
        obtain ⟨hs, hall⟩ := hbody _ _ _ hinner.statements hall
        exact ⟨.recognized (.creation { h with arguments := harguments }
          (hinner.of_statements hs)) hconstruct hspan, hall⟩
  asyncMessage m span text u xs ys h hall := by
    cases h with
    | recognized h hconstruct hspan =>
      cases h with
      | asyncMessage h => exact ⟨.recognized (.asyncMessage h) hconstruct hspan, hall⟩
  ret m span text u xs ys h hall := by
    cases h with
    | recognized h hconstruct hspan =>
      cases h with
      | ret h => exact ⟨.recognized (.ret h) hconstruct hspan, hall⟩
  divider d span text u xs ys h hall := by
    cases h with
    | recognized h hconstruct hspan =>
      cases h with
      | divider h => exact ⟨.recognized (.divider h) hconstruct hspan, hall⟩
  reference m span text u xs ys h hall := by
    cases h with
    | recognized h hconstruct hspan =>
      cases h with
      | reference h => exact ⟨.recognized (.reference h) hconstruct hspan, hall⟩
  block kind bs inner span text hbs u xs ys h hall := by
    cases h with
    | recognized h hconstruct hspan =>
      cases h with
      | block h =>
        obtain ⟨hs, hall⟩ := hbs _ _ _ h hall
        exact ⟨.recognized (.block hs) hconstruct hspan, hall⟩
  nil us xs ys h hall := by
    cases h
    exact ⟨.nil, hall⟩
  cons s rest hs hrest us xs ys h hall := by
    cases h with
    | cons h hothers =>
      simp only [parenthesizedOf, List.append_assoc] at hall
      obtain ⟨hfirst, hall⟩ := hs _ _ _ h hall
      obtain ⟨hothers, hall⟩ := hrest _ _ _ hothers hall
      exact ⟨.cons hfirst hothers, hall⟩
  noBranch cs xs ys h hall := by
    cases h
    exact ⟨.nil, hall⟩
  branch role guard body rest hbody hrest cs xs ys h hall := by
    cases h with
    | cons hguard hinner hothers =>
      simp only [parenthesizedIn, Block.parenthesized_eq, List.append_assoc] at hall
      obtain ⟨hguard, hall⟩ := rel_of_forall₂ hguard hall
      obtain ⟨hs, hall⟩ := hbody _ _ _ hinner.statements hall
      obtain ⟨hothers, hall⟩ := hrest _ _ _ hothers hall
      exact ⟨.cons hguard (hinner.of_statements hs) hothers, hall⟩

/-- Of programs that are alike, the texts in parentheses may be compared on their own. -/
theorem Program.Alike.of_parenthesized {p q : Program} (h : p.Alike t q)
    (htexts : List.Forall₂ r p.parenthesized q.parenthesized) : p.Alike r q where
  head := h.head
  statements := by
    rw [← List.append_nil p.parenthesized, ← List.append_nil q.parenthesized] at htexts
    exact (parenthesizedSteps.statements _ _ _ _ h.statements htexts).1

end Replace

end Syntax

end SequenceDiagram
