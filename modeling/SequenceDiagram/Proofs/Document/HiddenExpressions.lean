import SequenceDiagram.Proofs.Document.Edits
import SequenceDiagram.Proofs.Participant.Blindness

namespace SequenceDiagram

open Syntax

/-!
# Expressions are hidden

Neither the participants nor the document of a program depend on what its arguments and guards
were parsed into: a document shows their texts only.

* `Edit.dropExpressions` takes every expression out of a program and keeps all else, and neither
  collecting nor reading sees it.
* `expressions_are_hidden` compares two programs that differ in their expressions only.
-/

/-! ### Programs without their expressions -/

namespace Syntax

/-- Arguments of which only the text is left. -/
def Arguments.withoutExpressions (a : Arguments) : Arguments := { a with expressions := [] }

/-- A condition of which only the text is left. -/
def Condition.withoutExpressions (c : Condition) : Condition := { c with expression := none }

/-- A call of whose arguments only the text is left. -/
def Call.withoutExpressions (c : Call) : Call :=
  { c with arguments := c.arguments.map (·.withoutExpressions) }

/-- A creation of whose arguments only the text is left. -/
def Creation.withoutExpressions (c : Creation) : Creation :=
  { c with arguments := c.arguments.map (·.withoutExpressions) }

end Syntax

namespace Edit

/-- Drops the expressions. -/
def dropExpressions : Edit where
  call := Call.withoutExpressions
  creation := Creation.withoutExpressions
  guard := Condition.withoutExpressions

/-- Only the names of calls and creations are collected. -/
theorem dropExpressions_uncollected : dropExpressions.Uncollected where
  call _ _ _ := rfl
  message _ _ _ := rfl
  creation _ _ _ := rfl
  reference _ _ := rfl

/-- The signature of a call is made of the text of its arguments. -/
theorem callSignature_withoutExpressions (c : Call) :
    callSignature c.withoutExpressions = callSignature c := by
  obtain ⟨sender, receiver, method, arguments, assignment, span⟩ := c
  cases arguments <;> rfl

/-- Only the texts of arguments and guards are shown. -/
theorem dropExpressions_unread : dropExpressions.Unread where
  call frame id c := by
    show frame.call id c.withoutExpressions = frame.call id c
    unfold Frame.call
    rw [callSignature_withoutExpressions]
    rfl
  message _ _ _ := rfl
  creation frame id c := by
    obtain ⟨assignment, constructor, arguments, span⟩ := c
    cases arguments <;> rfl
  ret frame id r := by
    obtain ⟨expression, message, span⟩ := r
    cases message <;> rfl
  reference _ _ _ := rfl
  guard _ := rfl
  salvage c := by
    cases c with
    | call c body =>
      show (⟨_, _, callSignature c.withoutExpressions⟩ : Salvage) = ⟨_, _, callSignature c⟩
      rw [callSignature_withoutExpressions]
      rfl
    | asyncMessage | creation | ret | divider | reference | block => rfl

end Edit

/-- The program without the expressions in its arguments and conditions, at any depth. -/
def Syntax.Program.withoutExpressions (program : Program) : Program :=
  program.edit .dropExpressions

theorem collect_withoutExpressions (program : Program) (starter : Option String) :
    collect program.withoutExpressions starter = collect program starter :=
  collect_edit Edit.dropExpressions_uncollected program starter

theorem interpret_withoutExpressions (program : Program) (starter : Option String) :
    interpret program.withoutExpressions starter = interpret program starter :=
  interpret_edit Edit.dropExpressions_uncollected Edit.dropExpressions_unread program starter

/-! ### Programs that differ in expressions only -/

/-- **Expressions are hidden.** Two programs that are the same apart from the expressions in their
    arguments and conditions have the same participants, even for a walk that goes into every
    expression, and the same document with the same faults. -/
theorem expressions_are_hidden {p q : Program} (h : p.withoutExpressions = q.withoutExpressions)
    (starter : Option String) :
    walk q starter = ⟨collect p starter, 0, 0⟩ ∧ collect q starter = collect p starter ∧
      interpret q starter = interpret p starter := by
  have hcollect : collect q starter = collect p starter := by
    rw [← collect_withoutExpressions q, ← h, collect_withoutExpressions]
  have hinterpret : interpret q starter = interpret p starter := by
    rw [← interpret_withoutExpressions q, ← h, interpret_withoutExpressions]
  refine ⟨?_, hcollect, hinterpret⟩
  -- the walk comes out at what is collected, whatever it went through
  rw [walk_eq, hcollect]

/-- A call in a loop, with some expressions in its arguments and in the guard. -/
def guardedCall (arguments : List Expression) (guard : Option Expression) : Program :=
  let token (text : String) : Token := ⟨text, default⟩
  let c : Call := ⟨some (token "A"), some (token "B"), some (token "m"),
    some ⟨arguments, "C.f(D.g)", default⟩, none, default⟩
  let inner : Block := .present [.recognized (.call c .missing) default "A->B.m(C.f(D.g))"] default
  ⟨none, .present [.recognized (.block .loop [.mk .body (some ⟨token "E.h", guard⟩) inner] default)
    default "while(E.h)"] default, default⟩

/-- An invocation of a method that some participant is to have. -/
def invoked (target method : String) (arguments : List Expression) : Expression :=
  .invocation (some ⟨target, default⟩) (some ⟨method, default⟩) arguments

/-- Invocations in an argument, in its own argument and in a guard bring in nobody. -/
theorem nested_invocations_are_hidden :
    let plain := guardedCall [] none
    let parsed := guardedCall [invoked "C" "f" [invoked "D" "g" []]] (some (invoked "E" "h" []))
    plain.withoutExpressions = parsed.withoutExpressions ∧
      walk parsed none = ⟨collect plain none, 0, 0⟩ ∧
      (collect parsed none).ledger.names = ["A", "B"] ∧
      interpret parsed none = interpret plain none := by
  intro plain parsed
  have h := expressions_are_hidden (p := plain) (q := parsed) rfl none
  exact ⟨rfl, h.1, h.2.1 ▸ by decide +kernel, h.2.2⟩

end SequenceDiagram
