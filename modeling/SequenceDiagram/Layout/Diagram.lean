import SequenceDiagram.Document.Interpretation
import SequenceDiagram.Layout.FragmentBox
import SequenceDiagram.Syntax.Program

namespace SequenceDiagram

/-!
# Layouts of diagrams

A `DiagramLayout` is everything that is needed to draw a source: the lifelines, the messages and the
fragments in their places, and what could not be understood or placed.

* `computeLayout` computes all of it afresh, with a given measure of text.
* `computeLayoutWith` does the same in any monad, with the answers of a `Gauge`.
-/

/-- A fragment in its place. -/
structure FragmentLayout where
  id : NodeId
  kind : FragmentKind
  origin : String
  /-- The width of the first condition; zero if there is none. -/
  conditionWidth : Binary32
  box : FragmentBox
  deriving DecidableEq

/-- A diagram in its place. -/
structure DiagramLayout where
  version : Nat
  participants : List OrderedParticipant
  coordinates : Coordinates
  messages : List MessageLayout
  fragments : List FragmentLayout
  /-- What has no place. -/
  diagnostics : List Diagnostic
  /-- What was not understood. -/
  faults : List Fault
  deriving DecidableEq

namespace DiagramLayout

/-- The wording of what was not understood. -/
def errors (l : DiagramLayout) : List String := l.faults.map (·.text)

/-- Everything was understood and has its place. -/
def success (l : DiagramLayout) : Bool := l.faults.isEmpty && l.diagnostics.isEmpty

end DiagramLayout

/-- The elements that have a place, in their order. -/
def placed {α : Type} (results : List (Except Diagnostic α)) : List α :=
  results.filterMap fun
    | .ok a => some a
    | .error _ => none

/-- The diagnostics of the elements that have none, in their order. -/
def unplaced {α : Type} (results : List (Except Diagnostic α)) : List Diagnostic :=
  results.filterMap fun
    | .ok _ => none
    | .error d => some d

section Ask

variable {m : Type → Type} [Monad m] (gauge : Gauge m)

/-- A message in its place. -/
def messageLayoutWith (config : LayoutConfig) (c : Coordinates) (d : Document) (msg : Message) :
    m (Except Diagnostic MessageLayout) := do
  let origin ← gauge.depth d msg.id msg.origin
  let sender ← gauge.depth d msg.id msg.sender
  let receiver ← gauge.depth d msg.id msg.receiver
  return (MessageLayout.of c config msg ⟨origin, sender, receiver⟩).mapError (.at msg.source)

/-- A fragment in its place. Its condition is measured only if it has one. -/
def fragmentLayoutWith (config : LayoutConfig) (c : Coordinates) (d : Document) (f : FragmentTree) :
    m (Except Diagnostic FragmentLayout) := do
  let depth ← gauge.depth d f.fragment.id f.fragment.origin
  match FragmentBox.of c config f depth with
  | .error reason => return .error (.at f.fragment.source reason)
  | .ok box =>
    let conditionWidth ← match f.sections.head?.bind (·.condition) with
      | some condition => gauge.width condition .fragmentCondition
      | none => pure 0
    return .ok ⟨f.fragment.id, f.fragment.kind, f.fragment.origin, conditionWidth, box⟩

/-- The layout of a source; `starter` takes the place of the declared starter. -/
def computeLayoutWith (config : LayoutConfig) (source : String) (version : Nat)
    (starter : Option String) : m DiagramLayout := do
  let program := parse source
  let context := collect program starter
  let participants := orderParticipants context
  let interpretation := interpret program starter
  let d := interpretation.document.withVersion version
  let coordinates ← Coordinates.ofDocumentWith gauge config participants context.ledger d
  let messages ← d.messages.mapM (messageLayoutWith gauge config coordinates d)
  let fragments ← d.fragments.mapM (fragmentLayoutWith gauge config coordinates d)
  return {
      version := version
      participants := participants
      coordinates := coordinates
      messages := placed messages
      fragments := placed fragments
      diagnostics := unplaced messages ++ unplaced fragments
      faults := interpretation.faults }

end Ask

/-- The layout of a source, computed afresh. -/
def computeLayout (measure : TextMeasure) (config : LayoutConfig) (source : String) (version : Nat)
    (starter : Option String) : DiagramLayout :=
  Id.run (computeLayoutWith (.exact measure) config source version starter)

end SequenceDiagram
