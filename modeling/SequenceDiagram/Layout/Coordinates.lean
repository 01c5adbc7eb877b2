import SequenceDiagram.Config.Basic
import SequenceDiagram.Document.Depth
import SequenceDiagram.Measure.Style
import SequenceDiagram.Participant.Order

namespace SequenceDiagram

/-!
# Placing the lifelines

The lifelines keep their order; how far apart they stand follows from what has to fit between them.

* A `Requirement` is a least distance between two lifelines. Neighbours keep their boxes and bars
  apart, and a message needs room for its label.
* `centers` places each lifeline as far to the left as the requirements allow: at the largest of the
  places that they ask for.
* Texts and depths are asked for through a `Gauge` in any monad, so that they can come from a
  session's memory as well as be computed afresh.
-/

/-! ### Asking for widths and depths -/

/-- The questions that a layout asks. -/
structure Gauge (m : Type → Type) where
  width : String → TextStyle → m Binary32
  depth : Document → NodeId → String → m Nat

namespace Gauge

/-- The gauge that computes every answer afresh. -/
def exact (measure : TextMeasure) : Gauge Id :=
  { width := fun text style => pure (measure text style)
    depth := fun d id participant => pure (d.depth id participant) }

/-- The width of a text; an empty text has none, and nobody is asked for it. -/
def labelWidth {m : Type → Type} [Monad m] (gauge : Gauge m) (text : String) (style : TextStyle) :
    m Binary32 :=
  if text = "" then pure 0 else gauge.width text style

end Gauge

/-! ### Lifelines -/

/-- How far a stack of bars reaches from its lifeline. -/
def activationReserve (layers : Nat) (config : LayoutConfig) : Binary32 :=
  if layers = 0 then 0
  else config.occurrenceWidth.half + .ofNat (layers - 1) * config.layerOffset

/-- What stands on a lifeline. -/
structure Box where
  name : String
  labelWidth : Binary32
  width : Binary32
  /-- How far the tallest stack of bars reaches from the lifeline. -/
  activationReserve : Binary32
  deriving DecidableEq

/-- How far the box, or the bars, reach from the lifeline. -/
def Box.halfExtent (b : Box) : Binary32 := max b.width.half b.activationReserve

/-- A lifeline in its place. -/
structure Lifeline where
  box : Box
  center : Binary32
  /-- How far the messages to oneself reach to the right of the lifeline. -/
  selfCallReach : Binary32
  deriving DecidableEq

/-- The name of the lifeline. -/
def Lifeline.name (l : Lifeline) : String := l.box.name

/-- How far anything on the lifeline reaches to the right. -/
def Lifeline.right (l : Lifeline) : Binary32 := l.center + max l.box.halfExtent l.selfCallReach

/-- The lifelines in their places, from left to right. -/
structure Coordinates where
  lifelines : List Lifeline
  deriving DecidableEq

namespace Coordinates

/-- The lifeline of a participant. -/
def get? (c : Coordinates) (name : String) : Option Lifeline := c.lifelines.find? (·.name = name)

/-- The number of a participant's lifeline, from the left. -/
def indexOf? (c : Coordinates) (name : String) : Option Nat :=
  c.lifelines.findIdx? (·.name = name)

/-- How far anything reaches to the right. -/
def totalWidth (c : Coordinates) : Binary32 := (c.lifelines.map (·.right)).foldl max 0

end Coordinates

/-! ### Requirements -/

/-- The lifeline `right` stands at least `distance` to the right of the lifeline `left`. -/
structure Requirement where
  left : Nat
  right : Nat
  distance : Binary32
  deriving DecidableEq

/-- An arrow between two lifelines, or from one to itself, and the width of its label. -/
structure LabelledArrow where
  source : Nat
  target : Nat
  labelWidth : Binary32
  deriving DecidableEq

namespace LabelledArrow

/-- The arrow comes back to its own lifeline. -/
def isLoop (a : LabelledArrow) : Bool := a.source = a.target

/-- The room that an arrow to its own lifeline takes to the right of it. -/
def reach (config : LayoutConfig) (a : LabelledArrow) : Binary32 :=
  a.labelWidth + config.selfCallWidth

/-- The room for a label: between the ends of the arrow, or up to the next lifeline if it comes back
    to its own. -/
def requirement (config : LayoutConfig) (a : LabelledArrow) : Requirement :=
  if a.isLoop then ⟨a.source, a.source + 1, a.reach config⟩
  else ⟨min a.source a.target, max a.source a.target,
    a.labelWidth + config.arrowHeadWidth + config.occurrenceWidth⟩

end LabelledArrow

/-- The room for the boxes and the bars of two neighbours. -/
def neighbourRequirements (config : LayoutConfig) (boxes : List Box) : List Requirement :=
  ((boxes.zip boxes.tail).zipIdx).map fun ((a, b), i) =>
    ⟨i, i + 1, a.halfExtent + b.halfExtent + config.margin⟩

/-- Everything that has to fit between the lifelines. What is asked for behind the last one binds
    nobody. -/
def requirements (config : LayoutConfig) (boxes : List Box) (arrows : List LabelledArrow) :
    List Requirement :=
  neighbourRequirements config boxes ++ arrows.map (·.requirement config)

/-! ### Centers -/

/-- The largest of the places that are asked for the lifeline behind the given ones. -/
def nextCenter (reqs : List Requirement) (centers : List Binary32) : Binary32 :=
  (reqs.filter fun r => r.right = centers.length).foldl
    (fun center r => max center (centers.getD r.left 0 + r.distance)) (-Binary32.largest)

/-- The places of the lifelines, from left to right. The first box starts at zero. -/
def centers (reqs : List Requirement) : List Box → List Binary32
  | [] => []
  | first :: rest =>
    rest.foldl (fun centers _ => centers ++ [nextCenter reqs centers]) [first.halfExtent]

/-- How far the arrows that come back to a lifeline reach. -/
def selfCallReach (config : LayoutConfig) (arrows : List LabelledArrow) (lifeline : Nat) :
    Binary32 :=
  (arrows.filter fun a => a.isLoop && a.source == lifeline).foldl
    (fun widest a => max widest (a.reach config)) 0

namespace Coordinates

/-- The boxes in their places. -/
def place (config : LayoutConfig) (boxes : List Box) (arrows : List LabelledArrow) : Coordinates :=
  let places := centers (requirements config boxes arrows) boxes
  ⟨(boxes.zip places).zipIdx.map fun ((b, center), i) =>
    ⟨b, center, selfCallReach config arrows i⟩⟩

end Coordinates

/-! ### Placing a document -/

/-- The label of a lifeline. The sentinel has none unless the source speaks of it. -/
def lifelineLabel (ledger : Ledger) (name : String) : String :=
  match ledger.get? name with
  | some p => p.displayName
  | none => if name = sentinel then "" else name

/-- The ends of a message and its label, if both ends have lifelines. -/
def arrowEnds? (order : List OrderedParticipant) (m : Message) : Option (Nat × Nat × String) :=
  match SequenceDiagram.indexOf? order m.sender, SequenceDiagram.indexOf? order m.receiver with
  | some source, some target => some (source, target, m.signature)
  | _, _ => none

section Ask

variable {m : Type → Type} [Monad m] (gauge : Gauge m)

/-- The box of a lifeline: as wide as the label with its padding, the declared width and the least
    width ask for. -/
def boxWith (config : LayoutConfig) (ledger : Ledger) (layers : Document.Layers) (name : String) :
    m Box := do
  let labelWidth ← gauge.labelWidth (lifelineLabel ledger name) .participant
  let declared := ((ledger.get? name).bind (·.width)).getD 0
  return ⟨name, labelWidth,
    max (max (labelWidth + config.participantPadding) declared) config.minParticipantWidth,
    activationReserve (layers.at name) config⟩

/-- The places of the lifelines of a document. -/
def Coordinates.ofDocumentWith (config : LayoutConfig) (order : List OrderedParticipant)
    (ledger : Ledger) (d : Document) : m Coordinates := do
  let layers ← d.layersWith (gauge.depth d)
  let boxes ← order.mapM fun p => boxWith gauge config ledger layers p.name
  let arrows ← (d.messages.filterMap (arrowEnds? order)).mapM fun (source, target, signature) => do
    return ⟨source, target, ← gauge.labelWidth signature .messageContent⟩
  return .place config boxes arrows

end Ask

end SequenceDiagram
