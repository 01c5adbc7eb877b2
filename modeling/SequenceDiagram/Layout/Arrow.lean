import SequenceDiagram.Layout.Coordinates

namespace SequenceDiagram

/-!
# Arrows and bars

* An `Anchor` is a place on a lifeline under a stack of bars; its edges are the outer sides of the
  stack.
* An arrow runs between the edges that face each other. One that comes back to its own lifeline has
  no width and no direction.
* A call or a creation also has an `Occurrence`, the bar that it opens.
* `LayoutError` says why an element has no place, `Diagnostic` where it stands in the source.
-/

/-! ### Errors -/

/-- The reasons for which an element has no place. -/
inductive LayoutError where
  | unknownParticipant (name : String)
  | emptyFragment (kind : FragmentKind) (line column : Nat)
  deriving DecidableEq

/-- The wording of a reason. -/
def LayoutError.message : LayoutError → String
  | unknownParticipant name => "participant `" ++ name ++ "` is not in the coordinate table"
  | emptyFragment kind line column => kind.name ++ " fragment at " ++ toString line ++ ":" ++
      toString column ++ " references no participants"

/-- Where an element stands in the source, and why it has no place. -/
structure Diagnostic where
  line : Nat
  column : Nat
  reason : LayoutError
  deriving DecidableEq

/-- The diagnostic for an element. -/
def Diagnostic.at (source : Span) (reason : LayoutError) : Diagnostic :=
  ⟨source.line, source.column, reason⟩

/-- The center of a participant's lifeline. -/
def Coordinates.center (c : Coordinates) (name : String) : Except LayoutError Binary32 :=
  match c.get? name with
  | some l => .ok l.center
  | none => .error (.unknownParticipant name)

/-! ### Anchors -/

/-- A place on a lifeline, and how many bars lie there. -/
structure Anchor where
  center : Binary32
  depth : Nat
  deriving DecidableEq

namespace Anchor

/-- The outer side of the bars, to the right for the direction one and to the left for minus one.
    Without bars it is the lifeline itself. -/
def edge (a : Anchor) (direction : Binary32) (config : LayoutConfig) : Binary32 :=
  if a.depth = 0 then a.center else a.center + direction * activationReserve a.depth config

/-- The direction in which the other anchor lies; zero if that is neither to the right nor to the
    left. -/
def facing (a b : Anchor) : Binary32 :=
  if a.center < b.center then 1 else if b.center < a.center then -1 else 0

/-- The way from the edge of one anchor to the edge of the other that faces it. -/
def edgeOffset (a b : Anchor) (config : LayoutConfig) : Binary32 :=
  if a.facing b = 0 then 0
  else b.edge (b.facing a) config - a.edge (a.facing b) config

/-- The way from the lifeline to an edge. -/
def centerTo (a : Anchor) (edge : Binary32) : Binary32 := edge - a.center

end Anchor

/-! ### Arrows -/

/-- Where the arrow of a message lies. -/
structure Arrow where
  isSelf : Bool
  rightToLeft : Bool
  width : Binary32
  /-- The way from the lifeline of the origin to the left end of the arrow. -/
  translation : Binary32
  originLayers : Nat
  sourceLayers : Nat
  targetLayers : Nat
  deriving DecidableEq

/-- A participant in the role it plays for an arrow, and how many bars lie on its lifeline. -/
structure ArrowEnd where
  name : String
  layers : Nat
  deriving DecidableEq

/-- The anchor of an end of an arrow. -/
def ArrowEnd.anchor (c : Coordinates) (e : ArrowEnd) : Except LayoutError Anchor :=
  match c.center e.name with
  | .ok center => .ok ⟨center, e.layers⟩
  | .error reason => .error reason

/-- The arrow between two anchors, seen from the anchor of the origin. -/
def Arrow.between (config : LayoutConfig) (isSelf : Bool) (origin source target : Anchor) : Arrow :=
  let rightToLeft := !isSelf && decide (target.center - source.center < 0)
  let leftEnd := if rightToLeft then target.edge 1 config else source.edge 1 config
  { isSelf := isSelf
    rightToLeft := rightToLeft
    width := if isSelf then 0 else (source.edgeOffset target config).abs
    translation := origin.centerTo leftEnd
    originLayers := origin.depth
    sourceLayers := source.depth
    targetLayers := target.depth }

/-- The arrow from one participant to another, seen from the origin. -/
def layoutArrow (c : Coordinates) (config : LayoutConfig) (origin source target : ArrowEnd) :
    Except LayoutError Arrow := do
  let originAnchor ← origin.anchor c
  let sourceAnchor ← source.anchor c
  let targetAnchor ← target.anchor c
  return .between config (source.name = target.name) originAnchor sourceAnchor targetAnchor

/-! ### Messages -/

/-- The bar that a call or a creation opens, and its place in the stack. -/
structure Occurrence where
  layer : Nat
  left : Binary32
  right : Binary32
  deriving DecidableEq

/-- The bar at the top of the stack at an anchor. -/
def Occurrence.of (config : LayoutConfig) (a : Anchor) : Occurrence :=
  ⟨a.depth, a.edge (-1) config, a.edge 1 config⟩

/-- A message in its place. -/
structure MessageLayout where
  id : NodeId
  kind : MessageKind
  sender : String
  receiver : String
  signature : String
  arrow : Arrow
  occurrence : Option Occurrence
  deriving DecidableEq

/-- The bars around a message, on the lifelines of the origin, the sender and the receiver. -/
structure MessageDepths where
  origin : Nat
  sender : Nat
  receiver : Nat
  deriving DecidableEq

/-- A message in its place, from the bars around it. Its own bar, if it opens one, lies on top of
    those of the receiver. -/
def MessageLayout.of (c : Coordinates) (config : LayoutConfig) (m : Message)
    (depths : MessageDepths) : Except LayoutError MessageLayout := do
  let receiver := if m.kind.activates then depths.receiver + 1 else depths.receiver
  let arrow ← layoutArrow c config ⟨m.origin, depths.origin⟩ ⟨m.sender, depths.sender⟩
    ⟨m.receiver, receiver⟩
  let anchor ← ArrowEnd.anchor c ⟨m.receiver, receiver⟩
  let occurrence := if m.kind.activates then some (Occurrence.of config anchor) else none
  return ⟨m.id, m.kind, m.sender, m.receiver, m.signature, arrow, occurrence⟩

end SequenceDiagram
