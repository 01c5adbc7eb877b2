import SequenceDiagram.Layout.Arrow

namespace SequenceDiagram

/-!
# The boxes of fragments

The box of a fragment reaches from the leftmost to the rightmost box of those who take part. It adds
one border for itself and one for each level of fragments inside, so that the boxes of nested
fragments stay inside it.
-/

/-- Where the box of a fragment lies. -/
structure FragmentBox where
  left : Binary32
  right : Binary32
  width : Binary32
  /-- The way from the left side of the box to the edge of the bars on the origin's lifeline. -/
  offset : Binary32
  /-- The way from the left side of the box to the leftmost lifeline. -/
  paddingLeft : Binary32
  minWidth : Binary32
  deriving DecidableEq

/-- The leftmost and the rightmost of the lifelines of some participants. -/
def Coordinates.extremes? (c : Coordinates) (names : List String) :
    Option (Lifeline × Lifeline) := do
  let places := names.filterMap c.indexOf?
  let first ← places.min?
  let last ← places.max?
  return (← c.lifelines[first]?, ← c.lifelines[last]?)

namespace FragmentBox

/-- The box around two lifelines, with a border for each of some levels. -/
def around (config : LayoutConfig) (levels : Nat) (origin : Anchor)
    (leftmost rightmost : Lifeline) : FragmentBox :=
  let border := config.fragmentPadding * .ofNat levels
  let left := leftmost.center - leftmost.box.width.half - border
  let right := max (rightmost.center + rightmost.box.width.half + border)
    (left + config.fragmentMinWidth)
  { left := left
    right := right
    width := right - left
    offset := origin.edge (-1) config - left
    paddingLeft := leftmost.center - left
    minWidth := config.fragmentMinWidth }

/-- The box of a fragment; `depth` counts the bars around it on the lifeline of its origin. -/
def of (c : Coordinates) (config : LayoutConfig) (f : FragmentTree) (depth : Nat) :
    Except LayoutError FragmentBox :=
  match c.extremes? f.fragment.participants with
  | none =>
    .error (.emptyFragment f.fragment.kind f.fragment.source.line f.fragment.source.column)
  | some (leftmost, rightmost) => do
    let origin ← ArrowEnd.anchor c ⟨f.fragment.origin, depth⟩
    return around config (nestingLevels f.sections + 1) origin leftmost rightmost

end FragmentBox

end SequenceDiagram
