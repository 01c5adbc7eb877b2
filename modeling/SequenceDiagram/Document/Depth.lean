import SequenceDiagram.Document.Queries

namespace SequenceDiagram

/-!
# Depths of bars

While a call runs, a bar stands on the lifeline of its receiver; calls to the same participant stack
up there.

* `Document.depth` counts the bars that are open on one lifeline around a node, and
  `Document.nestingDepth` those on all lifelines.
* `Document.maxDepth` and `Document.layers` compare stacks. Both ask for depths through a function
  in any monad, so that a memo can answer.
* `DepthMemo` keeps depths. It serves the documents of one version and forgets everything as soon as
  it is asked about another one.
-/

namespace Document

/-! ### Depths -/

/-- How many bars are open on a lifeline around a node. -/
def depth (d : Document) (id : NodeId) (participant : String) : Nat :=
  (d.ancestors id).countP fun a => d.activation? a == some participant

/-- How many bars are open on all lifelines around a node. -/
def nestingDepth (d : Document) (id : NodeId) : Nat :=
  (d.ancestors id).countP fun a => (d.activation? a).isSome

/-- The nodes that open a bar, with the lifeline on which they do. -/
def activations (d : Document) : List (NodeId × String) :=
  d.entries.zipIdx.filterMap fun (e, id) => e.activation.map (id, ·)

/-! ### Stacks -/

/-- The tallest stack on each lifeline, in the order of the first bar. -/
abbrev Layers := List (String × Nat)

/-- The tallest stack on a lifeline; without a bar it is zero. -/
def Layers.at (layers : Layers) (participant : String) : Nat := (layers.lookup participant).getD 0

/-- The tallest stacks with one more stack. -/
def Layers.raise : Layers → String → Nat → Layers
  | [], participant, height => [(participant, height)]
  | (p, h) :: rest, participant, height =>
    if p = participant then (p, max h height) :: rest
    else (p, h) :: Layers.raise rest participant height

section Ask

variable {m : Type → Type} [Monad m] (ask : NodeId → String → m Nat)

/-- The stacks under which some bars end, each with its lifeline: a bar lies on those around it. -/
def stacksWith (bars : List (NodeId × String)) : m (List (String × Nat)) :=
  bars.mapM fun (id, participant) => do return (participant, (← ask id participant) + 1)

/-- The tallest stack that is reached at or below a node. -/
def maxDepthWith (d : Document) (id : NodeId) : m Nat := do
  let bars := d.activations.filter fun (i, _) => i == id || (d.ancestors i).contains id
  return (← stacksWith ask bars).foldl (fun highest s => max highest s.2) 0

/-- The tallest stack on each lifeline. -/
def layersWith (d : Document) : m Layers := do
  return (← stacksWith ask d.activations).foldl (fun layers s => layers.raise s.1 s.2) []

end Ask

/-- The tallest stack that is reached at or below a node; zero if no bar is opened there. -/
def maxDepth (d : Document) (id : NodeId) : Nat := Id.run (d.maxDepthWith (pure <| d.depth · ·) id)

/-- The tallest stack on each lifeline. -/
def layers (d : Document) : Layers := Id.run (d.layersWith (pure <| d.depth · ·))

end Document

/-! ### The memo -/

/-- Depths that were asked for, and the version of the document they belong to. -/
structure DepthMemo where
  version : Option Nat
  entries : List ((NodeId × String) × Nat)

namespace DepthMemo

/-- The memo that knows nothing. -/
def empty : DepthMemo := ⟨none, []⟩

/-- How many depths are kept. -/
def size (memo : DepthMemo) : Nat := memo.entries.length

/-- The memo as it serves the documents of a version. -/
def forVersion (memo : DepthMemo) (version : Nat) : DepthMemo :=
  if memo.version = some version then memo else ⟨some version, []⟩

/-- The depth of a node, from the memo if it is there. -/
def depth (d : Document) (id : NodeId) (participant : String) : StateM DepthMemo Nat := fun memo =>
  let memo := memo.forVersion d.version
  match memo.entries.lookup (id, participant) with
  | some depth => (depth, memo)
  | none =>
    let depth := d.depth id participant
    (depth, { memo with entries := ((id, participant), depth) :: memo.entries })

end DepthMemo

end SequenceDiagram
