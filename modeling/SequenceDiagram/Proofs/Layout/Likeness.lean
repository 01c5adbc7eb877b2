import SequenceDiagram.Proofs.Document.Likeness
import SequenceDiagram.Proofs.Layout.Afresh

namespace SequenceDiagram

/-!
# Layouts of programs that are alike

A layout reads nothing of a document but its outline, and nothing of the ledger but what contexts
that agree have in common. So programs that are alike have the same layout: `computeLayout_congr`.
-/

/-! ### Outlines are enough -/

namespace Document

theorem ancestors_outline (d : Document) (id : NodeId) :
    d.outline.ancestors id = d.ancestors id := by
  induction id using Nat.strongRecOn with
  | ind id ih =>
    have hparent : d.outline.parent? id = d.parent? id := rfl
    rw [ancestors, ancestors, hparent]
    cases d.parent? id with
    | none => rfl
    | some p =>
      dsimp only
      split
      · next hp => rw [ih p hp]
      · rfl

theorem depth_outline (d : Document) (id : NodeId) (participant : String) :
    d.outline.depth id participant = d.depth id participant := by
  unfold depth
  rw [ancestors_outline]
  rfl

theorem layers_outline (d : Document) : d.outline.layers = d.layers := by
  have hdepth : d.outline.depth = d.depth := funext fun id => funext (d.depth_outline id)
  unfold layers
  rw [hdepth]
  rfl

end Document

section Outline

variable (measure : TextMeasure) (config : LayoutConfig)

theorem messageLayout_outline (c : Coordinates) (d : Document) (m : Message) :
    messageLayout measure config c d.outline m.outline = messageLayout measure config c d m := by
  rw [messageLayout_eq, messageLayout_eq]
  simp only [Document.depth_outline]
  rfl

/-- The first condition of some sections is that of their outline. -/
theorem condition_outline (ss : List Section) :
    (outlineIn ss).head?.bind (·.condition) = ss.head?.bind (·.condition) := by
  cases ss with
  | nil => rfl
  | cons s rest => cases s; rfl

theorem FragmentBox.of_outline (c : Coordinates) (f : FragmentTree) (depth : Nat) :
    FragmentBox.of c config f.outline depth = FragmentBox.of c config f depth := by
  have hparticipants : f.outline.fragment.participants = f.fragment.participants := rfl
  unfold FragmentBox.of
  rw [hparticipants]
  dsimp only [FragmentTree.outline]
  rw [nestingLevels_outline]
  rfl

theorem fragmentLayout_outline (c : Coordinates) (d : Document) (f : FragmentTree) :
    fragmentLayout measure config c d.outline f.outline = fragmentLayout measure config c d f := by
  unfold fragmentLayout
  simp only [fragmentLayoutWith, Gauge.exact, Id.run_bind, Id.run_pure, FragmentBox.of_outline,
    Document.depth_outline]
  dsimp only [FragmentTree.outline, Fragment.outline]
  rw [condition_outline]
  rfl

theorem all_outline (order : List OrderedParticipant) (d : Document) :
    LabelledArrow.all measure order d.outline = LabelledArrow.all measure order d := by
  unfold LabelledArrow.all
  rw [Document.messages_outline, List.filterMap_map]
  rfl

end Outline

/-! ### Contexts that agree are enough -/

theorem Context.Agrees.lifelineLabel {c d : Context} (h : c.Agrees d) (name : String) :
    SequenceDiagram.lifelineLabel c.ledger name = SequenceDiagram.lifelineLabel d.ledger name := by
  have hget := h.get? name
  unfold SequenceDiagram.lifelineLabel
  generalize c.ledger.get? name = x at hget
  generalize d.ledger.get? name = y at hget
  cases x with
  | none =>
    obtain rfl := Option.map_eq_none_iff.mp hget.symm
    rfl
  | some p =>
    cases y with
    | none => cases hget
    | some q =>
      have heq : p.unplaced = q.unplaced := Option.some.inj hget
      show p.unplaced.displayName = q.unplaced.displayName
      rw [heq]

theorem Context.Agrees.box {c d : Context} (h : c.Agrees d) (measure : TextMeasure)
    (config : LayoutConfig) (layers : Document.Layers) (name : String) :
    Box.of measure config c.ledger layers name = Box.of measure config d.ledger layers name := by
  have hwidth := congrArg (·.bind (·.width)) (h.get? name)
  simp only [Option.bind_map] at hwidth
  unfold Box.of boxWith
  rw [h.lifelineLabel, show (c.ledger.get? name).bind (·.width) = _ from hwidth]
  rfl

/-! ### The whole layout -/

theorem Coordinates.ofDocument_congr {c d : Context} (h : c.Agrees d) {x y : Document}
    (houtline : x.outline = y.outline) (measure : TextMeasure) (config : LayoutConfig) :
    ofDocument measure config (orderParticipants c) c.ledger x =
      ofDocument measure config (orderParticipants d) d.ledger y := by
  rw [ofDocument_eq, ofDocument_eq, h.orderParticipants, ← all_outline, houtline, all_outline,
    ← x.layers_outline, houtline, y.layers_outline]
  simp only [h.box]

/-- **Programs that are alike have the same layout.** -/
theorem computeLayout_congr {source other : String}
    (h : (parse source).Alike LooksLike (parse other)) (measure : TextMeasure)
    (config : LayoutConfig) (version : Nat) (starter : Option String) :
    computeLayout measure config source version starter =
      computeLayout measure config other version starter := by
  have hcontext := agrees_collect h starter
  obtain ⟨hdocument, hfaults⟩ := outline_interpret h starter
  have houtline : (sourceDocument source version starter).outline =
      (sourceDocument other version starter).outline :=
    congrArg (·.withVersion version) hdocument
  have hcoordinates : sourceCoordinates measure config source version starter =
      sourceCoordinates measure config other version starter :=
    Coordinates.ofDocument_congr hcontext houtline measure config
  have hmessages : ∀ (d : Document) (c : Coordinates),
      d.messages.map (messageLayout measure config c d) =
        d.outline.messages.map (messageLayout measure config c d.outline) := by
    intro d c
    rw [d.messages_outline, List.map_map]
    exact List.map_congr_left fun m _ => (messageLayout_outline measure config c d m).symm
  have hfragments : ∀ (d : Document) (c : Coordinates),
      d.fragments.map (fragmentLayout measure config c d) =
        d.outline.fragments.map (fragmentLayout measure config c d.outline) := by
    intro d c
    rw [d.fragments_outline, List.map_map]
    exact List.map_congr_left fun f _ => (fragmentLayout_outline measure config c d f).symm
  rw [computeLayout_eq, computeLayout_eq]
  dsimp only
  rw [hmessages, hfragments, hmessages (sourceDocument other version starter),
    hfragments (sourceDocument other version starter), houtline, hcoordinates, hfaults,
    hcontext.orderParticipants]

end SequenceDiagram
