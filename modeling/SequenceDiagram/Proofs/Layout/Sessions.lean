import SequenceDiagram.Layout.Session
import SequenceDiagram.Proofs.Document.Layers
import SequenceDiagram.Proofs.Layout.Afresh
import SequenceDiagram.Proofs.Memory

namespace SequenceDiagram

/-!
# Sessions and their past

A session remembers the widths that it measured, and the memo of depths is emptied before each
layout. Neither shows in a layout.

* `Gauge.Faithful`: the answers of a gauge with a memory are those that would be computed.
* `Gauge.Faithful.computeLayout`: with such a gauge a layout is the one computed afresh, and so is
  each part of it.
* `Session.Keeps`: what is true of a session after all calls, with one lemma for each of them.
* `compute_after_calls`: whatever was asked of a session before, its layouts are those computed
  afresh.
-/

/-! ### Layouts with a memory -/

/-- In all states that keep an invariant, the gauge gives the widths of a measure and the depths of a
    document. -/
structure Gauge.Faithful {σ : Type} (gauge : Gauge (StateM σ)) (measure : TextMeasure)
    (d : Document) (inv : σ → Prop) : Prop where
  width (text : String) (style : TextStyle) :
    Gives inv (gauge.width text style) (measure text style)
  depth (id : NodeId) (participant : String) :
    Gives inv (gauge.depth d id participant) (d.depth id participant)

namespace Gauge.Faithful

variable {σ : Type} {gauge : Gauge (StateM σ)} {measure : TextMeasure} {d : Document}
  {inv : σ → Prop}

theorem labelWidth (h : gauge.Faithful measure d inv) (text : String) (style : TextStyle) :
    Gives inv (gauge.labelWidth text style)
      (Id.run ((Gauge.exact measure).labelWidth text style)) := by
  unfold Gauge.labelWidth
  split
  · exact .pure _
  · exact h.width text style

theorem layers (h : gauge.Faithful measure d inv) :
    Gives inv (d.layersWith (gauge.depth d)) d.layers :=
  .layersWith h.depth

theorem box (h : gauge.Faithful measure d inv) (config : LayoutConfig) (ledger : Ledger)
    (layers : Document.Layers) (name : String) :
    Gives inv (boxWith gauge config ledger layers name)
      (.of measure config ledger layers name) := by
  refine (h.labelWidth (lifelineLabel ledger name) .participant).bind ?_
  exact .pure _

theorem arrows (h : gauge.Faithful measure d inv) (order : List OrderedParticipant) :
    Gives inv ((d.messages.filterMap (arrowEnds? order)).mapM fun (source, target, signature) => do
        return (⟨source, target, ← gauge.labelWidth signature .messageContent⟩ : LabelledArrow))
      (LabelledArrow.all measure order d) := by
  refine .mapM ?_ _
  intro (source, target, signature)
  exact (h.labelWidth signature .messageContent).bind (.pure _)

theorem coordinates (h : gauge.Faithful measure d inv) (config : LayoutConfig)
    (order : List OrderedParticipant) (ledger : Ledger) :
    Gives inv (Coordinates.ofDocumentWith gauge config order ledger d)
      (.ofDocument measure config order ledger d) := by
  rw [Coordinates.ofDocument_eq]
  have hboxes := Gives.mapM (fun p => h.box config ledger d.layers p.name) order
  refine h.layers.bind ?_
  refine hboxes.bind ?_
  refine (h.arrows order).bind ?_
  exact .pure _

theorem message (h : gauge.Faithful measure d inv) (config : LayoutConfig) (c : Coordinates)
    (m : Message) :
    Gives inv (messageLayoutWith gauge config c d m) (messageLayout measure config c d m) := by
  refine (h.depth m.id m.origin).bind ?_
  refine (h.depth m.id m.sender).bind ?_
  refine (h.depth m.id m.receiver).bind ?_
  exact .pure _

theorem fragment (h : gauge.Faithful measure d inv) (config : LayoutConfig) (c : Coordinates)
    (f : FragmentTree) :
    Gives inv (fragmentLayoutWith gauge config c d f) (fragmentLayout measure config c d f) := by
  refine (h.depth f.fragment.id f.fragment.origin).bind ?_
  -- both sides measure a condition only for a box that has a place
  show Gives inv _ (Id.run (fragmentLayoutWith (.exact measure) config c d f))
  simp only [fragmentLayoutWith, Gauge.exact, Id.run_bind, Id.run_pure]
  cases FragmentBox.of c config f (d.depth f.fragment.id f.fragment.origin) with
  | error reason => exact .pure _
  | ok box =>
    cases f.sections.head?.bind (·.condition) with
    | none => exact .pure _
    | some condition => exact (h.width condition .fragmentCondition).bind (.pure _)

/-- With a faithful gauge a layout is the one that is computed afresh. -/
theorem computeLayout {source : String} {version : Nat} {starter : Option String}
    (h : gauge.Faithful measure (sourceDocument source version starter) inv)
    (config : LayoutConfig) :
    Gives inv (computeLayoutWith gauge config source version starter)
      (computeLayout measure config source version starter) := by
  rw [computeLayout_eq]
  refine (h.coordinates config _ _).bind ?_
  refine (Gives.mapM (h.message config _) _).bind ?_
  refine (Gives.mapM (h.fragment config _) _).bind ?_
  exact .pure _

end Gauge.Faithful

/-! ### Gauges with a memory -/

/-- The gauge that measures every text, and remembers depths. -/
def Gauge.memoizing (measure : TextMeasure) : Gauge (StateM DepthMemo) where
  width text style := pure (measure text style)
  depth := DepthMemo.depth

theorem Gauge.memoizing_faithful (measure : TextMeasure) (d : Document) :
    (Gauge.memoizing measure).Faithful measure d (DepthMemo.Agrees d) where
  width _ _ := .pure _
  depth := DepthMemo.depth_gives d

/-- What a session remembers are widths of its measure, and depths of a document. -/
structure Memory.Agrees (measure : TextMeasure) (d : Document) (memory : Memory) : Prop where
  widths : memory.widths.Agrees measure
  depths : memory.depths.Agrees d

theorem Gauge.remembering_faithful (measure : TextMeasure) (d : Document) :
    (Gauge.remembering measure).Faithful measure d (Memory.Agrees measure d) where
  width text style memory h := by
    obtain ⟨hwidth, hwidths⟩ := MeasureCache.measure_gives measure text style _ h.widths
    exact ⟨hwidth, hwidths, h.depths⟩
  depth id participant memory h := by
    obtain ⟨hdepth, hdepths⟩ := DepthMemo.depth_gives d id participant _ h.depths
    exact ⟨hdepth, h.widths, hdepths⟩

/-! ### Sessions -/

namespace Session

/-- What can be asked of a session. -/
inductive Call where
  | nextVersion
  | compute (source : String) (version : Nat) (starter : Option String)
  | update (source : String) (starter : Option String)
  | publish (layout : DiagramLayout)

/-- The session after a call. -/
def after (s : Session) : Call → Session
  | .nextVersion => s.nextVersion.2
  | .compute source version starter => (s.compute source version starter).2
  | .update source starter => (s.update source starter).2
  | .publish layout => (s.publish layout).2

/-- The session after some calls. -/
def afterAll (s : Session) (calls : List Call) : Session := calls.foldl after s

/-- The session keeps its settings, and the widths that it remembers are right. -/
structure Keeps (config : LayoutConfig) (measure : TextMeasure) (s : Session) : Prop where
  widths : s.memory.widths.Agrees measure
  config : s.config = config
  measure : s.measure = measure

theorem keeps_start (config : LayoutConfig) (measure : TextMeasure) :
    (start config measure).Keeps config measure := ⟨MeasureCache.agrees_empty _, rfl, rfl⟩

namespace Keeps

variable {config : LayoutConfig} {measure : TextMeasure} {s : Session}

theorem compute (h : s.Keeps config measure) (source : String) (version : Nat)
    (starter : Option String) :
    (s.compute source version starter).1 = computeLayout measure config source version starter ∧
      (s.compute source version starter).2.Keeps config measure := by
  obtain ⟨hwidths, rfl, rfl⟩ := h
  -- no depth is left of the documents before, whatever their versions were
  have hagrees : Memory.Agrees s.measure (sourceDocument source version starter)
      { s.memory with depths := .empty } := ⟨hwidths, DepthMemo.agrees_empty _⟩
  have hfaithful := Gauge.remembering_faithful s.measure (sourceDocument source version starter)
  have hcompute := hfaithful.computeLayout s.config _ hagrees
  simp only [Session.compute]
  generalize StateT.run _ _ = computed at hcompute ⊢
  obtain ⟨layout, memory⟩ := computed
  exact ⟨hcompute.1, hcompute.2.widths, rfl, rfl⟩

theorem publish (h : s.Keeps config measure) (layout : DiagramLayout) :
    (s.publish layout).2.Keeps config measure := by
  unfold Session.publish
  split
  · exact h
  · exact ⟨h.widths, h.config, h.measure⟩

theorem nextVersion (h : s.Keeps config measure) : s.nextVersion.2.Keeps config measure :=
  ⟨h.widths, h.config, h.measure⟩

theorem update (h : s.Keeps config measure) (source : String) (starter : Option String) :
    (s.update source starter).1 =
        computeLayout measure config source (s.latestVersion + 1) starter ∧
      (s.update source starter).2.Keeps config measure := by
  have hcompute := h.nextVersion.compute source (s.latestVersion + 1) starter
  simp only [Session.update, Session.nextVersion] at hcompute ⊢
  generalize Session.compute _ source _ starter = computed at hcompute ⊢
  obtain ⟨layout, s'⟩ := computed
  exact ⟨hcompute.1, hcompute.2.publish layout⟩

theorem after (h : s.Keeps config measure) (call : Call) : (s.after call).Keeps config measure := by
  cases call with
  | nextVersion => exact h.nextVersion
  | compute source version starter => exact (h.compute source version starter).2
  | update source starter => exact (h.update source starter).2
  | publish layout => exact h.publish layout

theorem afterAll (h : s.Keeps config measure) (calls : List Call) :
    (s.afterAll calls).Keeps config measure := by
  induction calls generalizing s with
  | nil => exact h
  | cons call calls ih => exact ih (h.after call)

end Keeps

end Session

/-- **A layout does not depend on the past of the session.** After any calls, a session lays out a
    source as with a measure that remembers nothing and a new memo of depths, and that is the layout
    computed afresh. -/
theorem compute_after_calls (config : LayoutConfig) (measure : TextMeasure)
    (calls : List Session.Call) (source : String) (version : Nat) (starter : Option String) :
    let layout := (((Session.start config measure).afterAll calls).compute source version starter).1
    layout = ((computeLayoutWith (.memoizing measure) config source version starter).run .empty).1 ∧
      layout = computeLayout measure config source version starter := by
  intro layout
  have hkeeps := (Session.keeps_start config measure).afterAll calls
  have hlayout := (hkeeps.compute source version starter).1
  have hfaithful := Gauge.memoizing_faithful measure (sourceDocument source version starter)
  have hmemo := (hfaithful.computeLayout config _ (DepthMemo.agrees_empty _)).1
  exact ⟨hlayout.trans hmemo.symm, hlayout⟩

end SequenceDiagram
