import SequenceDiagram.Layout.Diagram
import SequenceDiagram.Measure.Cache

namespace SequenceDiagram

/-!
# Layout sessions

A `Session` lays out the successive edits of one source.

* It remembers measured widths from one layout to the next. Depths belong to one tree, so they are
  forgotten before each layout.
* Every edit takes a new version. `Session.publish` shows a layout unless a newer one is visible, so
  that a late result never replaces a newer one.
-/

/-- What a session remembers. -/
structure Memory where
  widths : MeasureCache
  depths : DepthMemo

/-- The gauge that looks into the memory first. -/
def Gauge.remembering (measure : TextMeasure) : Gauge (StateM Memory) where
  width text style := fun memory =>
    let (width, widths) := MeasureCache.measure measure text style memory.widths
    (width, { memory with widths := widths })
  depth d id participant := fun memory =>
    let (depth, depths) := DepthMemo.depth d id participant memory.depths
    (depth, { memory with depths := depths })

/-- The layouts of one source over time. -/
structure Session where
  config : LayoutConfig
  measure : TextMeasure
  /-- The version of the latest edit. -/
  latestVersion : Nat
  memory : Memory
  /-- The layout that is visible. -/
  current : Option DiagramLayout

namespace Session

/-- A session before the first edit. -/
def start (config : LayoutConfig) (measure : TextMeasure) : Session :=
  { config := config
    measure := measure
    latestVersion := 0
    memory := ⟨.empty config.measureCacheCapacity, .empty⟩
    current := none }

/-- How many texts had to be measured. -/
def measureMisses (s : Session) : Nat := s.memory.widths.misses

/-- Registers an edit and gives its version. -/
def nextVersion (s : Session) : Nat × Session :=
  (s.latestVersion + 1, { s with latestVersion := s.latestVersion + 1 })

/-- The layout of a source, which does not become visible by this. -/
def compute (s : Session) (source : String) (version : Nat) (starter : Option String) :
    DiagramLayout × Session :=
  let memory := { s.memory with depths := .empty }
  let (layout, memory) :=
    (computeLayoutWith (.remembering s.measure) s.config source version starter).run memory
  (layout, { s with memory := memory })

/-- Makes a layout visible, unless a newer one is; says whether it did. -/
def publish (s : Session) (layout : DiagramLayout) : Bool × Session :=
  if s.current.any fun visible => layout.version < visible.version then (false, s)
  else (true, { s with current := some layout })

/-- Registers an edit, lays it out and makes the layout visible. -/
def update (s : Session) (source : String) (starter : Option String) : DiagramLayout × Session :=
  let (version, s) := s.nextVersion
  let (layout, s) := s.compute source version starter
  (layout, (s.publish layout).2)

end Session

end SequenceDiagram
