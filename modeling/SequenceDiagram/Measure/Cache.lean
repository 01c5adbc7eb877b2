import SequenceDiagram.Measure.Style

namespace SequenceDiagram

/-!
# The measurement cache

A `MeasureCache` keeps the widths of the texts that were used last, latest first.

* `MeasureCache.measure` answers from the cache if it can, and counts a miss if it cannot; either
  way the text moves to the front.
* The cache holds `capacity` entries, and at least one. When a new one no longer fits, the one whose
  last use lies furthest back goes.
-/

/-- The widths in the order of their last use, latest first, and how many texts had to be
    measured. -/
structure MeasureCache where
  capacity : Nat
  entries : List ((String × TextStyle) × Binary32)
  misses : Nat

namespace MeasureCache

/-- A cache without entries; a capacity of zero acts as one. -/
def empty (capacity : Nat) : MeasureCache := ⟨max capacity 1, [], 0⟩

/-- How many widths are kept. -/
def size (cache : MeasureCache) : Nat := cache.entries.length

/-- The width that is kept for a text. -/
def lookup? (cache : MeasureCache) (key : String × TextStyle) : Option Binary32 :=
  (cache.entries.find? fun e => e.1 = key).map (·.2)

/-- The cache after a use of an entry: it goes to the front. -/
def touch (cache : MeasureCache) (key : String × TextStyle) (width : Binary32) : MeasureCache :=
  { cache with entries := (key, width) :: cache.entries.filter fun e => e.1 ≠ key }

/-- The cache after a measurement: its result goes to the front, and what no longer fits goes. -/
def insert (cache : MeasureCache) (key : String × TextStyle) (width : Binary32) : MeasureCache :=
  { cache with
    entries := ((key, width) :: cache.entries).take cache.capacity
    misses := cache.misses + 1 }

/-- The width of a text, measured only if it is not in the cache. -/
def measure (inner : TextMeasure) (text : String) (style : TextStyle) :
    StateM MeasureCache Binary32 := fun cache =>
  match cache.lookup? (text, style) with
  | some width => (width, cache.touch (text, style) width)
  | none => (inner text style, cache.insert (text, style) (inner text style))

end MeasureCache

end SequenceDiagram
