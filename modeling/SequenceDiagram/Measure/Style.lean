import SequenceDiagram.Binary32.Decimal
import SequenceDiagram.Text.Display

namespace SequenceDiagram

/-!
# Text widths

* A `TextMeasure` gives each text a width in each of the three styles that a diagram uses.
* `approximateMeasure ratio` counts characters: each takes the same part of the font size, whatever
  the font, and bold text is a twentieth wider.
-/

/-- The style that a piece of text is drawn with. -/
inductive TextStyle where
  | participant
  | messageContent
  | fragmentCondition
  deriving DecidableEq

namespace TextStyle

/-- The font size of the style. -/
def fontSize : TextStyle → Binary32
  | participant => 14
  | messageContent => 13
  | fragmentCondition => 12

/-- How much wider than plain text the style is: only participants are bold. -/
def boldness : TextStyle → Binary32
  | participant => Decimal.toBinary32 ⟨false, 105, -2⟩
  | messageContent => 1
  | fragmentCondition => 1

end TextStyle

/-- The width of each text in each style. -/
abbrev TextMeasure := String → TextStyle → Binary32

/-- The part of the font size that a character takes unless another is asked for. -/
def defaultCharRatio : Binary32 := Decimal.toBinary32 ⟨false, 6, -1⟩

/-- Widths that only depend on how many characters are left of the text after `sanitize`. -/
def approximateMeasure (ratio : Binary32) : TextMeasure := fun text style =>
  .ofNat (sanitizedLength text) * style.fontSize * ratio * style.boldness

end SequenceDiagram
