import SequenceDiagram.Binary32.Shortest
import SequenceDiagram.Json.Value
import SequenceDiagram.Layout.Diagram

namespace SequenceDiagram

/-!
# Layouts as JSON

`DiagramLayout.toJson` is the form in which a layout is handed on. A number that is not finite is
null, and what a message or a lifeline does not have is left out.
-/

namespace JsonValue

/-- A natural number. -/
def ofNat (n : Nat) : JsonValue := .number (toString n)

/-- A number, or null if it is not finite. -/
def ofBinary32 (x : Binary32) : JsonValue :=
  match x.toJson? with
  | some text => .number text
  | none => .null

end JsonValue

open JsonValue

/-- A lifeline in the order, with its label if it has one. -/
def OrderedParticipant.toJson (p : OrderedParticipant) : JsonValue :=
  .object ([("name", .string p.name), ("left", .string p.left)] ++
    p.label.toList.map fun label => ("label", .string label))

/-- A lifeline in its place, without its name. -/
def Lifeline.toJson (l : Lifeline) : JsonValue :=
  .object [("center", ofBinary32 l.center),
    ("width", ofBinary32 l.box.width),
    ("label_width", ofBinary32 l.box.labelWidth),
    ("activation_reserve", ofBinary32 l.box.activationReserve),
    ("self_call_reach", ofBinary32 l.selfCallReach)]

/-- The lifelines, by their names. -/
def Coordinates.toJson (c : Coordinates) : JsonValue :=
  .object (c.lifelines.map fun l => (l.name, l.toJson))

/-- Where an arrow lies. -/
def Arrow.toJson (a : Arrow) : JsonValue :=
  .object [("is_self", .bool a.isSelf),
    ("right_to_left", .bool a.rightToLeft),
    ("interaction_width", ofBinary32 a.width),
    ("translate_x", ofBinary32 a.translation),
    ("origin_layers", ofNat a.originLayers),
    ("source_layers", ofNat a.sourceLayers),
    ("target_layers", ofNat a.targetLayers)]

/-- Where a bar lies. -/
def Occurrence.toJson (o : Occurrence) : JsonValue :=
  .object [("layer", ofNat o.layer), ("left", ofBinary32 o.left), ("right", ofBinary32 o.right)]

/-- A message in its place, with its bar if it opens one. -/
def MessageLayout.toJson (m : MessageLayout) : JsonValue :=
  .object ([("id", ofNat m.id),
    ("kind", .string m.kind.name),
    ("from", .string m.sender),
    ("to", .string m.receiver),
    ("signature", .string m.signature),
    ("arrow", m.arrow.toJson)] ++
    m.occurrence.toList.map fun o => ("occurrence", o.toJson))

/-- Where the box of a fragment lies. -/
def FragmentBox.toJson (b : FragmentBox) : JsonValue :=
  .object [("left", ofBinary32 b.left),
    ("right", ofBinary32 b.right),
    ("width", ofBinary32 b.width),
    ("offset_x", ofBinary32 b.offset),
    ("padding_left", ofBinary32 b.paddingLeft),
    ("min_width", ofBinary32 b.minWidth)]

/-- A fragment in its place. -/
def FragmentLayout.toJson (f : FragmentLayout) : JsonValue :=
  .object [("id", ofNat f.id),
    ("kind", .string f.kind.name),
    ("origin", .string f.origin),
    ("condition_width", ofBinary32 f.conditionWidth),
    ("bounds", f.box.toJson)]

/-- What has no place, and where it stands in the source. -/
def Diagnostic.toJson (d : Diagnostic) : JsonValue :=
  .object [("line", ofNat d.line),
    ("column", ofNat d.column),
    ("message", .string d.reason.message)]

/-- The layout as it is handed on. -/
def DiagramLayout.toJson (l : DiagramLayout) : JsonValue :=
  .object [("version", ofNat l.version),
    ("participants", .array (l.participants.map (·.toJson))),
    ("coordinates", l.coordinates.toJson),
    ("messages", .array (l.messages.map (·.toJson))),
    ("fragments", .array (l.fragments.map (·.toJson))),
    ("diagnostics", .array (l.diagnostics.map (·.toJson))),
    ("errors", .array (l.errors.map .string)),
    ("success", .bool l.success)]

end SequenceDiagram
