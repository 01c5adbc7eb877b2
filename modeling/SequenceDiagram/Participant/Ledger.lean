import SequenceDiagram.Binary32.Basic
import SequenceDiagram.Source.Span

namespace SequenceDiagram

/-!
# The ledger of participants

A `Ledger` holds one record per name, in the order in which the names were first mentioned.

* `Ledger.add` merges a `Mention` into the record of its name. A flag that was once set stays set,
  a text or a width is replaced by a later one but never erased, and the places add up.
* `Ledger.names_add` says what an addition does to the names: a new one comes last.
-/

/-! ### Records -/

/-- A participant and all that is known about it. -/
structure Participant where
  name : String
  explicit : Bool
  isStarter : Bool
  label : Option String
  stereotype : Option String
  type : Option String
  color : Option String
  width : Option Binary32
  groupId : Option String
  /-- Every place where the name stands in the source, in increasing order. -/
  positions : List Span
  deriving DecidableEq

/-- What one place of the source says about a participant. -/
structure Mention where
  explicit : Bool := false
  isStarter : Bool := false
  label : Option String := none
  stereotype : Option String := none
  type : Option String := none
  color : Option String := none
  width : Option Binary32 := none
  groupId : Option String := none
  position : Option Span := none

/-- A mention that only says where the name stands. -/
def Mention.of (position : Span) : Mention := { position := some position }

/-- A text, unless it is missing or empty; then the one before. -/
def laterText (new old : Option String) : Option String :=
  match new.filter (· ≠ "") with
  | some text => some text
  | none => old

/-- A width, unless it is missing or not positive; then the one before. -/
def laterWidth (new old : Option Binary32) : Option Binary32 :=
  match new.filter fun w => (0 : Binary32) < w with
  | some width => some width
  | none => old

/-- Adds a place to places in increasing order, once. -/
def insertSpan (s : Span) : List Span → List Span
  | [] => [s]
  | t :: rest =>
    if s = t then t :: rest
    else if s.before t then s :: t :: rest
    else t :: insertSpan s rest

namespace Participant

/-- A participant of which nothing is known but its name. -/
def named (name : String) : Participant :=
  ⟨name, false, false, none, none, none, none, none, none, []⟩

/-- The text in the participant's box. -/
def displayName (p : Participant) : String := p.label.getD p.name

/-- The record with one more mention. -/
def merge (p : Participant) (m : Mention) : Participant :=
  { name := p.name
    explicit := p.explicit || m.explicit
    isStarter := p.isStarter || m.isStarter
    label := laterText m.label p.label
    stereotype := laterText m.stereotype p.stereotype
    type := laterText m.type p.type
    color := laterText m.color p.color
    width := laterWidth m.width p.width
    groupId := laterText m.groupId p.groupId
    positions := match m.position with
      | some s => insertSpan s p.positions
      | none => p.positions }

@[simp] theorem name_merge (p : Participant) (m : Mention) : (p.merge m).name = p.name := rfl

@[simp] theorem name_named (name : String) : (named name).name = name := rfl

end Participant

/-! ### The ledger -/

/-- Records in the order of their first mention, one per name. -/
structure Ledger where
  entries : List Participant
  nodup : (entries.map (·.name)).Nodup

namespace Ledger

/-- The ledger without records. -/
def empty : Ledger := ⟨[], List.nodup_nil⟩

/-- The names, in the order of their first mention. -/
def names (ledger : Ledger) : List String := ledger.entries.map (·.name)

/-- The record of a name. -/
def get? (ledger : Ledger) (name : String) : Option Participant :=
  ledger.entries.find? (·.name = name)

/-- The first record that is marked as starter. -/
def starter? (ledger : Ledger) : Option Participant := ledger.entries.find? (·.isStarter)

/-- How many names there are. -/
def size (ledger : Ledger) : Nat := ledger.entries.length

/-- The records after one more mention of a name. -/
def entriesAfter (entries : List Participant) (name : String) (m : Mention) : List Participant :=
  if name ∈ entries.map (·.name) then
    entries.map fun p => if p.name = name then p.merge m else p
  else entries ++ [(Participant.named name).merge m]

theorem names_entriesAfter (entries : List Participant) (name : String) (m : Mention) :
    (entriesAfter entries name m).map (·.name) =
      if name ∈ entries.map (·.name) then entries.map (·.name)
      else entries.map (·.name) ++ [name] := by
  unfold entriesAfter
  split
  · rw [List.map_map]
    refine List.map_congr_left fun p _ => ?_
    simp only [Function.comp]
    split <;> simp
  · simp

/-- The ledger after one more mention of a name. -/
def add (ledger : Ledger) (name : String) (m : Mention) : Ledger where
  entries := entriesAfter ledger.entries name m
  nodup := by
    rw [names_entriesAfter]
    split
    · exact ledger.nodup
    · next h =>
      rw [List.nodup_append]
      refine ⟨ledger.nodup, by simp, fun a ha b hb => ?_⟩
      rw [List.mem_singleton] at hb
      subst hb
      rintro rfl
      exact h ha

theorem names_add (ledger : Ledger) (name : String) (m : Mention) :
    (ledger.add name m).names =
      if name ∈ ledger.names then ledger.names else ledger.names ++ [name] :=
  names_entriesAfter ledger.entries name m

end Ledger

end SequenceDiagram
