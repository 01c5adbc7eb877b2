import SequenceDiagram.Participant.Context

namespace SequenceDiagram

/-!
# The order of the lifelines

From left to right:

* first the starter, if it was not declared; without a starter, the sentinel, if some message needs
  it;
* then the declared participants in the order of the ledger;
* then the others in the order of the ledger.
-/

/-- A lifeline and its neighbour. -/
structure OrderedParticipant where
  name : String
  /-- The name of the lifeline to the left; empty for the first. -/
  left : String
  label : Option String
  deriving DecidableEq

/-- The lifeline that stands before all declared ones. -/
def leadingName? (context : Context) : Option String :=
  match context.starter with
  | none => if context.implicitSender then some sentinel else none
  | some starter =>
    if (context.ledger.get? starter).any (·.explicit) then none else some starter

/-- The names of all lifelines from left to right. -/
def orderedNames (context : Context) : List String :=
  let lead := leadingName? context
  let entries := context.ledger.entries
  let declared := entries.filter (·.explicit) ++ entries.filter (!·.explicit)
  lead.toList ++ (declared.map (·.name)).filter fun name => some name ≠ lead

/-- Pairs each name with the one before it; `left` comes before the first. -/
def withLeft (left : String) : List String → List (String × String)
  | [] => []
  | name :: rest => (name, left) :: withLeft name rest

/-- The lifelines from left to right. -/
def orderParticipants (context : Context) : List OrderedParticipant :=
  (withLeft "" (orderedNames context)).map fun (name, left) =>
    ⟨name, left, (context.ledger.get? name).bind (·.label)⟩

/-- The place of a name among the lifelines. -/
def indexOf? (order : List OrderedParticipant) (name : String) : Option Nat :=
  order.findIdx? (·.name = name)

end SequenceDiagram
