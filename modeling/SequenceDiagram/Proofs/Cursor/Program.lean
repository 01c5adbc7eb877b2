import SequenceDiagram.Proofs.Cursor.Head
import SequenceDiagram.Proofs.Cursor.Statements

namespace SequenceDiagram

open Syntax

/-!
# Programs on the tape

* `Tape.parse` reads a tape from its first lexeme on. It looks lexemes up by their numbers, cuts
  texts out of the source, and counts brackets.
* `parse_never_slips`: for every source it comes to an end without a slip, and gives the tree that
  `parse` gives.
-/

/-- Reads a program. -/
def Cursor.program : Cursor Program := do
  skipSeparators
  let head ← head
  let start ← here
  let statements ← statements false ((← remaining) + 1)
  let span ← spanSince start
  let size ← look fun t => .ok t.source.utf8ByteSize
  return { head := head, block := .present statements span, span := ⟨0, size, 1, 0⟩ }

/-- The syntax tree of the source of a tape. -/
def Tape.parse (t : Tape) : Except Slip Program := Prod.fst <$> Cursor.program t 0

namespace Cursor

/-- A program is read up to the last lexeme. -/
theorem follows_program (source : String) (bound : Nat) :
    Follows source bound program (lex source) (parse source, []) := by
  have hread := readsAll_ofLexemes (stopOf source) false ((bodyLexemes source).length + 1)
    (bodyLexemes source) (Nat.lt_succ_self _)
  have hend := hread.stops.resolve_right fun h => nomatch h.1
  have hprogram : Follows source bound program (lex source) (parse source,
      (Statements.ofLexemes (stopOf source) false ((bodyLexemes source).length + 1)
        (bodyLexemes source)).2) := by
    refine (follows_skipSeparators _).bind fun _ => (follows_head _).bind fun _ => ?_
    refine (follows_here _).bind fun _ => (follows_remaining _).bind fun _ => ?_
    refine ((follows_statements _ false _).of_le (Nat.le_refl _)).bind fun hrest => ?_
    refine (follows_spanSince (bodyLexemes source) (bodyLexemes_suffix source) hrest).bind
      fun _ => ?_
    exact (follows_look _ fun _ => rfl).bind fun _ => .pure _
  rwa [hend] at hprogram

end Cursor

/-- **No source makes the reader slip.** A counter that is to go down is not zero, a lexeme that is
    looked up by its number is there, and a text that is cut out of the source lies between two
    characters of it: each of the operations breaks off if that is not so, and from no source does
    the reader break off. -/
theorem parse_never_slips :
    (∀ depth, (decrement depth).isOk = true ↔ 0 < depth) ∧
    (∀ (t : Tape) (number : Nat), (t.mark number).isOk = true ↔ number < t.marks.length) ∧
    (∀ (t : Tape) (start stop : Nat), (t.slice start stop).isOk = true ↔
      start ≤ stop ∧ stop ≤ t.source.utf8ByteSize ∧
        String.Pos.Raw.IsValid t.source ⟨start⟩ ∧ String.Pos.Raw.IsValid t.source ⟨stop⟩) ∧
    ∀ source, (Tape.of source).parse = .ok (parse source) := by
  refine ⟨isOk_decrement, Tape.isOk_mark, Tape.isOk_slice, fun source => ?_⟩
  have hstart : place source (lex source) = 0 := Nat.sub_self _
  have hrun := (Cursor.follows_program source _ (List.suffix_refl _) (Nat.le_refl _)).1
  rw [hstart] at hrun
  rw [Tape.parse, hrun]
  rfl

end SequenceDiagram
