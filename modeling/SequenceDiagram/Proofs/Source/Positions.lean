import Mathlib.Data.List.Induction
import SequenceDiagram.Proofs.Source.Lexing

namespace SequenceDiagram

/-!
# Lines and columns

A position is carried along while the lexemes are read. Where it ends up does not depend on how the
source was cut into lexemes.

* `Span.Located source span`: the line and the column of the span are those of its first byte.
* `Position.after_start`: from the start of the source, the line counts the newlines that were
  passed, and the column the bytes behind the last one.
* `located_lexeme` and `located_spanOf`: the spans of lexemes, and of lexemes in a row, are located.
-/

/-! ### Positions behind some text -/

/-- The span starts behind some whole lines and the beginning of another one: its line is one more
    than the newlines before it, and its column counts the bytes of the line that was begun. -/
def Span.Located (source : String) (s : Span) : Prop :=
  ∃ lines begun rest : String, source = lines ++ begun ++ rest ∧
    (lines = "" ∨ ∃ text, lines = text ++ "\n") ∧ '\n' ∉ begun.toList ∧
    s.start = (lines ++ begun).utf8ByteSize ∧
    s.line = 1 + (lines ++ begun).toList.count '\n' ∧ s.column = begun.utf8ByteSize

/-- One more character takes its bytes. -/
theorem utf8ByteSize_ofList_append_singleton (cs : List Char) (c : Char) :
    (String.ofList (cs ++ [c])).utf8ByteSize = (String.ofList cs).utf8ByteSize + c.utf8Size := by
  rw [String.ofList_append, String.utf8ByteSize_append, ← String.singleton_eq_ofList,
    String.utf8ByteSize_singleton]

/-- **The line counts newlines, and the column the bytes behind the last one.** -/
theorem Position.after_start (cs : List Char) : ∃ lines begun, cs = lines ++ begun ∧
    (lines = [] ∨ ∃ text, lines = text ++ ['\n']) ∧ '\n' ∉ begun ∧
    (Position.start.after cs).line = 1 + cs.count '\n' ∧
    (Position.start.after cs).column = (String.ofList begun).utf8ByteSize := by
  -- by induction on the text from its end: the last character moves the position last
  induction cs using List.reverseRecOn with
  | nil => exact ⟨[], [], rfl, .inl rfl, by simp, rfl, rfl⟩
  | append_singleton cs c ih =>
    obtain ⟨lines, begun, hcs, hlines, hbegun, hline, hcolumn⟩ := ih
    rw [Position.after_append, Position.after_cons, Position.after_nil, Position.next]
    by_cases hc : c = '\n'
    · subst hc
      refine ⟨cs ++ ['\n'], [], by simp, .inr ⟨cs, rfl⟩, by simp, ?_, rfl⟩
      rw [if_pos rfl, hline, List.count_append, List.count_singleton_self, Nat.add_assoc]
    · have hne : '\n' ≠ c := fun h => hc h.symm
      refine ⟨lines, begun ++ [c], by rw [hcs, List.append_assoc], hlines, ?_, ?_, ?_⟩
      · simp [hbegun, hne]
      · rw [if_neg hc, hline, List.count_append, List.count_singleton]
        simp [hc]
      · rw [if_neg hc, hcolumn, utf8ByteSize_ofList_append_singleton]

/-- A text that stands behind some other text is located there. -/
theorem located_ofText {source : String} {before text rest : List Char}
    (h : source.toList = before ++ text ++ rest) :
    (Span.ofText (Position.start.after before) text).Located source := by
  obtain ⟨lines, begun, hbefore, hlines, hbegun, hline, hcolumn⟩ := Position.after_start before
  have hall : String.ofList lines ++ String.ofList begun = String.ofList before := by
    rw [← String.ofList_append, ← hbefore]
  refine ⟨String.ofList lines, String.ofList begun, String.ofList (text ++ rest), ?_, ?_, ?_, ?_,
    ?_, hcolumn⟩
  · rw [hall, ← String.ofList_append, ← List.append_assoc, ← h, String.ofList_toList]
  · rcases hlines with rfl | ⟨text, rfl⟩
    · exact .inl rfl
    · exact .inr ⟨String.ofList text, String.ofList_append⟩
  · rwa [String.toList_ofList]
  · show (Position.start.after before).offset = _
    rw [Position.offset_after, hall]
    exact Nat.zero_add _
  · rw [hall, String.toList_ofList]
    exact hline

/-! ### Lexemes -/

section Lexemes

variable {source : String} {before taken after : List Lexeme}

/-- Some lexemes of a source in a row span text that stands behind the lexemes before them. -/
theorem exists_spanOf_eq (h : lex source = before ++ taken ++ after) (hne : taken ≠ []) :
    ∃ chars rest, source.toList = chars ++ Lexeme.textOf taken ++ rest ∧
      ∀ stop behind, Scan.spanOf stop taken behind =
        Span.ofText (Position.start.after chars) (Lexeme.textOf taken) := by
  obtain ⟨l, ls, rfl⟩ := List.exists_cons_of_ne_nil hne
  have hstand := standFrom_lex source
  rw [h, standFrom_append₃] at hstand
  obtain ⟨tail, htail⟩ := exists_flatMap_lex source
  rw [h, List.flatMap_append, List.flatMap_append, flatMap_chars_cons] at htail
  refine ⟨before.flatMap Lexeme.chars ++ l.gap, after.flatMap Lexeme.chars ++ tail, ?_, ?_⟩
  · rw [htail]
    simp only [List.append_assoc]
  · intro stop behind
    rw [hstand.2.1.spanOf_eq, Position.after_append]

theorem located_spanOf (h : lex source = before ++ taken ++ after) (hne : taken ≠ []) (stop : Span)
    (behind : List Lexeme) : (Scan.spanOf stop taken behind).Located source := by
  obtain ⟨chars, rest, hsource, hspan⟩ := exists_spanOf_eq h hne
  rw [hspan]
  exact located_ofText hsource

/-- A single lexeme spans itself. -/
theorem Scan.spanOf_singleton (stop : Span) (l : Lexeme) (behind : List Lexeme) :
    spanOf stop [l] behind = l.span := by
  rw [spanOf_cons, List.getLast_singleton]
  simp [Span.join]

/-- A lexeme of a source is located, not empty, and its text is what its span cuts out. -/
theorem lexeme_located {l : Lexeme} (hl : l ∈ lex source) :
    l.span.Located source ∧ l.span.start < l.span.stop ∧
      IsSlice source l.span (String.ofList l.text) := by
  obtain ⟨before, after, h⟩ := List.append_of_mem hl
  have h : lex source = before ++ [l] ++ after := by
    rw [h, List.append_assoc, List.singleton_append]
  have hlocated := located_spanOf h (List.cons_ne_nil l []) .nowhere []
  have hslice := isSlice_tokenOf h (List.cons_ne_nil l []) .nowhere []
  have htext : Lexeme.textOf [l] = l.text := List.append_nil l.text
  rw [Scan.spanOf_singleton] at hlocated hslice
  rw [htext] at hslice
  exact ⟨hlocated, ((standFrom_lex source).bounds hl).2.1, hslice⟩

end Lexemes

end SequenceDiagram
