import SequenceDiagram.Proofs.Syntax.Rest
import SequenceDiagram.Syntax.Program

namespace SequenceDiagram

/-!
# Where the lexemes of a source stand

The lexemes of a source, with the gaps between them, spell the source out, and their spans say where
each of them stands.

* `StandFrom p ls`: the lexemes `ls` stand one behind the other, from the position `p` on.
* `lex_standFrom` and `lex_spells`: the lexemes of a source do, and nothing but a last gap is left.
* `StandFrom.spanOf_eq`: some lexemes in a row span exactly their text.
* `IsSlice source span text`: the span cuts the text out of the source.
-/

/-! ### Lexemes one behind the other -/

/-- The gap before a lexeme and its text. -/
def Lexeme.chars (l : Lexeme) : List Char := l.gap ++ l.text

/-- The lexemes stand one behind the other, from a position on. -/
def StandFrom : Position → List Lexeme → Prop
  | _, [] => True
  | p, l :: rest =>
    l.text ≠ [] ∧ l.span = Span.ofText (p.after l.gap) l.text ∧ StandFrom (p.after l.chars) rest

theorem standFrom_lexFrom (p : Position) (gap cs : List Char) :
    StandFrom p (lexFrom (p.after gap) gap cs) := by
  generalize hq : p.after gap = q
  fun_induction lexFrom q gap cs generalizing p with
  | case1 => trivial
  | case2 q gap c rest hblank ih => exact ih p (by rw [Position.after_append, hq]; rfl)
  | case3 q gap c rest hblank hcomment comment ih => exact ih p (by rw [Position.after_append, hq])
  | case4 q gap c rest hblank hcomment kind length hat text ih =>
    refine ⟨List.cons_ne_nil _ _, by rw [hq], ?_⟩
    rw [Lexeme.chars, Position.after_append, hq]
    exact ih _ rfl

/-- The lexemes of a source stand one behind the other. -/
theorem standFrom_lex (source : String) : StandFrom .start (lex source) :=
  standFrom_lexFrom .start [] source.toList

theorem exists_flatMap_lexFrom (p : Position) (gap cs : List Char) :
    ∃ tail, gap ++ cs = (lexFrom p gap cs).flatMap Lexeme.chars ++ tail := by
  fun_induction lexFrom p gap cs with
  | case1 p gap => exact ⟨gap, List.append_nil _⟩
  | case2 p gap c rest hblank ih =>
    obtain ⟨tail, htail⟩ := ih
    exact ⟨tail, by rw [← htail, List.append_assoc]; rfl⟩
  | case3 p gap c rest hblank hcomment comment ih =>
    obtain ⟨tail, htail⟩ := ih
    refine ⟨tail, ?_⟩
    rw [← htail, List.append_assoc, List.cons_append, List.takeWhile_append_dropWhile]
  | case4 p gap c rest hblank hcomment kind length hat text ih =>
    obtain ⟨tail, htail⟩ := ih
    refine ⟨tail, ?_⟩
    rw [List.flatMap_cons, List.append_assoc, ← htail]
    simp [Lexeme.chars, text]

/-- The lexemes of a source and their gaps are the source, up to a last gap. -/
theorem exists_flatMap_lex (source : String) :
    ∃ tail, source.toList = (lex source).flatMap Lexeme.chars ++ tail :=
  exists_flatMap_lexFrom .start [] source.toList

theorem standFrom_append {p : Position} {ls ms : List Lexeme} :
    StandFrom p (ls ++ ms) ↔
      StandFrom p ls ∧ StandFrom (p.after (ls.flatMap Lexeme.chars)) ms := by
  induction ls generalizing p with
  | nil => simp [StandFrom]
  | cons l ls ih =>
    simp only [List.cons_append, StandFrom, ih, List.flatMap_cons, Position.after_append, and_assoc]

theorem standFrom_append₃ {p : Position} {ls ms ns : List Lexeme} :
    StandFrom p (ls ++ ms ++ ns) ↔ StandFrom p ls ∧
      StandFrom (p.after (ls.flatMap Lexeme.chars)) ms ∧
      StandFrom ((p.after (ls.flatMap Lexeme.chars)).after (ms.flatMap Lexeme.chars)) ns := by
  rw [standFrom_append, standFrom_append, List.flatMap_append, Position.after_append, and_assoc]

/-! ### Spans of lexemes -/

/-- One span lies inside another. -/
def Span.Within (s t : Span) : Prop := t.start ≤ s.start ∧ s.stop ≤ t.stop

theorem Position.offset_le_after (p : Position) (cs : List Char) :
    p.offset ≤ (p.after cs).offset := by
  have := length_add_offset_le p cs
  omega

namespace Position

variable {p q : Position}

/-- The line depends on nothing but the line before. -/
theorem line_next (h : p.line = q.line) (c : Char) : (p.next c).line = (q.next c).line := by
  unfold next
  split
  · exact congrArg (· + 1) h
  · exact h

/-- The column depends on nothing but the column before. -/
theorem column_next (h : p.column = q.column) (c : Char) :
    (p.next c).column = (q.next c).column := by
  unfold next
  split
  · rfl
  · exact congrArg (· + c.utf8Size) h

theorem line_after (h : p.line = q.line) (cs : List Char) :
    (p.after cs).line = (q.after cs).line := by
  induction cs generalizing p q with
  | nil => exact h
  | cons c cs ih => exact ih (line_next h c)

theorem column_after (h : p.column = q.column) (cs : List Char) :
    (p.after cs).column = (q.after cs).column := by
  induction cs generalizing p q with
  | nil => exact h
  | cons c cs ih => exact ih (column_next h c)

/-- Without a newline the line stays the same. -/
theorem line_after_of_not_mem {cs : List Char} (h : '\n' ∉ cs) : (p.after cs).line = p.line := by
  induction cs generalizing p with
  | nil => rfl
  | cons c cs ih =>
    rw [List.mem_cons, not_or] at h
    rw [after_cons, ih h.2, next, if_neg (Ne.symm h.1)]

end Position

namespace StandFrom

variable {p : Position} {ls : List Lexeme}

/-- A lexeme is not empty, and lies between the start and the end. -/
theorem bounds (h : StandFrom p ls) {l : Lexeme} (hl : l ∈ ls) :
    p.offset ≤ l.span.start ∧ l.span.start < l.span.stop ∧
      l.span.stop ≤ (p.after (ls.flatMap Lexeme.chars)).offset := by
  obtain ⟨before, after, rfl⟩ := List.append_of_mem hl
  obtain ⟨-, hne, hspan, -⟩ := standFrom_append.mp h
  have hpos := List.length_pos_iff.mpr hne
  have hstart := Position.offset_le_after p (before.flatMap Lexeme.chars ++ l.gap)
  have htext := length_add_offset_le (p.after (before.flatMap Lexeme.chars ++ l.gap)) l.text
  have hrest := Position.offset_le_after
    ((p.after (before.flatMap Lexeme.chars ++ l.gap)).after l.text) (after.flatMap Lexeme.chars)
  simp only [Position.after_append] at hstart htext hrest
  simp only [hspan, Span.ofText, List.flatMap_append, List.flatMap_cons, Lexeme.chars,
    Position.after_append]
  omega

/-- A lexeme ends before the next one starts. -/
theorem pairwise (h : StandFrom p ls) : ls.Pairwise fun l l' => l.span.stop ≤ l'.span.start := by
  induction ls generalizing p with
  | nil => exact .nil
  | cons l ls ih =>
    obtain ⟨-, hspan, hrest⟩ := h
    refine .cons (fun l' hl' => ?_) (ih hrest)
    have hstop : l.span.stop = (p.after l.chars).offset := by
      rw [hspan, Lexeme.chars, Position.after_append]
      rfl
    rw [hstop]
    exact (hrest.bounds hl').1

end StandFrom

theorem flatMap_chars_cons (l : Lexeme) (ls : List Lexeme) :
    (l :: ls).flatMap Lexeme.chars = l.gap ++ Lexeme.textOf (l :: ls) := by
  rw [List.flatMap_cons, Lexeme.chars, List.append_assoc]
  rfl

theorem Scan.spanOf_cons (stop : Span) (l : Lexeme) (ls rest : List Lexeme) :
    spanOf stop (l :: ls) rest = l.span.join ((l :: ls).getLast (List.cons_ne_nil l ls)).span := by
  unfold spanOf
  rw [List.getLast?_eq_some_getLast (List.cons_ne_nil l ls)]
  rfl

/-- Only for no lexemes does the span depend on what comes behind. -/
theorem Scan.spanOf_congr {taken : List Lexeme} (h : taken ≠ []) (stop stop' : Span)
    (rest rest' : List Lexeme) : spanOf stop taken rest = spanOf stop' taken rest' := by
  obtain ⟨l, ls, rfl⟩ := List.exists_cons_of_ne_nil h
  rw [spanOf_cons, spanOf_cons]

/-- The last lexeme ends where all of them end. -/
theorem StandFrom.stop_getLast {p : Position} {l : Lexeme} {ls : List Lexeme}
    (h : StandFrom p (l :: ls)) : ((l :: ls).getLast (List.cons_ne_nil l ls)).span.stop =
      (p.after ((l :: ls).flatMap Lexeme.chars)).offset := by
  induction ls generalizing p l with
  | nil =>
    rw [List.getLast_singleton, h.2.1]
    simp only [Span.ofText, List.flatMap_cons, List.flatMap_nil, List.append_nil, Lexeme.chars,
      Position.after_append]
  | cons m ms ih =>
    rw [List.getLast_cons (List.cons_ne_nil m ms), ih h.2.2, List.flatMap_cons (x := l),
      Position.after_append]

/-- Some lexemes in a row span exactly their text. -/
theorem StandFrom.spanOf_eq {p : Position} {l : Lexeme} {ls : List Lexeme}
    (h : StandFrom p (l :: ls)) (stop : Span) (rest : List Lexeme) :
    Scan.spanOf stop (l :: ls) rest = Span.ofText (p.after l.gap) (Lexeme.textOf (l :: ls)) := by
  have hlast := h.stop_getLast
  have hmem := List.getLast_mem (List.cons_ne_nil l ls)
  have hfirst := h.bounds List.mem_cons_self
  rw [flatMap_chars_cons, Position.after_append] at hlast hfirst
  -- the last lexeme is the first one, or stands behind it
  have hle : l.span.start ≤ ((l :: ls).getLast (List.cons_ne_nil l ls)).span.start := by
    rcases List.mem_cons.mp hmem with heq | hin
    · exact Nat.le_of_eq (congrArg (·.span.start) heq.symm)
    · have := (List.pairwise_cons.mp h.pairwise).1 _ hin
      omega
  rw [Scan.spanOf_cons, Span.join, if_pos hle, hlast, Nat.max_eq_right hfirst.2.2, h.2.1]
  rfl

/-! ### Slices of the source -/

/-- The text is what the span cuts out of the source. -/
def IsSlice (source : String) (span : Span) (text : String) : Prop :=
  ∃ before after, source = before ++ text ++ after ∧ span.start = before.utf8ByteSize ∧
    span.stop = span.start + text.utf8ByteSize

/-- Some lexemes of a source in a row, as a token, are a slice of the source. -/
theorem isSlice_tokenOf {source : String} {before taken after : List Lexeme}
    (h : lex source = before ++ taken ++ after) (hne : taken ≠ []) (stop : Span)
    (rest : List Lexeme) :
    IsSlice source (Scan.spanOf stop taken rest) (String.ofList (Lexeme.textOf taken)) := by
  obtain ⟨l, ls, rfl⟩ := List.exists_cons_of_ne_nil hne
  have hstand := standFrom_lex source
  rw [h, standFrom_append₃] at hstand
  rw [hstand.2.1.spanOf_eq, ← Position.after_append]
  obtain ⟨tail, htail⟩ := exists_flatMap_lex source
  rw [h, List.flatMap_append, List.flatMap_append, flatMap_chars_cons] at htail
  refine ⟨String.ofList (before.flatMap Lexeme.chars ++ l.gap),
    String.ofList (after.flatMap Lexeme.chars ++ tail), ?_, ?_, ?_⟩
  · rw [← String.ofList_append, ← String.ofList_append, ← String.ofList_toList (s := source), htail]
    simp only [List.append_assoc]
  · simp only [Span.ofText, Position.offset_after]
    exact Nat.zero_add _
  · simp only [Span.ofText, Position.offset_after]

end SequenceDiagram
