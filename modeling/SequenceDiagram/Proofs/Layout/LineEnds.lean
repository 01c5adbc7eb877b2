import SequenceDiagram.Proofs.Layout.Likeness
import SequenceDiagram.Proofs.Source.Lookahead
import SequenceDiagram.Proofs.Syntax.Simulation

namespace SequenceDiagram

/-!
# Line ends do not matter

With a carriage return before every newline a source has the same layout.

* `linesAlike_lexFrom_crlf`: its lexemes are alike. A carriage return ends up in the gap before a newline, or
  at the end of a quoted text that the line cuts off.
* `closeTexts_crlf`: the texts of guards and arguments differ in carriage returns before newlines.
* `line_ends_do_not_matter` puts this together with `alike_parse` and `computeLayout_congr`.
-/

/-! ### Carriage returns in a source -/

/-- The characters with a carriage return before every newline. -/
def crlfChars (cs : List Char) : List Char :=
  cs.flatMap fun c => if c = '\n' then ['\r', '\n'] else [c]

/-- The source with a carriage return before every newline. -/
def crlf (source : String) : String := String.ofList (crlfChars source.toList)

theorem crlfChars_newline (cs : List Char) :
    crlfChars ('\n' :: cs) = '\r' :: '\n' :: crlfChars cs := rfl

theorem crlfChars_cons {c : Char} (hc : c ≠ '\n') (cs : List Char) :
    crlfChars (c :: cs) = c :: crlfChars cs := by
  rw [crlfChars, List.flatMap_cons, if_neg hc]
  rfl

theorem crlfChars_append {taken : List Char} (h : '\n' ∉ taken) (rest : List Char) :
    crlfChars (taken ++ rest) = taken ++ crlfChars rest := by
  induction taken with
  | nil => rfl
  | cons c taken ih =>
    rw [List.mem_cons, not_or] at h
    rw [List.cons_append, crlfChars_cons (Ne.symm h.1), ih h.2, List.cons_append]

theorem ahead_crlfChars (cs : List Char) : ahead cs = ahead (crlfChars cs) := by
  cases cs with
  | nil => rfl
  | cons c cs =>
    by_cases hc : c = '\n'
    · subst hc
      rfl
    · rw [crlfChars_cons hc]
      rfl

/-- A lexeme sees no carriage return behind it. -/
theorem sameAhead_crlfChars (cs : List Char) : SameAhead cs (crlfChars cs) where
  first := ahead_crlfChars cs
  second h := by
    cases cs with
    | nil => cases h
    | cons c cs =>
      have hc : c ≠ '\n' := by
        rintro rfl
        cases h
      rw [crlfChars_cons hc]
      exact ahead_crlfChars cs

/-! ### The lexemes -/

/-- At the end of a line, the gap may have one carriage return more. -/
def MoreReturn (gap other : List Char) : Prop := other = gap ∨ other = gap ++ ['\r']

theorem endsLine_newline (p : Position) (rest : List Char) :
    EndsLine (lexFrom p [] ('\n' :: rest)) := by
  rw [lexFrom_newline]
  exact ⟨_, _, rfl, rfl, rfl, rfl⟩

/-- A carriage return is passed over. -/
theorem lexFrom_return (p : Position) (gap rest : List Char) :
    lexFrom p gap ('\r' :: rest) = lexFrom (p.next '\r') (gap ++ ['\r']) rest :=
  lexFrom_blank p gap (by decide) (by decide) rest

/-- With a carriage return before its end, a line is passed over as without. -/
theorem lexFrom_comment_crlf (p : Position) (gap : List Char) {body rest : List Char}
    (hbody : '\n' ∉ body) (hrest : LineEnd rest) :
    lexFrom p gap ('/' :: '/' :: (body ++ crlfChars rest)) =
      lexFrom (p.after ('/' :: '/' :: body)) (gap ++ '/' :: '/' :: body) (crlfChars rest) := by
  rcases hrest with rfl | ⟨more, rfl⟩
  · exact lexFrom_comment p gap hbody (.inl rfl)
  · have hreturn : '\n' ∉ body ++ ['\r'] := by
      rw [List.mem_append, List.mem_singleton, not_or]
      exact ⟨hbody, by decide⟩
    have hcomment := lexFrom_comment p gap hreturn (.inr ⟨crlfChars more, rfl⟩)
    rw [List.append_assoc] at hcomment
    rw [crlfChars_newline, lexFrom_return]
    refine hcomment.trans ?_
    have hafter : p.after ('/' :: '/' :: (body ++ ['\r'])) =
        (p.after ('/' :: '/' :: body)).next '\r' := by
      rw [← List.cons_append, ← List.cons_append, Position.after_append]
      rfl
    rw [hafter]
    simp

/-- A quoted text that has no closing quote takes the carriage return at the end of its line. -/
theorem lexFrom_quoted_return (p : Position) (gap : List Char) {taken : List Char}
    (htaken : ∀ c ∈ taken, isQuotable c = true) (more : List Char) :
    lexFrom p gap ('"' :: (taken ++ '\r' :: '\n' :: more)) =
      ⟨.quoted, gap, '"' :: taken ++ ['\r'], Span.ofText p ('"' :: taken ++ ['\r'])⟩ ::
        lexFrom ((p.after ('"' :: taken)).next '\r') [] ('\n' :: more) := by
  have hbody : ∀ c ∈ taken ++ ['\r'], isQuotable c = true := by
    intro c hc
    rcases List.mem_append.mp hc with hc | hc
    · exact htaken c hc
    · rw [List.mem_singleton.mp hc]
      decide
  have hat := lexemeAt_of_lineEnd hbody (.inr ⟨more, rfl⟩)
  have hlexeme := lexFrom_lexeme p gap (by decide) (by rfl) hat
  have hafter : p.after ('"' :: (taken ++ ['\r'])) = (p.after ('"' :: taken)).next '\r' := by
    rw [← List.cons_append, Position.after_append]
    rfl
  rw [List.append_assoc, hafter] at hlexeme
  exact hlexeme

/-- A newline may have lost the carriage return before it to a quoted text. -/
theorem LinesAlike.of_return {p q : Position} {rest other : List Char}
    (h : LinesAlike MoreReturn (lexFrom p [] ('\n' :: rest)) (lexFrom q [] ('\r' :: '\n' :: other))) :
    LinesAlike MoreReturn (lexFrom p [] ('\n' :: rest)) (lexFrom (q.next '\r') [] ('\n' :: other)) := by
  rw [lexFrom_return, lexFrom_newline, lexFrom_newline] at h
  rw [lexFrom_newline, lexFrom_newline]
  cases h with
  | lexeme _ hline => exact absurd rfl hline
  | cut _ hl => cases hl
  | newline hl hm _ hltext hmtext hline h =>
    exact .newline hl hm (.inl rfl) hltext hmtext hline h

/-- With carriage returns the lexemes are alike. -/
theorem linesAlike_lexFrom_crlf (p q : Position) (gap cs : List Char) (hline : p.line = q.line)
    (hcolumn : p.column = q.column) :
    LinesAlike MoreReturn (lexFrom p gap cs) (lexFrom q gap (crlfChars cs)) := by
  induction scanned cs generalizing p q gap with
  | nil =>
    rw [crlfChars, List.flatMap_nil, lexFrom_nil, lexFrom_nil]
    exact .nil
  | @blank c rest hc hne _ ih =>
    rw [crlfChars_cons hne, lexFrom_blank p gap hc hne, lexFrom_blank q gap hc hne]
    exact ih _ _ _ (Position.line_next hline c) (Position.column_next hcolumn c)
  | @comment body rest hbody hrest _ ih =>
    rw [crlfChars_cons (by decide), crlfChars_cons (by decide), crlfChars_append hbody,
      lexFrom_comment p gap hbody hrest, lexFrom_comment_crlf q gap hbody hrest]
    exact ih _ _ _ (Position.line_after hline _) (Position.column_after hcolumn _)
  | @newline rest _ ih =>
    rw [crlfChars_newline, lexFrom_return, lexFrom_newline, lexFrom_newline]
    refine .newline rfl rfl (.inr rfl) rfl rfl (hline.trans rfl) (ih _ _ _ ?_ ?_)
    · exact Position.line_next (hline.trans rfl) '\n'
    · rfl
  | @lexeme kind c taken rest hc hblank hcomment hat _ ih =>
    obtain ⟨hnewline, hcases⟩ := lexemeAt_congr hc hat
    have hrest := ih (p.after (c :: taken)) (q.after (c :: taken)) [] (Position.line_after hline _)
      (Position.column_after hcolumn _)
    rw [crlfChars_cons hc, crlfChars_append hnewline, lexFrom_lexeme p gap hblank hcomment hat]
    -- a quoted text at the end of its line takes the carriage return
    have hcut : lexemeAt c (taken ++ crlfChars rest) = (kind, taken.length) ∨
        c = '"' ∧ kind = .quoted ∧ (∀ d ∈ taken, isQuotable d = true) ∧
          ∃ more, rest = '\n' :: more := by
      rcases hcases with hsame | ⟨hquote, hkind, hbody, rfl | hmore⟩
      · exact .inl (hsame _ (sameAhead_crlfChars rest))
      · exact .inl hat
      · exact .inr ⟨hquote, hkind, hbody, hmore⟩
    rcases hcut with hat' | ⟨rfl, hkind, hbody, more, rfl⟩
    · have hcomment' : startsComment c (taken ++ crlfChars rest) = false := by
        rw [← crlfChars_append hnewline, ← (sameAhead_crlfChars (taken ++ rest)).startsComment c,
          hcomment]
      rw [lexFrom_lexeme q gap hblank hcomment' hat']
      exact .lexeme rfl (kind_of_lexemeAt hc hat) rfl rfl ⟨hline, hcolumn⟩ hrest
    · rw [crlfChars_newline, lexFrom_quoted_return q gap hbody]
      exact .cut (.inr rfl) hkind rfl rfl rfl ⟨hline, hcolumn⟩ (endsLine_newline _ _)
        (endsLine_newline _ _) (.of_return hrest)

/-! ### Texts over several lines -/

/-- What stands in front of two texts is the same. -/
theorem Returned.of_append_left (front : List Char) {cs ds : List Char}
    (h : Returned (front ++ cs) (front ++ ds)) : Returned cs ds := by
  induction front with
  | nil => exact h
  | cons c front ih =>
    cases h with
    | cons _ h => exact ih h

/-- The characters of some lexemes differ in carriage returns before newlines, unless a newline comes
    next. -/
theorem LinesAlike.returned {taken other rest behind : List Lexeme}
    (h : LinesAlike MoreReturn (taken ++ rest) (other ++ behind))
    (hlength : taken.length = other.length) (hrest : Scan.startsWith .newline rest = false) :
    Returned (taken.flatMap Lexeme.chars) (other.flatMap Lexeme.chars) := by
  induction taken generalizing other with
  | nil =>
    obtain rfl := List.length_eq_zero_iff.mp hlength.symm
    exact .nil
  | cons l ls ih =>
    cases other with
    | nil => cases hlength
    | cons m ms =>
      have hlength := Nat.succ.inj hlength
      rw [List.flatMap_cons, List.flatMap_cons, Lexeme.chars, Lexeme.chars]
      cases h with
      | lexeme _ _ hgap htext _ h =>
        rw [hgap, htext]
        exact (Returned.refl _).append (ih h hlength)
      | cut _ _ _ hgap htext _ hls hms h =>
        have htail := ih h hlength
        cases ls with
        | nil =>
          -- the newline that ends the line would come next
          obtain ⟨nl, more, rfl, hnl, -⟩ := hls
          rw [Scan.startsWith_iff.mpr ⟨nl, more, rfl, hnl⟩] at hrest
          cases hrest
        | cons nl ls =>
          cases ms with
          | nil => cases hlength
          | cons nm ms =>
            obtain ⟨_, _, heq, -, hgapl, htextl⟩ := hls
            obtain ⟨rfl, -⟩ := List.cons.inj heq
            obtain ⟨_, _, heq, -, hgapm, htextm⟩ := hms
            obtain ⟨rfl, -⟩ := List.cons.inj heq
            rw [List.flatMap_cons, List.flatMap_cons, Lexeme.chars, Lexeme.chars, hgapl, htextl,
              hgapm, htextm] at htail ⊢
            rw [hgap, htext]
            have hinsert := (Returned.refl (m.gap ++ l.text)).append htail.insert
            simpa using hinsert
      | newline _ _ hgap hltext hmtext _ h =>
        refine .append ?_ (ih h hlength)
        rw [hltext, hmtext]
        rcases hgap with hgap | hgap <;> rw [hgap]
        · exact .refl _
        · rw [List.append_assoc]
          exact (Returned.refl _).append (.line .nil)

/-- The texts of guards and arguments look alike. -/
theorem closeTexts_crlf : CloseTexts MoreReturn LooksLike := by
  refine .of_cons (.refl "") fun l m ls ms rest behind h hlength hrest => Returned.looksLike ?_
  have hall : Returned ((l :: ls).flatMap Lexeme.chars) ((m :: ms).flatMap Lexeme.chars) :=
    LinesAlike.returned h (congrArg (· + 1) hlength) hrest
  rw [flatMap_chars_cons, flatMap_chars_cons] at hall
  cases h with
  | lexeme _ _ hgap =>
    rw [hgap] at hall
    exact hall.of_append_left
  | cut _ _ _ hgap =>
    rw [hgap] at hall
    exact hall.of_append_left
  | newline _ _ _ hltext hmtext _ h =>
    rw [hltext, hmtext]
    exact .cons '\n' (h.returned hlength hrest)

/-! ### Layouts -/

/-- **Line ends do not matter.** With a carriage return before every newline, a source has the same
    layout, down to the lines and columns of what was not understood or has no place. -/
theorem line_ends_do_not_matter (measure : TextMeasure) (config : LayoutConfig) (source : String)
    (version : Nat) (starter : Option String) :
    computeLayout measure config (crlf source) version starter =
      computeLayout measure config source version starter := by
  have hlexemes : LinesAlike MoreReturn (lex source) (lex (crlf source)) := by
    unfold lex crlf
    rw [String.toList_ofList]
    exact linesAlike_lexFrom_crlf .start .start [] source.toList rfl rfl
  exact (computeLayout_congr (alike_parse closeTexts_crlf hlexemes) measure config version
    starter).symm

end SequenceDiagram
