import SequenceDiagram.Proofs.Layout.Account
import SequenceDiagram.Proofs.Source.Positions
import SequenceDiagram.Proofs.Syntax.ReadOff
import SequenceDiagram.Proofs.Syntax.Simulation
import SequenceDiagram.Proofs.Syntax.Tiling

namespace SequenceDiagram

open Syntax

/-!
# Reported positions are true

Errors and diagnostics carry a line and a column from the syntax tree. They are those of the first
byte of the statement in question.

* `located_of_readOff`: whatever the tree of a source keeps, and is not empty, is located in it.
* `Spanned` says that statements and their constructs have the same spans, at every depth; the
  statements of a source are (`spanned_parse`).
* `exists_statement_of_place`: every node of a document has the span of a statement.
* `reported_positions_are_true` is the result.
-/

/-! ### The syntax tree -/

/-- What was read off the lexemes of a source, and is not empty, is located in it. -/
theorem located_of_readOff {source : String} {p : Piece}
    (h : p.From (endOfInput source (lex source)) (lex source)) (hne : p.span.start ≠ p.span.stop) :
    p.span.Located source := by
  -- without lexemes there is only an empty span
  have hspan : ∀ {taken rest : List Lexeme}, taken ++ rest <:+ lex source →
      (Scan.spanOf (endOfInput source (lex source)) taken rest).start ≠
        (Scan.spanOf (endOfInput source (lex source)) taken rest).stop →
      (Scan.spanOf (endOfInput source (lex source)) taken rest).Located source := by
    intro taken rest hsuffix hne
    obtain ⟨before, hbefore⟩ := hsuffix
    rw [← List.append_assoc] at hbefore
    cases taken with
    | nil => cases rest <;> exact absurd rfl hne
    | cons l ls => exact located_spanOf hbefore.symm (List.cons_ne_nil l ls) _ _
  cases h with
  | word hl => exact (lexeme_located hl).1
  | text htaken => exact hspan htaken hne
  | place htaken => exact hspan htaken hne

/-- All places in a syntax tree. -/
def Syntax.Program.spans (p : Program) : List Span := p.span :: p.pieces.map (·.span)

/-- **Every place in the tree of a source that is not empty is located.** -/
theorem spans_parse_located (source : String) :
    ∀ s ∈ (parse source).spans, s.start ≠ s.stop → s.Located source := by
  intro s hs hne
  rcases List.mem_cons.mp hs with rfl | hs
  · -- the whole source starts at its start
    refine ⟨"", "", source, ?_, .inl rfl, by simp, ?_, ?_, ?_⟩
    · simp
    · rfl
    · rfl
    · rfl
  · obtain ⟨p, hp, rfl⟩ := List.mem_map.mp hs
    exact located_of_readOff (readOff_parse source p hp) hne

/-! ### Statements and their constructs -/

/-- A statement of a source, at any depth, was read from some of its lexemes in a row. -/
theorem readIn_parse {source : String} {t : Statement} (ht : t.In (parse source).statements) :
    ReadIn (lex source) t :=
  ((readsAll_ofLexemes (endOfInput source (lex source)) false ((bodyLexemes source).length + 1)
    (bodyLexemes source) (Nat.lt_succ_self _)).inside t ht).of_suffix (bodyLexemes_suffix source)

/-- A statement of a source is located, and it is not empty. -/
theorem statement_located {source : String} {t : Statement}
    (ht : t.In (parse source).statements) :
    t.span.Located source ∧ t.span.start < t.span.stop := by
  obtain ⟨before, taken, after, hlex, hread⟩ := readIn_parse ht
  have hstand := standFrom_lex source
  rw [← hlex, standFrom_append₃] at hstand
  rw [hread.span]
  exact ⟨located_spanOf hlex.symm hread.ne_nil _ _, (hstand.2.1.start_cover hread.ne_nil).2⟩

/-- At every depth, the construct of a statement spans the whole statement. -/
def Spanned (ss : List Statement) : Prop :=
  ∀ t : Statement, t.In ss → ∀ c, t.construct? = some c → c.span = t.span

theorem Spanned.nil : Spanned [] := fun t ht => absurd ht t.not_in_nil

theorem Spanned.cons {s : Statement} {ss : List Statement}
    (hs : ∀ c, s.construct? = some c → c.span = s.span)
    (hblocks : ∀ b ∈ s.blocks, Spanned b.statements) (h : Spanned ss) : Spanned (s :: ss) := by
  intro t ht
  rcases Statement.in_cons ht with rfl | ⟨b, hb, ht⟩ | ht
  · exact hs
  · exact hblocks b hb t ht
  · exact h t ht

/-- A construct and the statement that holds it were read from the same lexemes. -/
theorem span_statement (stop : Span) (body : List Lexeme → List Statement × List Lexeme)
    (s : List Lexeme) : ∀ c, (Statements.statement stop body s).1.construct? = some c →
      c.span = (Statements.statement stop body s).1.span := by
  intro c hc
  have hspan := span_construct? stop body s
  unfold Statements.statement at hc ⊢
  split at hc
  · next construct rest heq =>
    cases hc
    rw [heq] at hspan
    exact hspan c rfl
  · cases hc

theorem spanned_ofLexemes (stop : Span) (nested : Bool) (fuel : Nat) (s : List Lexeme) :
    Spanned (Statements.ofLexemes stop nested fuel s).1 := by
  -- on the bound: the others and every inner block have a smaller one
  induction fuel generalizing nested s with
  | zero => exact .nil
  | succ fuel ih =>
    have hbraces : InBraces Spanned (Statements.ofLexemes stop true fuel) := ⟨.nil, ih true⟩
    unfold Statements.ofLexemes
    dsimp only
    split
    · exact .nil
    · split
      · exact .nil
      · split
        · exact .cons (fun c hc => nomatch hc) (fun b hb => nomatch hb) (ih nested _)
        · exact .cons (span_statement stop _ _) (hbraces.statement stop _) (ih nested _)

theorem spanned_parse (source : String) : Spanned (parse source).statements :=
  spanned_ofLexemes (endOfInput source (lex source)) false ((bodyLexemes source).length + 1)
    (bodyLexemes source)

/-! ### Nodes and their statements -/

/-- A statement inside a statement at some depth stands at some depth as well. -/
theorem Syntax.Statement.In.trans {s t : Statement} {ss : List Statement} {b : Block}
    (hs : s.In ss) (hb : b ∈ s.blocks) (ht : t.In b.statements) : t.In ss := by
  induction hs with
  | here h => exact .inside h hb ht
  | inside hs hc _ ih => exact .inside hs hc ih

/-- The statements of a list that is entered stand at some depth in the program. -/
theorem Entered.forall_in {top ss : List Statement} {nodes ns : List Node} {inCall : Bool}
    (h : Entered top nodes inCall ss ns) : ∀ s ∈ ss, s.In top := by
  -- by induction on the way down: a body or a branch is a block of the statement around it
  induction h with
  | top => exact fun s hs => .here hs
  | call _ hmem ih =>
    intro s hs
    exact (ih _ (List.of_mem_zip hmem).1).trans List.mem_cons_self (.here hs)
  | creation _ hmem ih =>
    intro s hs
    exact (ih _ (List.of_mem_zip hmem).1).trans List.mem_cons_self (.here hs)
  | branch _ hmem hbranch ih =>
    intro s hs
    exact (ih _ (List.of_mem_zip hmem).1).trans
      (List.mem_map_of_mem (List.of_mem_zip hbranch).1) (.here hs)

/-- Where a node stands in the source. -/
def Node.source : Node → Span
  | .message m _ => m.source
  | .fragment f _ => f.source
  | .divider _ _ source => source
  | .rejected x => x.source

/-- What a construct stands for has its place. -/
theorem Syntax.Construct.Means.source_eq {c : Construct} {n : Node} (h : c.Means n) :
    n.source = c.span := by
  cases h with
  | call _ h => exact h
  | creation _ h => exact h
  | asyncMessage _ h => exact h
  | ret _ h => exact h
  | divider => rfl
  | reference _ h => exact h
  | block _ h => exact h

/-- A node has the place of the statement that it was made of, and if it was rejected, its text. -/
structure Node.IsAbout (n : Node) (t : Statement) : Prop where
  source_eq : n.source = t.span
  text_eq : ∀ x, n = .rejected x → x.text = t.text

theorem Syntax.Statement.Becomes.isAbout {inCall : Bool} {t : Statement} {n : Node}
    (h : t.Becomes inCall n) (hspan : ∀ c, t.construct? = some c → c.span = t.span) :
    n.IsAbout t := by
  refine ⟨?_, fun x hx => (h.kept x hx).2⟩
  by_cases hrejected : ∃ x, n = .rejected x
  · obtain ⟨x, rfl⟩ := hrejected
    exact (h.kept x rfl).1
  · -- the node stands for the construct, which spans the statement
    have haccepted := mt h.rejected_iff.mpr hrejected
    cases t with
    | unrecognized span text =>
      exact absurd (Statement.uninterpretable_unrecognized inCall span text) haccepted
    | recognized c span text =>
      have hmeans : c.Means n :=
        h.means c rfl (mt Statement.uninterpretable_recognized_iff.mpr haccepted)
      rw [hmeans.source_eq]
      exact hspan c rfl

/-- **Every node of a document is about a statement of its source**, which is located and not
    empty. -/
theorem exists_statement_of_place (source : String) (starter : Option String) :
    ∀ x ∈ (interpret (parse source) starter).document.places, ∃ t : Statement,
      t.In (parse source).statements ∧ x.node.IsAbout t := by
  intro x hx
  obtain ⟨inCall, ss, ns, hentered, hmem⟩ := Entered.covers (parse source) starter x hx
  obtain ⟨hlength, hbecomes⟩ := List.forall₂_iff_zip.mp
    (hentered.isReading (isReading_interpret (parse source) starter)).forall₂_becomes
  obtain ⟨t, hpair⟩ := exists_mem_zip hlength hmem
  have ht := hentered.forall_in t (List.of_mem_zip hpair).1
  exact ⟨t, ht, (hbecomes hpair).isAbout (spanned_parse source t ht)⟩

/-! ### The result -/

/-- The line and the column are those of the first byte of the statement. -/
def Syntax.Statement.StartsAt (source : String) (t : Statement) (line column : Nat) : Prop :=
  t.span.Located source ∧ t.span.start < t.span.stop ∧ line = t.span.line ∧ column = t.span.column

/-- What points at a node points at the first byte of the statement that the node is about. -/
theorem exists_startsAt (source : String) (starter : Option String) {x : Place}
    (hx : x ∈ (interpret (parse source) starter).document.places) :
    ∃ t : Statement, t.In (parse source).statements ∧ x.node.IsAbout t ∧
      t.StartsAt source x.node.source.line x.node.source.column := by
  obtain ⟨t, ht, habout⟩ := exists_statement_of_place source starter x hx
  obtain ⟨hlocated, hlt⟩ := statement_located ht
  rw [habout.source_eq]
  exact ⟨t, ht, habout, hlocated, hlt, rfl, rfl⟩

/-- **Reported positions are true positions.** The error of each rejected node starts with the line
    and the column of the first byte of the statement that the node is about. The diagnostic of each
    message or fragment that has no place has those of its own statement. In the syntax tree, every
    place that is not empty has the line and the column of its first byte. -/
theorem reported_positions_are_true (source : String) (starter : Option String) :
    let program := parse source
    let d := (interpret program starter).document
    List.Forall₂ (fun text x => ∃ t : Statement, t.In program.statements ∧
        (Node.rejected x).IsAbout t ∧ ∃ line column, t.StartsAt source line column ∧
          text = toString line ++ ":" ++ toString column ++ " " ++ x.reason.message)
      (interpret program starter).errors d.rejections ∧
    (∀ measure config version,
      let l := computeLayout measure config source version starter
      ∃ forMessages forFragments, l.diagnostics = forMessages ++ forFragments ∧
        Dealt MessageLayout.Keeps (fun m e => ∃ t : Statement, t.In program.statements ∧
          m.source = t.span ∧ t.StartsAt source e.line e.column) d.messages l.messages
          forMessages ∧
        Dealt FragmentLayout.Keeps (fun f e => ∃ t : Statement, t.In program.statements ∧
          f.fragment.source = t.span ∧ t.StartsAt source e.line e.column) d.fragments l.fragments
          forFragments) ∧
    ∀ s ∈ program.spans, s.start ≠ s.stop → s.Located source := by
  intro program d
  refine ⟨?_, ?_, spans_parse_located source⟩
  · have herrors : (interpret program starter).errors = d.rejections.map fun x => x.fault.text := by
      show (interpret program starter).faults.map _ = _
      rw [faults_interpret, List.map_map]
      rfl
    rw [herrors, List.forall₂_map_left_iff, List.forall₂_same]
    intro x hx
    obtain ⟨y, hy, hnode⟩ := List.mem_filterMap.mp hx
    obtain ⟨t, ht, habout, hstarts⟩ := exists_startsAt source starter hy
    rw [Node.rejected?_eq_some.mp hnode] at habout hstarts
    exact ⟨t, ht, habout, _, _, hstarts, rfl⟩
  · intro measure config version l
    obtain ⟨forMessages, forFragments, hdiagnostics, hmessages, hfragments⟩ :=
      exists_dealt measure config source version starter
    refine ⟨forMessages, forFragments, hdiagnostics, hmessages.imp ?_, hfragments.imp ?_⟩
    · intro m hm e ⟨hline, hcolumn⟩
      obtain ⟨x, hx, body, hnode⟩ := Document.exists_place_of_mem_messages hm
      obtain ⟨t, ht, habout, hstarts⟩ := exists_startsAt source starter hx
      rw [hnode] at habout hstarts
      rw [hline, hcolumn]
      exact ⟨t, ht, habout.source_eq, hstarts⟩
    · intro f hf e ⟨hline, hcolumn⟩
      obtain ⟨x, hx, hnode⟩ := Document.exists_place_of_mem_fragments hf
      obtain ⟨t, ht, habout, hstarts⟩ := exists_startsAt source starter hx
      rw [hnode] at habout hstarts
      rw [hline, hcolumn]
      exact ⟨t, ht, habout.source_eq, hstarts⟩

/-- Columns count bytes: the second statement starts behind a letter of two bytes. -/
example : (interpret (parse "A.m\n A.é; b =") none).errors =
    ["2:7 message has no method name"] := by
  decide +kernel

end SequenceDiagram
