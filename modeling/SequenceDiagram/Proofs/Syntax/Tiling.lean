import Mathlib.Data.List.TakeWhile
import Mathlib.Logic.ExistsUnique
import SequenceDiagram.Proofs.Source.Lexing
import SequenceDiagram.Proofs.Syntax.Progress

namespace SequenceDiagram

open Syntax

/-!
# Statements tile their source

Reading drops nothing from a list of statements.

* `Tiling ls ss`: the lexemes `ls` are the statements `ss` one behind the other, with separators
  around them. `tiling_ofLexemes`: that is what a list of statements is read from.
* `ReadIn whole t`: the statement was read from some lexemes of `whole` in a row, and its blocks from
  lexemes in braces among them.
* `Tiles region ss`: the same in terms of spans. Every lexeme of the region that is no separator lies
  in exactly one statement.
* `nothing_is_dropped` says it of a whole source, at every depth.
-/

/-! ### Statements at every depth -/

/-- The statement stands among the statements, or at any depth inside one of them. -/
inductive Syntax.Statement.In (t : Statement) : List Statement → Prop where
  | here {ss : List Statement} (h : t ∈ ss) : t.In ss
  | inside {ss : List Statement} {s : Statement} {b : Block} (hs : s ∈ ss) (hb : b ∈ s.blocks)
    (h : t.In b.statements) : t.In ss

theorem Syntax.Statement.not_in_nil (t : Statement) : ¬t.In [] := by
  intro h
  cases h with
  | here h => cases h
  | inside hs => cases hs

theorem Syntax.Statement.in_cons {t first : Statement} {others : List Statement}
    (h : t.In (first :: others)) :
    t = first ∨ (∃ b ∈ first.blocks, t.In b.statements) ∨ t.In others := by
  cases h with
  | here h => exact (List.mem_cons.mp h).imp id fun h => .inr (.here h)
  | inside hs hb h =>
    rcases List.mem_cons.mp hs with rfl | hs
    · exact .inr (.inl ⟨_, hb, h⟩)
    · exact .inr (.inr (.inside hs hb h))

/-! ### Lexemes and the statements read from them -/

/-- What some lexemes in a row span; there is at least one. -/
def Scan.cover (taken : List Lexeme) : Span := spanOf .nowhere taken []

/-- What is read up to `rest` is covered by what was taken. -/
theorem Scan.spanUpTo_append (stop : Span) {taken : List Lexeme} (hne : taken ≠ [])
    (rest : List Lexeme) : spanUpTo stop (taken ++ rest) rest = cover taken := by
  rw [spanUpTo, upTo_append]
  exact spanOf_congr hne ..

/-- The lexemes are the statements, with separators around them. -/
inductive Tiling : List Lexeme → List Statement → Prop where
  | nil {gap : List Lexeme} (hgap : ∀ l ∈ gap, l.isSeparator = true) : Tiling gap []
  | cons {gap taken rest : List Lexeme} {t : Statement} {ts : List Statement}
    (hgap : ∀ l ∈ gap, l.isSeparator = true) (hne : taken ≠ []) (hspan : t.span = Scan.cover taken)
    (h : Tiling rest ts) : Tiling (gap ++ taken ++ rest) (t :: ts)

/-- The block was read from braces among the lexemes `taken`. Only the end of the input can take the
    place of its closing brace. -/
inductive Braced (taken after : List Lexeme) : Block → Prop where
  | closed {before inner behind : List Lexeme} {opening closing : Lexeme} {ss : List Statement}
    (htaken : taken = before ++ (opening :: inner ++ closing :: behind))
    (hopening : opening.kind = .openBrace) (hclosing : closing.kind = .closeBrace)
    (h : Tiling inner ss) :
    Braced taken after (.present ss (Scan.cover (opening :: inner ++ [closing])))
  | unclosed {before inner : List Lexeme} {opening : Lexeme} {ss : List Statement}
    (htaken : taken = before ++ (opening :: inner)) (hafter : after = [])
    (hopening : opening.kind = .openBrace) (h : Tiling inner ss) :
    Braced taken after (.present ss (Scan.cover (opening :: inner)))

/-- The statement was read from some of the lexemes in a row. -/
structure ReadFrom (taken after : List Lexeme) (t : Statement) : Prop where
  ne_nil : taken ≠ []
  span : t.span = Scan.cover taken
  text : t.text = String.ofList (Lexeme.textOf taken)
  block : ∀ b ∈ t.blocks, b = .missing ∨ Braced taken after b

/-- The statement was read from somewhere in a list of lexemes. -/
def ReadIn (whole : List Lexeme) (t : Statement) : Prop :=
  ∃ before taken after, before ++ taken ++ after = whole ∧ ReadFrom taken after t

theorem ReadIn.of_suffix {s whole : List Lexeme} {t : Statement} (h : ReadIn s t)
    (hs : s <:+ whole) : ReadIn whole t := by
  obtain ⟨before, taken, after, rfl, hread⟩ := h
  obtain ⟨front, rfl⟩ := hs
  exact ⟨front ++ before, taken, after, by simp only [List.append_assoc], hread⟩

/-! ### What a list of statements is read from -/

/-- The statements were read from the front of the lexemes `s`, and `rest` is left. A list in braces
    ends before a closing brace, every list ends at the end of the input. -/
structure ReadsAll (nested : Bool) (s rest : List Lexeme) (ss : List Statement) : Prop where
  region : ∃ region, region ++ rest = s ∧ Tiling region ss
  stops : rest = [] ∨ nested = true ∧ Scan.startsWith .closeBrace rest = true
  inside : ∀ t : Statement, t.In ss → ReadIn s t

namespace ReadsAll

variable {nested : Bool} {s rest : List Lexeme}

/-- Separators are all that was taken. -/
theorem of_skipSeparators (h : Scan.skipSeparators s = [] ∨
    nested = true ∧ Scan.startsWith .closeBrace (Scan.skipSeparators s) = true) :
    ReadsAll nested s (Scan.skipSeparators s) [] where
  region := ⟨s.takeWhile Lexeme.isSeparator, List.takeWhile_append_dropWhile,
    .nil fun _ hl => List.mem_takeWhile_imp hl⟩
  stops := h
  inside t ht := absurd ht t.not_in_nil

/-- Behind some separators stands a first statement, then come the others. -/
theorem cons {stop : Span} {body : List Lexeme → List Statement × List Lexeme}
    {taken between : List Lexeme} {t : Statement} {ts : List Statement}
    (happend : taken ++ between = Scan.skipSeparators s) (ht : Takes stop body taken between t)
    (hread : ReadFrom taken between t)
    (hblocks : ∀ b ∈ t.blocks, ∀ u : Statement, u.In b.statements →
      ReadIn (Scan.skipSeparators s) u)
    (h : ReadsAll nested between rest ts) : ReadsAll nested s rest (t :: ts) where
  region := by
    obtain ⟨region, hregion, htiling⟩ := h.region
    refine ⟨s.takeWhile Lexeme.isSeparator ++ taken ++ region, ?_,
      .cons (fun _ hl => List.mem_takeWhile_imp hl) ht.ne_nil hread.span htiling⟩
    rw [List.append_assoc, hregion, List.append_assoc, happend]
    exact List.takeWhile_append_dropWhile
  stops := h.stops
  inside u hu := by
    have hskip := Scan.skipSeparators_suffix s
    rcases Statement.in_cons hu with rfl | ⟨b, hb, hu⟩ | hu
    · exact ReadIn.of_suffix ⟨[], taken, between, happend, hread⟩ hskip
    · exact (hblocks b hb u hu).of_suffix hskip
    · exact (h.inside u hu).of_suffix (.trans ⟨taken, happend⟩ hskip)

end ReadsAll

/-- A block was read from braces: what its statements are read from stands between them. -/
theorem braced_block {stop : Span} {body : List Lexeme → List Statement × List Lexeme}
    {taken rest start : List Lexeme} (hstart : start <:+ taken ++ rest)
    (hbrace : Scan.startsWith .openBrace start = true)
    (hrest : rest <:+ (Statements.block stop body start).2)
    (hbody : ReadsAll true start.tail (body start.tail).2 (body start.tail).1) :
    Braced taken rest (Statements.block stop body start).1 := by
  obtain ⟨front, hfront⟩ := hstart
  obtain ⟨opening, tail, rfl, hopening⟩ := Scan.startsWith_iff.mp hbrace
  obtain ⟨⟨region, hregion, htiling⟩, hstops, -⟩ := hbody
  rw [List.tail_cons] at hregion htiling hstops
  unfold Statements.block at hrest ⊢
  rw [if_pos hbrace] at hrest ⊢
  dsimp only [List.tail_cons] at hrest ⊢
  rcases hstops with hnil | ⟨-, hclose⟩
  · -- the input ends inside the block
    rw [hnil] at hrest hregion ⊢
    have hrest : rest = [] := List.suffix_nil.mp hrest
    rw [List.append_nil] at hregion
    subst hrest hregion
    rw [List.append_nil] at hfront
    have hspan : Scan.spanUpTo stop (opening :: region) (Scan.skip .closeBrace []) =
        Scan.cover (opening :: region) := by
      have happend := Scan.spanUpTo_append stop (List.cons_ne_nil opening region) []
      rwa [List.append_nil] at happend
    rw [hspan]
    exact .unclosed hfront.symm rfl hopening htiling
  · obtain ⟨closing, last, hlast, hclosing⟩ := Scan.startsWith_iff.mp hclose
    have hskip : Scan.skip .closeBrace (body tail).2 = last := by
      rw [Scan.skip, if_pos hclose, hlast, List.tail_cons]
    rw [hskip] at hrest ⊢
    obtain ⟨behind, rfl⟩ := hrest
    have htail : opening :: tail = (opening :: region ++ [closing]) ++ (behind ++ rest) := by
      rw [← hregion, hlast]
      simp
    have hspan : Scan.spanUpTo stop (opening :: tail) (behind ++ rest) =
        Scan.cover (opening :: region ++ [closing]) := by
      rw [htail]
      exact Scan.spanUpTo_append stop (List.cons_ne_nil _ _) _
    have htaken : taken = front ++ (opening :: region ++ closing :: behind) := by
      refine (List.append_left_inj rest).mp ?_
      rw [← hfront, htail]
      simp
    rw [hspan]
    exact .closed htaken hopening hclosing htiling

/-- **A list of statements is read from lexemes that the statements tile**, up to the end of the
    input or up to the brace that closes the list. -/
theorem readsAll_ofLexemes (stop : Span) (nested : Bool) (fuel : Nat) (s : List Lexeme)
    (hfuel : s.length < fuel) : ReadsAll nested s (Statements.ofLexemes stop nested fuel s).2
      (Statements.ofLexemes stop nested fuel s).1 := by
  -- on the bound: the others and every inner block are read from fewer lexemes
  induction fuel generalizing nested s with
  | zero => omega
  | succ fuel ih =>
    have hlen := (Scan.skipSeparators_suffix s).length_le
    unfold Statements.ofLexemes
    dsimp only
    split
    · next hkind => exact .of_skipSeparators (.inl (Scan.kind?_eq_none.mp hkind))
    · next kind hkind =>
      obtain ⟨l, ls, hs, rfl⟩ := Scan.kind?_eq_some.mp hkind
      split
      · next hclose =>
        simp only [Bool.and_eq_true, decide_eq_true_eq] at hclose
        exact .of_skipSeparators (.inr ⟨hclose.2, by rw [Scan.startsWith, hkind, hclose.1]; simp⟩)
      · have hseparator : l.isSeparator = false := Scan.isSeparator_head hs
        have htakes : ∃ taken between t, taken ++ between = Scan.skipSeparators s ∧
            Takes stop (Statements.ofLexemes stop true fuel) taken between t ∧
            (if l.kind = .closeBrace then Statements.strayBraces stop (Scan.skipSeparators s)
              else Statements.statement stop (Statements.ofLexemes stop true fuel)
                (Scan.skipSeparators s)) = (t, between) := by
          rw [hs]
          split
          · next hbrace =>
            obtain ⟨taken, happend, ht⟩ := takes_strayBraces stop l ls hbrace
            exact ⟨taken, _, _, happend, ht, rfl⟩
          · next hbrace =>
            obtain ⟨taken, happend, ht⟩ := takes_statement stop
              (Statements.ofLexemes_suffix stop true fuel) l ls hseparator hbrace
            exact ⟨taken, _, _, happend, ht, rfl⟩
        obtain ⟨taken, between, t, happend, ht, heq⟩ := htakes
        rw [heq]
        dsimp only
        have hpos := List.length_pos_iff.mpr ht.ne_nil
        have hbetween := congrArg List.length happend
        rw [List.length_append] at hbetween
        -- the lists in the blocks of the first statement
        have hbody : ∀ start, start <:+ taken ++ between →
            Scan.startsWith .openBrace start = true → ReadsAll true start.tail
              (Statements.ofLexemes stop true fuel start.tail).2
              (Statements.ofLexemes stop true fuel start.tail).1 := by
          intro start hstart hbrace
          refine ih true start.tail ?_
          have hle := hstart.length_le
          obtain ⟨opening, tail, rfl, -⟩ := Scan.startsWith_iff.mp hbrace
          rw [List.length_append, List.length_cons] at hle
          rw [List.tail_cons]
          omega
        refine .cons happend ht ⟨ht.ne_nil, ?_, ht.text, ?_⟩ ?_ (ih nested between (by omega))
        · rw [ht.span]
          exact Scan.spanOf_congr ht.ne_nil ..
        · intro b hb
          refine (ht.reads.block b hb).imp id ?_
          rintro ⟨start, hstart, hbrace, rfl, hrest⟩
          exact braced_block hstart hbrace hrest (hbody start hstart hbrace)
        · intro b hb u hu
          rcases ht.reads.block b hb with rfl | ⟨start, hstart, hbrace, rfl, -⟩
          · exact absurd hu u.not_in_nil
          · rw [← happend]
            refine ((hbody start hstart hbrace).inside u ?_).of_suffix
              ((List.tail_suffix _).trans hstart)
            rwa [Statements.block, if_pos hbrace] at hu

/-! ### Statements in their region -/

/-- Some lexemes in a row lie inside what they span. -/
theorem StandFrom.within_cover {p : Position} {taken : List Lexeme} (h : StandFrom p taken) :
    ∀ l ∈ taken, l.span.Within (Scan.cover taken) := by
  intro l hl
  obtain ⟨first, others, rfl⟩ := List.exists_cons_of_ne_nil (List.ne_nil_of_mem hl)
  rw [Scan.cover, h.spanOf_eq]
  have hbounds := h.bounds hl
  rw [flatMap_chars_cons, Position.after_append] at hbounds
  refine ⟨?_, hbounds.2.2⟩
  rcases List.mem_cons.mp hl with rfl | hl
  · rw [h.2.1]
    exact Nat.le_refl _
  · have hlater := (List.pairwise_cons.mp h.pairwise).1 l hl
    have hfirst := h.bounds (l := first) List.mem_cons_self
    rw [h.2.1] at hlater hfirst
    exact Nat.le_of_lt (Nat.lt_of_lt_of_le hfirst.2.1 hlater)

/-- Where some lexemes in a row end. -/
theorem StandFrom.stop_cover {p : Position} {taken : List Lexeme} (h : StandFrom p taken)
    (hne : taken ≠ []) :
    (Scan.cover taken).stop = (p.after (taken.flatMap Lexeme.chars)).offset := by
  obtain ⟨first, others, rfl⟩ := List.exists_cons_of_ne_nil hne
  rw [Scan.cover, h.spanOf_eq, flatMap_chars_cons, Position.after_append]
  rfl

/-- Where some lexemes in a row start. -/
theorem StandFrom.start_cover {p : Position} {taken : List Lexeme} (h : StandFrom p taken)
    (hne : taken ≠ []) :
    p.offset ≤ (Scan.cover taken).start ∧ (Scan.cover taken).start < (Scan.cover taken).stop := by
  obtain ⟨first, others, rfl⟩ := List.exists_cons_of_ne_nil hne
  have hfirst := h.bounds (l := first) List.mem_cons_self
  have hwithin := h.within_cover first List.mem_cons_self
  have hstart : (Scan.cover (first :: others)).start = first.span.start := by
    rw [Scan.cover, h.spanOf_eq, h.2.1]
    rfl
  rw [hstart]
  exact ⟨hfirst.1, Nat.lt_of_lt_of_le hfirst.2.1 hwithin.2⟩

/-- The statements lie in the region one behind the other, and none is empty. Every lexeme of the
    region that is no separator lies in exactly one of them. -/
structure Tiles (region : List Lexeme) (ss : List Statement) : Prop where
  covered : ∀ l ∈ region, l.isSeparator = false → ∃! t, t ∈ ss ∧ l.span.Within t.span
  nonempty : ∀ t ∈ ss, t.span.start < t.span.stop
  ordered : ss.Pairwise fun t u => t.span.stop ≤ u.span.start

namespace Tiling

/-- The statements lie between the start and the end of the lexemes. -/
theorem bounds {p : Position} {ls : List Lexeme} {ss : List Statement} (h : Tiling ls ss)
    (hstand : StandFrom p ls) : ∀ t ∈ ss, p.offset ≤ t.span.start ∧
      t.span.start < t.span.stop ∧ t.span.stop ≤ (p.after (ls.flatMap Lexeme.chars)).offset := by
  induction h generalizing p with
  | nil => exact fun t ht => nomatch ht
  | @cons gap taken rest t ts hgap hne hspan _ ih =>
    obtain ⟨-, htaken, hrest⟩ := standFrom_append₃.mp hstand
    rw [List.flatMap_append, List.flatMap_append, Position.after_append, Position.after_append]
    have hgap := Position.offset_le_after p (gap.flatMap Lexeme.chars)
    have hstart := htaken.start_cover hne
    have hstop := htaken.stop_cover hne
    have hend := Position.offset_le_after ((p.after (gap.flatMap Lexeme.chars)).after
      (taken.flatMap Lexeme.chars)) (rest.flatMap Lexeme.chars)
    intro u hu
    rcases List.mem_cons.mp hu with rfl | hu
    · rw [hspan]
      omega
    · have := ih hrest u hu
      omega

theorem tiles {p : Position} {ls : List Lexeme} {ss : List Statement} (h : Tiling ls ss)
    (hstand : StandFrom p ls) : Tiles ls ss := by
  induction h generalizing p with
  | nil hgap =>
    refine ⟨fun l hl hseparator => ?_, fun t ht => (nomatch ht), .nil⟩
    rw [hgap l hl] at hseparator
    cases hseparator
  | @cons gap taken rest t ts hgap hne hspan h ih =>
    obtain ⟨-, htaken, hrest⟩ := standFrom_append₃.mp hstand
    have hstart := htaken.start_cover hne
    have hstop := htaken.stop_cover hne
    rw [← hspan] at hstart hstop
    have htail := ih hrest
    have hbehind := h.bounds hrest
    refine ⟨fun l hl hseparator => ?_, ?_, ?_⟩
    · rw [List.append_assoc, List.mem_append, List.mem_append] at hl
      rcases hl with hl | hl | hl
      · rw [hgap l hl] at hseparator
        cases hseparator
      · -- the lexeme belongs to the first statement, and all others start behind it
        have hwithin := htaken.within_cover l hl
        have hbounds := htaken.bounds hl
        rw [← hspan] at hwithin
        refine ⟨t, ⟨List.mem_cons_self, hwithin⟩, ?_⟩
        rintro u ⟨hu, huwithin⟩
        rcases List.mem_cons.mp hu with rfl | hu
        · rfl
        · have hu := hbehind u hu
          have := huwithin.1
          omega
      · -- the lexeme stands behind the first statement
        obtain ⟨u, ⟨hu, hwithin⟩, hunique⟩ := htail.covered l hl hseparator
        have hbounds := hrest.bounds hl
        refine ⟨u, ⟨List.mem_cons_of_mem t hu, hwithin⟩, ?_⟩
        rintro v ⟨hv, hvwithin⟩
        rcases List.mem_cons.mp hv with rfl | hv
        · have := hvwithin.2
          omega
        · exact hunique v ⟨hv, hvwithin⟩
    · exact List.forall_mem_cons.mpr ⟨hstart.2, htail.nonempty⟩
    · refine .cons (fun u hu => ?_) htail.ordered
      rw [hstop]
      exact (hbehind u hu).1

/-- Statements behind an opening brace lie in what the lexemes around them span. -/
theorem within_cover {p : Position} {front inner behind : List Lexeme} {opening : Lexeme}
    {ss : List Statement} (h : Tiling inner ss)
    (hstand : StandFrom p (front ++ [opening] ++ inner ++ behind)) :
    ∀ t ∈ ss, t.span.Within (Scan.cover (front ++ [opening] ++ inner ++ behind)) := by
  have hopening := hstand.within_cover opening (by simp)
  have hstop := hstand.stop_cover (by simp)
  obtain ⟨hfront, hinner, -⟩ := standFrom_append₃.mp hstand
  have hbounds := hfront.bounds (l := opening) (by simp)
  rw [List.flatMap_append, List.flatMap_append, Position.after_append, Position.after_append] at hstop
  have hbehind := Position.offset_le_after ((p.after ((front ++ [opening]).flatMap Lexeme.chars)).after
    (inner.flatMap Lexeme.chars)) (behind.flatMap Lexeme.chars)
  intro t ht
  have ht := h.bounds hinner t ht
  have hstart := hopening.1
  constructor <;> omega

end Tiling

/-! ### Whole sources -/

/-- The block is missing, or stands in braces among the lexemes and its statements tile what is
    between them. Where no brace closes the block, it goes on to the last lexeme. -/
inductive Syntax.Block.TiledIn (lexemes : List Lexeme) : Block → Prop where
  | missing : TiledIn lexemes .missing
  | closed {before inner after : List Lexeme} {opening closing : Lexeme} {ss : List Statement}
    (hlexemes : lexemes = before ++ (opening :: inner ++ [closing]) ++ after)
    (hopening : opening.kind = .openBrace) (hclosing : closing.kind = .closeBrace)
    (htiles : Tiles inner ss) :
    TiledIn lexemes (.present ss (Scan.cover (opening :: inner ++ [closing])))
  | unclosed {before inner : List Lexeme} {opening : Lexeme} {ss : List Statement}
    (hlexemes : lexemes = before ++ opening :: inner) (hopening : opening.kind = .openBrace)
    (htiles : Tiles inner ss) :
    TiledIn lexemes (.present ss (Scan.cover (opening :: inner)))

/-- What was read from braces is tiled, and stays inside the lexemes it was read from. -/
theorem Braced.tiled {p : Position} {before taken after : List Lexeme} {b : Block}
    (h : Braced taken after b) (hstand : StandFrom p (before ++ taken ++ after)) :
    b.TiledIn (before ++ taken ++ after) ∧
      ∀ t ∈ b.statements, t.span.Within (Scan.cover taken) := by
  have htaken := (standFrom_append₃.mp hstand).2.1
  cases h with
  | @closed front inner behind opening closing ss heq hopening hclosing htiling =>
    have heq : taken = front ++ [opening] ++ inner ++ (closing :: behind) := by simp [heq]
    rw [heq] at htaken ⊢
    have hlexemes : before ++ (front ++ [opening] ++ inner ++ (closing :: behind)) ++ after =
        (before ++ front) ++ (opening :: inner ++ [closing]) ++ (behind ++ after) := by simp
    exact ⟨.closed hlexemes hopening hclosing (htiling.tiles (standFrom_append₃.mp htaken).2.1),
      htiling.within_cover htaken⟩
  | @unclosed front inner opening ss heq hafter hopening htiling =>
    have heq : taken = front ++ [opening] ++ inner ++ [] := by simp [heq]
    rw [heq] at htaken ⊢
    have hlexemes : before ++ (front ++ [opening] ++ inner ++ []) ++ after =
        (before ++ front) ++ opening :: inner := by simp [hafter]
    exact ⟨.unclosed hlexemes hopening (htiling.tiles (standFrom_append₃.mp htaken).2.1),
      htiling.within_cover htaken⟩

/-- The lexemes behind the head of a source, which its statements are read from. -/
def bodyLexemes (source : String) : List Lexeme :=
  (Head.ofLexemes (endOfInput source (lex source)) (Scan.skipSeparators (lex source))).2

theorem bodyLexemes_suffix (source : String) : bodyLexemes source <:+ lex source :=
  (Head.ofLexemes_suffix _ _).trans (Scan.skipSeparators_suffix _)

/-- **Reading drops nothing.** The statements of a source tile the lexemes behind its head, and
    nothing of these is left. Every statement, at any depth, has the text that its span cuts out of
    the source; the statements in each of its blocks tile the lexemes in the braces of the block,
    and lie inside the statement. -/
theorem nothing_is_dropped (source : String) :
    bodyLexemes source <:+ lex source ∧
      Tiles (bodyLexemes source) (parse source).statements ∧
      (Statements.ofLexemes (endOfInput source (lex source)) false
        ((bodyLexemes source).length + 1) (bodyLexemes source)).2 = [] ∧
      ∀ t : Statement, t.In (parse source).statements →
        IsSlice source t.span t.text ∧
        ∀ b ∈ t.blocks, b.TiledIn (lex source) ∧ ∀ u ∈ b.statements, u.span.Within t.span := by
  have hsuffix := bodyLexemes_suffix source
  have hread := readsAll_ofLexemes (endOfInput source (lex source)) false
    ((bodyLexemes source).length + 1) (bodyLexemes source) (Nat.lt_succ_self _)
  have hend := hread.stops.resolve_right fun h => nomatch h.1
  refine ⟨hsuffix, ?_, hend, fun t ht => ?_⟩
  · obtain ⟨region, hregion, htiling⟩ := hread.region
    rw [hend, List.append_nil] at hregion
    subst hregion
    obtain ⟨front, hfront⟩ := hsuffix
    have hstand := standFrom_lex source
    rw [← hfront, standFrom_append] at hstand
    exact htiling.tiles hstand.2
  · obtain ⟨before, taken, after, hlex, htaken⟩ := (hread.inside t ht).of_suffix hsuffix
    rw [htaken.span, htaken.text]
    refine ⟨isSlice_tokenOf hlex.symm htaken.ne_nil .., fun b hb => ?_⟩
    rcases htaken.block b hb with rfl | hbraced
    · exact ⟨.missing, fun u hu => nomatch hu⟩
    · have hstand := standFrom_lex source
      rw [← hlex] at hstand ⊢
      exact hbraced.tiled hstand

end SequenceDiagram
