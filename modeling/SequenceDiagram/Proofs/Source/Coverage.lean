import Mathlib.Data.List.Pairwise
import SequenceDiagram.Proofs.Source.Lookahead
import SequenceDiagram.Proofs.Source.Positions

namespace SequenceDiagram

/-!
# The lexemes cover the source

Every character of a source stands in exactly one lexeme or in a gap between the lexemes, and a
newline is always a lexeme of its own.

* `IsGap gap rest`: the characters may be passed over in front of `rest`. A comment is the last
  thing in a gap, since it goes up to the end of its line.
* `Covers ls cs`: the characters are the lexemes, each behind its gap, and a last gap.
  `covers_lexFrom` is the induction on the pieces of a source.
* `stretches source`: where the lexemes leave room, from offset to offset.
* `lexemes_cover_source` says it in spans: nothing is lost, and every line is counted.
-/

/-! ### Gaps -/

/-- White space within a line. -/
def AllBlank (cs : List Char) : Prop := ∀ c ∈ cs, isBlank c = true ∧ c ≠ '\n'

/-- White space within a line, and perhaps a comment that goes up to the end of the line. -/
inductive IsGap : List Char → List Char → Prop where
  | blank {gap rest : List Char} (hgap : AllBlank gap) : IsGap gap rest
  | comment {blanks body rest : List Char} (hblanks : AllBlank blanks) (hbody : '\n' ∉ body)
    (hrest : LineEnd rest) : IsGap (blanks ++ '/' :: '/' :: body) rest

theorem AllBlank.nil : AllBlank [] := fun _ h => nomatch h

theorem AllBlank.concat {cs : List Char} {c : Char} (h : AllBlank cs) (hc : isBlank c = true)
    (hne : c ≠ '\n') : AllBlank (cs ++ [c]) := by
  intro d hd
  rcases List.mem_append.mp hd with hd | hd
  · exact h d hd
  · rw [List.mem_singleton] at hd
    exact hd ▸ ⟨hc, hne⟩

namespace IsGap

variable {gap rest : List Char}

theorem newline_not_mem (h : IsGap gap rest) : '\n' ∉ gap := by
  intro hmem
  cases h with
  | blank hgap => exact (hgap _ hmem).2 rfl
  | comment hblanks hbody =>
    rcases List.mem_append.mp hmem with hmem | hmem
    · exact (hblanks _ hmem).2 rfl
    · simp [hbody] at hmem

/-- In front of something else on the line there is no comment. -/
theorem allBlank {c : Char} (h : IsGap gap (c :: rest)) (hc : c ≠ '\n') : AllBlank gap := by
  cases h with
  | blank hgap => exact hgap
  | comment _ _ hrest =>
    rcases hrest with hrest | ⟨more, hrest⟩
    · cases hrest
    · exact absurd (List.cons.inj hrest).1 hc

end IsGap

/-! ### Lexemes with gaps between them -/

/-- The lexeme is a newline, or has none in it. -/
def Lexeme.KeepsLines (l : Lexeme) : Prop :=
  (l.kind = .newline ∧ l.text = ['\n']) ∨ (l.kind ≠ .newline ∧ '\n' ∉ l.text)

/-- The characters are the lexemes, each behind its gap, and a last gap. -/
inductive Covers : List Lexeme → List Char → Prop where
  | last {gap : List Char} (hgap : IsGap gap []) : Covers [] gap
  | lexeme {l : Lexeme} {ls : List Lexeme} {rest : List Char} (hgap : IsGap l.gap (l.text ++ rest))
    (hlines : l.KeepsLines) (h : Covers ls rest) : Covers (l :: ls) (l.gap ++ (l.text ++ rest))

/-- The lexemes cover what is left of a source, with the gap that was passed over before. -/
theorem covers_lexFrom {cs : List Char} (h : Scanned cs) (p : Position) (gap : List Char)
    (hgap : IsGap gap cs) : Covers (lexFrom p gap cs) (gap ++ cs) := by
  induction h generalizing p gap with
  | nil =>
    rw [lexFrom_nil, List.append_nil]
    exact .last hgap
  | @blank c rest hc hne _ ih =>
    have happend : gap ++ c :: rest = (gap ++ [c]) ++ rest := by
      rw [List.append_assoc, List.singleton_append]
    rw [lexFrom_blank p gap hc hne, happend]
    exact ih _ _ (.blank ((hgap.allBlank hne).concat hc hne))
  | @comment body rest hbody hrest _ ih =>
    rw [lexFrom_comment p gap hbody hrest, ← List.cons_append, ← List.cons_append,
      ← List.append_assoc]
    exact ih _ _ (.comment (hgap.allBlank (by decide)) hbody hrest)
  | @newline rest _ ih =>
    rw [lexFrom_newline]
    exact .lexeme hgap (.inl ⟨rfl, rfl⟩) (ih _ [] (.blank .nil))
  | @lexeme kind c taken rest hc hblank hcomment hat _ ih =>
    rw [lexFrom_lexeme p gap hblank hcomment hat]
    have htaken := (lexemeAt_congr hc hat).1
    refine .lexeme hgap (.inr ⟨kind_of_lexemeAt hc hat, ?_⟩) (ih _ [] (.blank .nil))
    rw [List.mem_cons, not_or]
    exact ⟨Ne.symm hc, htaken⟩

/-- The lexemes of a source cover it. -/
theorem covers_lex (source : String) : Covers (lex source) source.toList :=
  covers_lexFrom (scanned source.toList) .start [] (.blank .nil)

/-! ### Newlines -/

/-- The first newline behind some text without one. -/
theorem eq_of_append_newline {taken before rest behind : List Char} (htaken : '\n' ∉ taken)
    (h : taken ++ rest = before ++ '\n' :: behind) :
    ∃ more, before = taken ++ more ∧ rest = more ++ '\n' :: behind := by
  rcases List.append_eq_append_iff.mp h with ⟨more, hbefore, hrest⟩ | ⟨more, htext, hrest⟩
  · exact ⟨more, hbefore, hrest⟩
  · cases more with
    | nil => exact ⟨[], by simpa using htext.symm, by simpa using hrest.symm⟩
    | cons c more =>
      obtain ⟨rfl, -⟩ := List.cons.inj hrest
      exact absurd (by simp [htext]) htaken

/-- **Every newline is a lexeme.** -/
theorem Covers.exists_newline {ls : List Lexeme} {cs : List Char} (h : Covers ls cs) {p : Position}
    (hstand : StandFrom p ls) {before behind : List Char} (hcs : cs = before ++ '\n' :: behind) :
    ∃ l ∈ ls, l.kind = .newline ∧ l.span = Span.ofText (p.after before) ['\n'] := by
  induction h generalizing p before with
  | last hgap =>
    exact absurd (hcs ▸ List.mem_append_right _ List.mem_cons_self) hgap.newline_not_mem
  | @lexeme l ls rest hgap hlines _ ih =>
    obtain ⟨-, hspan, hrest⟩ := hstand
    obtain ⟨more, rfl, hmore⟩ := eq_of_append_newline hgap.newline_not_mem hcs
    rcases hlines with ⟨hkind, htext⟩ | ⟨-, htext⟩
    · cases more with
      | nil =>
        refine ⟨l, List.mem_cons_self, hkind, ?_⟩
        rw [hspan, htext, List.append_nil]
      | cons c more =>
        -- the newline comes behind the one that this lexeme is
        rw [htext] at hmore
        obtain ⟨hc, hothers⟩ := List.cons.inj hmore
        obtain ⟨l', hl', hkind', hspan'⟩ := ih hrest hothers
        refine ⟨l', List.mem_cons_of_mem l hl', hkind', ?_⟩
        rw [hspan', Lexeme.chars, htext, ← Position.after_append, List.append_assoc,
          List.singleton_append, hc]
    · obtain ⟨others, rfl, hothers⟩ := eq_of_append_newline htext hmore
      obtain ⟨l', hl', hkind', hspan'⟩ := ih hrest hothers
      refine ⟨l', List.mem_cons_of_mem l hl', hkind', ?_⟩
      rw [hspan', Lexeme.chars, ← Position.after_append, List.append_assoc]

/-! ### The stretches between the lexemes -/

/-- From the end of each lexeme to the start of the next one, beginning at one offset and ending at
    another. -/
def stretchesFrom (start : Nat) (ls : List Lexeme) (stop : Nat) : List (Nat × Nat) :=
  (start :: ls.map (·.span.stop)).zip (ls.map (·.span.start) ++ [stop])

/-- The stretches of a source before, between and behind its lexemes. -/
def stretches (source : String) : List (Nat × Nat) :=
  stretchesFrom 0 (lex source) source.utf8ByteSize

theorem stretchesFrom_cons (start stop : Nat) (l : Lexeme) (ls : List Lexeme) :
    stretchesFrom start (l :: ls) stop =
      (start, l.span.start) :: stretchesFrom l.span.stop ls stop := rfl

theorem StandFrom.stop_eq {p : Position} {l : Lexeme} {ls : List Lexeme}
    (h : StandFrom p (l :: ls)) : l.span.stop = (p.after l.chars).offset := by
  rw [h.2.1, Lexeme.chars, Position.after_append]
  rfl

/-- The characters between two offsets are a gap. -/
def IsGapBetween (source : String) (start stop : Nat) : Prop :=
  ∃ before gap rest, source = before ++ gap ++ rest ∧ start = before.utf8ByteSize ∧
    stop = start + gap.utf8ByteSize ∧ IsGap gap.toList rest.toList

/-- The stretches between lexemes that cover the rest of a source are gaps. -/
theorem Covers.isGapBetween {ls : List Lexeme} {cs : List Char} (h : Covers ls cs)
    (before : List Char) (hstand : StandFrom (Position.start.after before) ls) {x : Nat × Nat}
    (hx : x ∈ stretchesFrom (Position.start.after before).offset ls
      (Position.start.after (before ++ cs)).offset) :
    IsGapBetween (String.ofList (before ++ cs)) x.1 x.2 := by
  have hoffset (cs : List Char) :
      (Position.start.after cs).offset = (String.ofList cs).utf8ByteSize :=
    (Position.offset_after .start cs).trans (Nat.zero_add _)
  induction h generalizing before with
  | @last gap hgap =>
    obtain rfl : x = (_, _) := List.mem_singleton.mp hx
    refine ⟨String.ofList before, String.ofList gap, "", ?_, hoffset before, ?_, ?_⟩
    · rw [String.append_empty, String.ofList_append]
    · rw [Position.after_append]
      exact Position.offset_after _ _
    · rwa [String.toList_ofList]
  | @lexeme l ls rest hgap hlines _ ih =>
    rw [stretchesFrom_cons] at hx
    rcases List.mem_cons.mp hx with rfl | hx
    · refine ⟨String.ofList before, String.ofList l.gap, String.ofList (l.text ++ rest), ?_,
        hoffset before, ?_, ?_⟩
      · rw [String.ofList_append, String.ofList_append, String.append_assoc]
      · rw [hstand.2.1]
        exact Position.offset_after _ _
      · rwa [String.toList_ofList, String.toList_ofList]
    · have happend : before ++ (l.gap ++ (l.text ++ rest)) = (before ++ l.chars) ++ rest := by
        simp only [Lexeme.chars, List.append_assoc]
      rw [happend] at hx ⊢
      refine ih (before ++ l.chars) ?_ ?_
      · rw [Position.after_append]
        exact hstand.2.2
      · rwa [hstand.stop_eq, ← Position.after_append] at hx

/-- No stretch reaches into a lexeme. -/
theorem StandFrom.apart {p : Position} {ls : List Lexeme} (h : StandFrom p ls) {stop : Nat}
    (hstop : (p.after (ls.flatMap Lexeme.chars)).offset ≤ stop) {l : Lexeme} (hl : l ∈ ls)
    {x : Nat × Nat} (hx : x ∈ stretchesFrom p.offset ls stop) :
    x.2 ≤ l.span.start ∨ l.span.stop ≤ x.1 := by
  induction ls generalizing p with
  | nil => cases hl
  | cons m ls ih =>
    have hbounds {l : Lexeme} (hl : l ∈ ls) : m.span.stop ≤ l.span.start :=
      (List.pairwise_cons.mp h.pairwise).1 l hl
    have hm := h.bounds List.mem_cons_self
    have hrest := h.2.2
    rw [stretchesFrom_cons] at hx
    rcases List.mem_cons.mp hx with rfl | hx
    · -- the first stretch ends where the first lexeme starts
      rcases List.mem_cons.mp hl with rfl | hl
      · exact .inl (Nat.le_refl _)
      · have := hbounds hl
        exact .inl (by omega)
    · rcases List.mem_cons.mp hl with rfl | hl
      · refine .inr ?_
        rcases List.mem_cons.mp (List.of_mem_zip hx).1 with heq | hmem
        · exact Nat.le_of_eq heq.symm
        · obtain ⟨l', hl', heq⟩ := List.mem_map.mp hmem
          have := hbounds hl'
          have := hrest.bounds hl'
          omega
      · rw [h.stop_eq] at hx
        refine ih hrest ?_ hl hx
        rwa [← Position.after_append]

/-! ### All of it -/

/-- A slice starts and stops between two characters. -/
theorem IsSlice.isValid {source text : String} {span : Span} (h : IsSlice source span text) :
    String.Pos.Raw.IsValid source ⟨span.start⟩ ∧ String.Pos.Raw.IsValid source ⟨span.stop⟩ := by
  obtain ⟨before, behind, hsource, hstart, hstop⟩ := h
  constructor
  · refine String.Pos.Raw.isValid_iff_exists_append.mpr ⟨before, text ++ behind, ?_, ?_⟩
    · rw [hsource, String.append_assoc]
    · rw [hstart]
      rfl
  · refine String.Pos.Raw.isValid_iff_exists_append.mpr ⟨before ++ text, behind, hsource, ?_⟩
    rw [hstop, hstart, ← String.utf8ByteSize_append]
    rfl

/-- The lexeme is a piece of the source between two characters, and its line and column are those of
    its first byte. -/
structure Lexeme.StandsIn (source : String) (l : Lexeme) : Prop where
  nonempty : l.span.start < l.span.stop
  start : String.Pos.Raw.IsValid source ⟨l.span.start⟩
  stop : String.Pos.Raw.IsValid source ⟨l.span.stop⟩
  text : IsSlice source l.span (String.ofList l.text)
  located : l.span.Located source

theorem standsIn_of_mem_lex {source : String} {l : Lexeme} (hl : l ∈ lex source) :
    l.StandsIn source := by
  obtain ⟨hlocated, hnonempty, hslice⟩ := lexeme_located hl
  exact ⟨hnonempty, hslice.isValid.1, hslice.isValid.2, hslice, hlocated⟩

/-- Lexemes that share a byte are the same. -/
theorem eq_of_overlap {source : String} {l l' : Lexeme} (hl : l ∈ lex source)
    (hl' : l' ∈ lex source) (h : l.span.start < l'.span.stop) (h' : l'.span.start < l.span.stop) :
    l = l' := by
  by_contra hne
  have hapart : (lex source).Pairwise fun l l' =>
      l.span.stop ≤ l'.span.start ∨ l'.span.stop ≤ l.span.start :=
    (standFrom_lex source).pairwise.imp .inl
  have : Std.Symm fun l l' : Lexeme => l.span.stop ≤ l'.span.start ∨ l'.span.stop ≤ l.span.start :=
    ⟨fun _ _ => Or.symm⟩
  rcases hapart.forall hl hl' hne with hle | hle <;> omega

/-- **The lexemes cover the source.** Their spans are pieces of it that are in order and do not
    overlap; between them there is nothing but white space within a line and comments; and each
    newline is the whole of exactly one lexeme, and in no other and in no gap. -/
theorem lexemes_cover_source (source : String) :
    (∀ l ∈ lex source, l.StandsIn source) ∧
    (lex source).Pairwise (fun l l' => l.span.stop ≤ l'.span.start) ∧
    (∀ x ∈ stretches source, IsGapBetween source x.1 x.2) ∧
    ∀ before behind, source = before ++ "\n" ++ behind →
      ∃ l ∈ lex source, l.kind = .newline ∧ l.span.start = before.utf8ByteSize ∧
        l.span.stop = before.utf8ByteSize + 1 ∧
        (∀ l' ∈ lex source, l'.span.start ≤ l.span.start → l.span.start < l'.span.stop → l' = l) ∧
        ∀ x ∈ stretches source, x.2 ≤ l.span.start ∨ l.span.stop ≤ x.1 := by
  have hcovers := covers_lex source
  have hstand := standFrom_lex source
  have hend : (Position.start.after source.toList).offset = source.utf8ByteSize := by
    rw [Position.offset_after, String.ofList_toList]
    exact Nat.zero_add _
  refine ⟨fun l => standsIn_of_mem_lex, hstand.pairwise, fun x hx => ?_,
    fun before behind hsource => ?_⟩
  · unfold stretches at hx
    rw [← hend] at hx
    have hgap := hcovers.isGapBetween [] hstand hx
    rwa [List.nil_append, String.ofList_toList] at hgap
  · have hchars : source.toList = before.toList ++ '\n' :: behind.toList := by
      rw [hsource, String.toList_append, String.toList_append, List.append_assoc]
      rfl
    obtain ⟨l, hl, hkind, hspan⟩ := hcovers.exists_newline hstand hchars
    have hstart : l.span.start = before.utf8ByteSize := by
      rw [hspan]
      show (Position.start.after before.toList).offset = _
      rw [Position.offset_after, String.ofList_toList]
      exact Nat.zero_add _
    have hstop : l.span.stop = before.utf8ByteSize + 1 := by
      rw [← hstart, hspan]
      exact Position.offset_after _ _
    refine ⟨l, hl, hkind, hstart, hstop, fun l' hl' hle hlt => ?_, fun x hx => ?_⟩
    · exact eq_of_overlap hl' hl (by omega) hlt
    · refine hstand.apart ?_ hl hx
      obtain ⟨tail, htail⟩ := exists_flatMap_lex source
      rw [← hend, htail, Position.after_append]
      exact Position.offset_le_after _ _

/-- A quoted text that is not closed ends with its line, whatever looks like a comment in it. -/
theorem comment_behind_an_unclosed_quote :
    let source := "é \"a //b\n\t//c"
    stretches source = [(0, 0), (2, 3), (9, 9), (10, 14)] ∧ IsGapBetween source 10 14 ∧
      ∃ l ∈ lex source, l.kind = .newline ∧ l.span.start = 9 ∧ l.span.stop = 10 := by
  intro source
  have hstretches : stretches source = [(0, 0), (2, 3), (9, 9), (10, 14)] := by decide +kernel
  have hlast : (10, 14) ∈ stretches source := by
    rw [hstretches]
    decide
  obtain ⟨-, -, hgaps, hnewlines⟩ := lexemes_cover_source source
  obtain ⟨l, hl, hkind, hstart, hstop, -⟩ := hnewlines "é \"a //b" "\t//c" (by decide +kernel)
  exact ⟨hstretches, hgaps _ hlast, l, hl, hkind, hstart, hstop⟩

end SequenceDiagram
