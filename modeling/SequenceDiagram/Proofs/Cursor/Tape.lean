import SequenceDiagram.Proofs.Source.Coverage
import SequenceDiagram.Proofs.Syntax.Progress

namespace SequenceDiagram

open Syntax

/-!
# The tape

The readers work on lists of lexemes that know their own texts. Reading can do with less: a `Tape`
holds the source, and of each lexeme only its kind and its span. Lexemes are looked up by their
numbers, and texts are cut out of the source by offsets. Both can go wrong, and a `Slip` says how.

* `Tape.slice`, `Tape.mark` and `decrement` are the operations that can slip; `isOk_slice` and its
  companions say when.
* `place s` is the number of the first lexeme of `s`, an end of the lexemes of the source.
* `tokenOf_tape`: from the place of some lexemes to that of the lexemes behind them the tape has the
  token of these lexemes, also if there are none.
-/

/-! ### What can go wrong -/

/-- The ways in which reading could break off. -/
inductive Slip where
  /-- More brackets are closed than were opened. -/
  | belowZero
  /-- There is no lexeme of this number. -/
  | noLexeme (number : Nat)
  /-- The offsets are not in order, not in the source, or within a character. -/
  | noSlice (start stop : Nat)
  /-- A loop goes on for longer than there are lexemes. -/
  | endless
  deriving DecidableEq

/-- One less open bracket. -/
def decrement : Nat → Except Slip Nat
  | 0 => .error .belowZero
  | depth + 1 => .ok depth

theorem isOk_decrement (depth : Nat) : (decrement depth).isOk = true ↔ 0 < depth := by
  cases depth with
  | zero => exact iff_of_false Bool.false_ne_true (Nat.lt_irrefl 0)
  | succ depth => exact iff_of_true rfl (Nat.succ_pos depth)

/-- A lexeme without its text. -/
structure Mark where
  kind : LexemeKind
  span : Span
  deriving DecidableEq

/-- A source, and where its lexemes stand in it. -/
structure Tape where
  source : String
  marks : List Mark

/-- A lexeme as it stands on the tape. -/
def Lexeme.mark (l : Lexeme) : Mark := ⟨l.kind, l.span⟩

namespace Tape

/-- The tape of a source. -/
def of (source : String) : Tape := ⟨source, (lex source).map Lexeme.mark⟩

/-! ### Looking things up -/

/-- The lexeme of a number, which has to be there. -/
def mark (t : Tape) (number : Nat) : Except Slip Mark :=
  match t.marks[number]? with
  | some m => .ok m
  | none => .error (.noLexeme number)

theorem isOk_mark (t : Tape) (number : Nat) :
    (t.mark number).isOk = true ↔ number < t.marks.length := by
  rw [mark]
  by_cases h : number < t.marks.length
  · rw [List.getElem?_eq_getElem h]
    exact iff_of_true rfl h
  · rw [List.getElem?_eq_none (Nat.le_of_not_lt h)]
    exact iff_of_false Bool.false_ne_true h

/-- The part of the source between two offsets. They have to be in order, within the source, and
    each between two characters. -/
def slice (t : Tape) (start stop : Nat) : Except Slip String :=
  if h : start ≤ stop ∧ stop ≤ t.source.utf8ByteSize ∧
      String.Pos.Raw.IsValid t.source ⟨start⟩ ∧ String.Pos.Raw.IsValid t.source ⟨stop⟩ then
    .ok (String.extract (⟨⟨start⟩, h.2.2.1⟩ : t.source.Pos) ⟨⟨stop⟩, h.2.2.2⟩)
  else .error (.noSlice start stop)

theorem isOk_slice (t : Tape) (start stop : Nat) : (t.slice start stop).isOk = true ↔
    start ≤ stop ∧ stop ≤ t.source.utf8ByteSize ∧
      String.Pos.Raw.IsValid t.source ⟨start⟩ ∧ String.Pos.Raw.IsValid t.source ⟨stop⟩ := by
  rw [slice]
  split
  · next h => exact iff_of_true rfl h
  · next h => exact iff_of_false Bool.false_ne_true h

example : (Tape.mk "é" []).slice 0 1 = .error (.noSlice 0 1) := by decide

/-- The text that a span cuts out of the source. -/
def text (t : Tape) (span : Span) : Except Slip String := t.slice span.start span.stop

/-- A lexeme as a token: quotes around the text go. -/
def token (t : Tape) (m : Mark) : Except Slip Token := do
  return ⟨unquote (← t.text m.span), m.span⟩

/-- A lexeme as a word, if it is one. -/
def word? (t : Tape) (m : Mark) : Except Slip (Option String) :=
  if m.kind = .name then some <$> t.text m.span else pure none

/-- The empty span behind the last character; it has the line of the last lexeme. -/
def endSpan (t : Tape) : Span :=
  ⟨t.source.utf8ByteSize, t.source.utf8ByteSize, (t.marks.getLast?.map (·.span.line)).getD 1, 0⟩

/-- Where the lexemes from one number up to before another one stand. If there are none, it is an
    empty place before the next lexeme, or behind the last character. -/
def spanOf (t : Tape) (start stop : Nat) : Span :=
  match t.marks[start]?, if stop = 0 then none else t.marks[stop - 1]? with
  | some first, some last =>
    if start < stop then first.span.join last.span else first.span.empty
  | some first, none => first.span.empty
  | none, _ => t.endSpan

/-- The lexemes from one number up to before another one, as a token. -/
def tokenOf (t : Tape) (start stop : Nat) : Except Slip Token := do
  return ⟨← t.text (t.spanOf start stop), t.spanOf start stop⟩

/-! ### Slices -/

/-- What a span cuts out of the source is there for the tape. -/
theorem text_of_isSlice {t : Tape} {span : Span} {text : String} (h : IsSlice t.source span text) :
    t.text span = .ok text := by
  obtain ⟨hfirst, hlast⟩ := h.isValid
  obtain ⟨before, after, hsource, hstart, hstop⟩ := h
  have hsize := congrArg String.utf8ByteSize hsource
  rw [String.utf8ByteSize_append, String.utf8ByteSize_append] at hsize
  have hcut :
      String.extract (⟨⟨span.start⟩, hfirst⟩ : t.source.Pos) ⟨⟨span.stop⟩, hlast⟩ = text := by
    obtain ⟨hle, hcopy⟩ : ∃ h, (t.source.slice ⟨⟨span.start⟩, hfirst⟩ ⟨⟨span.stop⟩, hlast⟩ h).copy =
        text := by
      refine String.copy_slice_eq_iff_splits.mpr ⟨before, after, ⟨?_, ?_⟩, ⟨hsource, ?_⟩⟩
      · rw [hsource, String.append_assoc]
      · exact congrArg String.Pos.Raw.mk hstart
      · rw [String.rawEndPos, String.utf8ByteSize_append, ← hstart]
        exact congrArg String.Pos.Raw.mk hstop
    rw [String.extract_eq_copy_slice _ _ hle, hcopy]
  rw [Tape.text, slice, dif_pos ⟨by omega, by omega, hfirst, hlast⟩, hcut]

end Tape

/-! ### The lexemes of a source -/

/-- The empty place behind a source. -/
abbrev stopOf (source : String) : Span := endOfInput source (lex source)

/-- The number of the first of some lexemes that are an end of those of the source. -/
def place (source : String) (s : List Lexeme) : Nat := (lex source).length - s.length

section Lexemes

variable {source : String} {taken rest s : List Lexeme} {l : Lexeme}

theorem place_append (happend : taken ++ rest = s) (h : s <:+ lex source) :
    place source rest = place source s + taken.length := by
  subst happend
  have hle := h.length_le
  rw [List.length_append] at hle
  rw [place, place, List.length_append]
  omega

theorem place_cons (h : l :: rest <:+ lex source) :
    place source rest = place source (l :: rest) + 1 :=
  place_append List.singleton_append h

/-- From the place of some lexemes on the tape has these lexemes. -/
theorem drop_marks (h : s <:+ lex source) :
    (Tape.of source).marks.drop (place source s) = s.map Lexeme.mark := by
  obtain ⟨before, hbefore⟩ := h
  have hplace : place source s = before.length := by
    rw [place, ← hbefore, List.length_append, Nat.add_sub_cancel]
  rw [hplace, Tape.of, ← hbefore, ← List.map_drop, List.drop_left]

theorem getElem?_marks (h : s <:+ lex source) (n : Nat) :
    (Tape.of source).marks[place source s + n]? = s[n]?.map Lexeme.mark := by
  rw [← List.getElem?_drop, drop_marks h, List.getElem?_map]

theorem mark_tape (h : l :: rest <:+ lex source) :
    (Tape.of source).mark (place source (l :: rest)) = .ok l.mark := by
  have hmark : (Tape.of source).marks[place source (l :: rest)]? = some l.mark :=
    getElem?_marks h 0
  rw [Tape.mark, hmark]

theorem text_tape (h : l ∈ lex source) :
    (Tape.of source).text l.span = .ok (String.ofList l.text) :=
  Tape.text_of_isSlice (standsIn_of_mem_lex h).text

theorem token_tape (h : l ∈ lex source) : (Tape.of source).token l.mark = .ok l.token := by
  have htext : (Tape.of source).text l.mark.span = .ok (String.ofList l.text) := text_tape h
  rw [Tape.token, htext]
  show Except.ok (⟨unquote (String.ofList l.text), l.span⟩ : Token) = _
  rw [unquote, String.toList_ofList, Lexeme.token]

theorem word?_tape (h : l ∈ lex source) : (Tape.of source).word? l.mark = .ok l.word? := by
  have htext : (Tape.of source).text l.mark.span = .ok (String.ofList l.text) := text_tape h
  unfold Tape.word? Lexeme.word?
  by_cases hname : l.kind = .name
  · rw [if_pos (show l.mark.kind = .name from hname), if_pos hname, htext]
    rfl
  · rw [if_neg (show ¬l.mark.kind = .name from hname), if_neg hname]
    rfl

/-! ### Lexemes in a row -/

theorem endSpan_tape : (Tape.of source).endSpan = stopOf source := by
  rw [Tape.endSpan, Tape.of, List.getLast?_map, Option.map_map]
  rfl

/-- From the place of some lexemes to that of the lexemes behind them. -/
theorem spanOf_tape (happend : taken ++ rest = s) (h : s <:+ lex source) :
    (Tape.of source).spanOf (place source s) (place source rest) =
      Scan.spanOf (stopOf source) taken rest := by
  have hstop := place_append happend h
  subst happend
  cases taken with
  | nil =>
    -- an empty range, whatever stands before it
    cases rest with
    | nil =>
      have hnone : (Tape.of source).marks[place source []]? = none := getElem?_marks h 0
      rw [List.nil_append, Tape.spanOf, hnone]
      exact endSpan_tape
    | cons next behind =>
      have hnext : (Tape.of source).marks[place source (next :: behind)]? = some next.mark :=
        getElem?_marks h 0
      rw [List.nil_append, Tape.spanOf, hnext]
      split
      · next heq _ =>
        cases heq
        rw [if_neg (Nat.lt_irrefl _)]
        rfl
      · next heq _ =>
        cases heq
        rfl
      · next heq => cases heq
  | cons l ls =>
    have hfirst : (Tape.of source).marks[place source (l :: ls ++ rest)]? = some l.mark :=
      getElem?_marks h 0
    have hlast : (Tape.of source).marks[place source rest - 1]? =
        some ((l :: ls).getLast (List.cons_ne_nil l ls)).mark := by
      have hindex : place source rest - 1 = place source (l :: ls ++ rest) + ls.length := by
        rw [hstop, List.length_cons]
        omega
      have hin : ls.length < (l :: ls).length := Nat.lt_succ_self _
      rw [hindex, getElem?_marks h, List.getElem?_append_left hin, List.getElem?_eq_getElem hin,
        List.getLast_eq_getElem]
      rfl
    have hlt : place source (l :: ls ++ rest) < place source rest := by
      rw [hstop, List.length_cons]
      omega
    rw [Tape.spanOf, hfirst, if_neg (Nat.ne_zero_of_lt hlt), hlast, Scan.spanOf_cons]
    exact if_pos hlt

/-- Lexemes in a row are a slice of the source, also if there are none. -/
theorem isSlice_taken (happend : taken ++ rest = s) (h : s <:+ lex source) :
    IsSlice source (Scan.spanOf (stopOf source) taken rest)
      (String.ofList (Lexeme.textOf taken)) := by
  obtain ⟨before, hbefore⟩ := h
  subst happend
  by_cases hne : taken = []
  · subst hne
    cases rest with
    | nil => exact ⟨source, "", by simp [Lexeme.textOf], rfl, rfl⟩
    | cons next behind =>
      -- the empty place before a lexeme starts where the lexeme does
      have hmem : next ∈ lex source := by
        rw [← hbefore]
        exact List.mem_append_right _ List.mem_cons_self
      obtain ⟨front, back, hsource, hstart, -⟩ := (standsIn_of_mem_lex hmem).text
      refine ⟨front, String.ofList next.text ++ back, ?_, hstart, rfl⟩
      rw [hsource]
      simp [Lexeme.textOf, String.append_assoc]
  · exact isSlice_tokenOf (by rw [← hbefore, List.append_assoc]) hne _ _

/-- The tape has the text of lexemes in a row. -/
theorem text_taken (happend : taken ++ rest = s) (h : s <:+ lex source) :
    (Tape.of source).text (Scan.spanOf (stopOf source) taken rest) =
      .ok (String.ofList (Lexeme.textOf taken)) := Tape.text_of_isSlice (isSlice_taken happend h)

/-- **The tape has the texts.** From the place of some lexemes to that of the lexemes behind them it
    has the token of these lexemes. -/
theorem tokenOf_tape (happend : taken ++ rest = s) (h : s <:+ lex source) :
    (Tape.of source).tokenOf (place source s) (place source rest) =
      .ok (Scan.tokenOf (stopOf source) taken rest) := by
  rw [Tape.tokenOf, spanOf_tape happend h, text_taken happend h]
  rfl

end Lexemes

end SequenceDiagram
