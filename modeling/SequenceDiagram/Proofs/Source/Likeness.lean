import SequenceDiagram.Proofs.Source.Lexing
import SequenceDiagram.Proofs.Text.LineEnds
import SequenceDiagram.Syntax.Scan

namespace SequenceDiagram

open Syntax

/-!
# Lexemes that are alike

* `LinesAlike g ls ms`: the lexemes have the same kinds, texts, lines and columns, and the same gaps
  within each line. The gaps at the ends of the lines are only related by `g`. If such a gap may be
  a carriage return, then a quoted text that the end of its line cuts off may have it instead.
* `LinesAlike.display`: lexemes in one line are displayed in the same way.
* `Runs g ls ms`: so it is with two lists of lexemes that stand one behind the other each.
-/

/-! ### Line by line -/

/-- The line ends right here. -/
def EndsLine (ls : List Lexeme) : Prop :=
  ∃ l rest, ls = l :: rest ∧ l.kind = .newline ∧ l.gap = [] ∧ l.text = ['\n']

/-- The lexemes of two lists are alike, line by line. -/
inductive LinesAlike (g : List Char → List Char → Prop) : List Lexeme → List Lexeme → Prop where
  | nil : LinesAlike g [] []
  | lexeme {l m : Lexeme} {ls ms : List Lexeme} (hkind : l.kind = m.kind)
    (hline : l.kind ≠ .newline) (hgap : l.gap = m.gap) (htext : l.text = m.text)
    (hplace : l.span.SamePlace m.span) (h : LinesAlike g ls ms) : LinesAlike g (l :: ls) (m :: ms)
  | cut {l m : Lexeme} {ls ms : List Lexeme} (hreturn : g [] ['\r']) (hl : l.kind = .quoted)
    (hm : m.kind = .quoted) (hgap : l.gap = m.gap) (htext : m.text = l.text ++ ['\r'])
    (hplace : l.span.SamePlace m.span) (hls : EndsLine ls) (hms : EndsLine ms)
    (h : LinesAlike g ls ms) : LinesAlike g (l :: ls) (m :: ms)
  | newline {l m : Lexeme} {ls ms : List Lexeme} (hl : l.kind = .newline) (hm : m.kind = .newline)
    (hgap : g l.gap m.gap) (hltext : l.text = ['\n']) (hmtext : m.text = ['\n'])
    (hline : l.span.line = m.span.line) (h : LinesAlike g ls ms) : LinesAlike g (l :: ls) (m :: ms)

/-- What readers see of a single lexeme is the same. -/
structure Lexeme.Alike (l m : Lexeme) : Prop where
  kind : l.kind = m.kind
  word : l.word? = m.word?
  token : l.token.text = m.token.text

namespace LinesAlike

variable {g : List Char → List Char → Prop} {ls ms : List Lexeme}

theorem nil_iff (h : LinesAlike g ls ms) : ls = [] ↔ ms = [] := by
  cases h <;> simp

/-- The first lexemes are alike, and so are the others. -/
theorem of_cons {l : Lexeme} (h : LinesAlike g (l :: ls) ms) :
    ∃ m ns, ms = m :: ns ∧ l.Alike m ∧ LinesAlike g ls ns := by
  cases h with
  | lexeme hkind hline hgap htext hplace h =>
    refine ⟨_, _, rfl, ⟨hkind, ?_, ?_⟩, h⟩
    · rw [Lexeme.word?, Lexeme.word?, hkind, htext]
    · rw [Lexeme.token, Lexeme.token, htext]
  | cut _ hl hm hgap htext hplace hls hms h =>
    refine ⟨_, _, rfl, ⟨hl.trans hm.symm, ?_, ?_⟩, h⟩
    · rw [Lexeme.word?, Lexeme.word?, if_neg (by rw [hl]; decide), if_neg (by rw [hm]; decide)]
    · rw [Lexeme.token, Lexeme.token, htext, unquoteChars_append_blank (by decide)]
  | newline hl hm hgap hltext hmtext hline h =>
    refine ⟨_, _, rfl, ⟨hl.trans hm.symm, ?_, ?_⟩, h⟩
    · rw [Lexeme.word?, Lexeme.word?, if_neg (by rw [hl]; decide), if_neg (by rw [hm]; decide)]
    · rw [Lexeme.token, Lexeme.token, hltext, hmtext]

/-- A first lexeme that is no newline has the same place. -/
theorem samePlace {l m : Lexeme} (h : LinesAlike g (l :: ls) (m :: ms)) (hl : l.kind ≠ .newline) :
    l.span.SamePlace m.span := by
  cases h with
  | lexeme _ _ _ _ hplace _ => exact hplace
  | cut _ _ _ _ _ hplace _ _ _ => exact hplace
  | newline hnewline => exact absurd hnewline hl

theorem map_kind (h : LinesAlike g ls ms) : ls.map (·.kind) = ms.map (·.kind) := by
  induction ls generalizing ms with
  | nil =>
    cases h
    rfl
  | cons l ls ih =>
    obtain ⟨m, ns, rfl, hlm, hrest⟩ := h.of_cons
    rw [List.map_cons, List.map_cons, hlm.kind, ih hrest]

theorem length_eq (h : LinesAlike g ls ms) : ls.length = ms.length := by
  rw [← List.length_map (·.kind), h.map_kind, List.length_map]

theorem drop (h : LinesAlike g ls ms) (n : Nat) : LinesAlike g (ls.drop n) (ms.drop n) := by
  induction n generalizing ls ms with
  | zero => exact h
  | succ n ih =>
    cases ls with
    | nil =>
      cases h
      exact .nil
    | cons l ls =>
      obtain ⟨m, ns, rfl, -, hrest⟩ := h.of_cons
      exact ih hrest

/-! ### Texts -/

/-- In one line, only a carriage return at the end can make a difference. -/
theorem chars_cases {taken other rest behind : List Lexeme}
    (h : LinesAlike g (taken ++ rest) (other ++ behind)) (hlength : taken.length = other.length)
    (hline : ∀ l ∈ taken, l.kind ≠ .newline) :
    other.flatMap Lexeme.chars = taken.flatMap Lexeme.chars ∨
      other.flatMap Lexeme.chars = taken.flatMap Lexeme.chars ++ ['\r'] := by
  induction taken generalizing other with
  | nil =>
    obtain rfl := List.length_eq_zero_iff.mp hlength.symm
    exact .inl rfl
  | cons l ls ih =>
    cases other with
    | nil => cases hlength
    | cons m ms =>
      have hlength := Nat.succ.inj hlength
      obtain ⟨hl, hls⟩ := List.forall_mem_cons.mp hline
      cases h with
      | lexeme _ _ hgap htext _ h =>
        rw [List.flatMap_cons, List.flatMap_cons, Lexeme.chars, Lexeme.chars, hgap, htext]
        rcases ih h hlength hls with heq | heq
        · exact .inl (by rw [heq])
        · exact .inr (by simp only [heq, List.append_assoc])
      | cut _ _ _ hgap htext _ hends _ _ =>
        -- a newline follows, so this lexeme is the last one taken
        cases ls with
        | cons next ls =>
          obtain ⟨nl, rest, heq, hnl, -⟩ := hends
          obtain ⟨rfl, -⟩ := List.cons.inj heq
          exact absurd hnl (hls _ List.mem_cons_self)
        | nil =>
          obtain rfl := List.length_eq_zero_iff.mp hlength.symm
          refine .inr ?_
          simp only [List.flatMap_cons, List.flatMap_nil, List.append_nil, Lexeme.chars, hgap,
            htext, List.append_assoc]
      | newline hnl => exact absurd hnl hl

/-- Lexemes in one line are displayed in the same way. -/
theorem display {taken other rest behind : List Lexeme}
    (h : LinesAlike g (taken ++ rest) (other ++ behind)) (hlength : taken.length = other.length)
    (hline : ∀ l ∈ taken, l.kind ≠ .newline) :
    displayText (String.ofList (Lexeme.textOf taken)) =
      displayText (String.ofList (Lexeme.textOf other)) := by
  have hchars := h.chars_cases hlength hline
  cases taken with
  | nil =>
    obtain rfl := List.length_eq_zero_iff.mp hlength.symm
    rfl
  | cons l ls =>
    cases other with
    | nil => cases hlength
    | cons m ms =>
      have hgap : l.gap = m.gap := by
        cases h with
        | lexeme _ _ hgap => exact hgap
        | cut _ _ _ hgap => exact hgap
        | newline hnl => exact absurd hnl (hline l List.mem_cons_self)
      rw [flatMap_chars_cons, flatMap_chars_cons, hgap, List.append_assoc,
        List.append_right_inj, List.append_right_inj] at hchars
      unfold displayText
      rw [String.toList_ofList, String.toList_ofList]
      rcases hchars with heq | heq
      · rw [heq]
      · rw [heq, displayChars_append_blank (by decide)]

end LinesAlike

/-! ### Two lists of lexemes -/

/-- The lexemes of two sources are alike from here on. -/
structure Runs (g : List Char → List Char → Prop) (s u : List Lexeme) : Prop where
  alike : LinesAlike g s u
  stand : ∃ p, StandFrom p s
  stand' : ∃ p, StandFrom p u

theorem StandFrom.drop {p : Position} {ls : List Lexeme} (h : StandFrom p ls) (n : Nat) :
    ∃ q, StandFrom q (ls.drop n) := by
  rw [← List.take_append_drop n ls, standFrom_append] at h
  exact ⟨_, h.2⟩

namespace Runs

variable {g : List Char → List Char → Prop} {s u : List Lexeme}

theorem drop (h : Runs g s u) (n : Nat) : Runs g (s.drop n) (u.drop n) where
  alike := h.alike.drop n
  stand := h.stand.elim fun _ hp => hp.drop n
  stand' := h.stand'.elim fun _ hp => hp.drop n

theorem tail (h : Runs g s u) : Runs g s.tail u.tail := by
  rw [← List.drop_one, ← List.drop_one]
  exact h.drop 1

/-- What is left behind as many lexemes of both. -/
theorem of_append {taken other rest behind : List Lexeme}
    (h : Runs g (taken ++ rest) (other ++ behind)) (hlength : taken.length = other.length) :
    Runs g rest behind := by
  have hdrop := h.drop taken.length
  rwa [List.drop_left, hlength, List.drop_left] at hdrop

theorem length_eq (h : Runs g s u) : s.length = u.length := h.alike.length_eq

theorem map_kind (h : Runs g s u) : s.map (·.kind) = u.map (·.kind) := h.alike.map_kind

/-- Either both are at their end, or a lexeme comes next in both. -/
theorem cases (h : Runs g s u) : s = [] ∧ u = [] ∨
    ∃ l ls m ms, s = l :: ls ∧ u = m :: ms ∧ l.Alike m ∧ Runs g ls ms := by
  cases s with
  | nil => exact .inl ⟨rfl, h.alike.nil_iff.mp rfl⟩
  | cons l ls =>
    obtain ⟨m, ms, rfl, hlm, -⟩ := h.alike.of_cons
    exact .inr ⟨l, ls, m, ms, rfl, rfl, hlm, h.tail⟩

end Runs

end SequenceDiagram
