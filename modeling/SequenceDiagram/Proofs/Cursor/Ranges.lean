import SequenceDiagram.Proofs.Cursor.Brackets
import SequenceDiagram.Proofs.Syntax.Pieces

namespace SequenceDiagram

open Syntax

/-!
# Ranges of the tape

What stands between two parentheses is looked at again when the cursor has left it behind, so its
lexemes are looked up by their numbers. A range may be empty, and it may lie at the end of the
source.

* `IsRange source range part`: the numbers of a range are the places of some lexemes and of those
  behind them.
* `splitCommas_tape`: the parts between the commas of a range are ranges again.
* `matchFrom_eq`: the count of parentheses starts at one that opens, so it does not go below zero.
* `numbersOf` lists the numbers of a range that are not those of newlines.
-/

namespace Tape

/-! ### Walking over a range -/

/-- How many parentheses are open behind a lexeme, if one that closes nothing is passed over. -/
def parensBehind (kind : LexemeKind) (depth : Nat) : Nat :=
  match kind with
  | .openParen => depth + 1
  | .closeParen => depth - 1
  | _ => depth

/-- The parts between the commas that no parenthesis encloses, for the last `left` numbers of a range
    that ends before `stop`. The part so far starts at `first`, and `depth` counts the open
    parentheses. -/
def partsFrom (t : Tape) (stop : Nat) : (left depth first number : Nat) →
    Except Slip (List (Nat × Nat))
  | 0, _, first, _ => .ok [(first, stop)]
  | left + 1, depth, first, number => do
    let m ← t.mark number
    if m.kind = .comma ∧ depth = 0 then
      return (first, number) :: (← t.partsFrom stop left 0 (number + 1) (number + 1))
    else t.partsFrom stop left (parensBehind m.kind depth) first (number + 1)

/-- The parts of a range between the commas that no parenthesis encloses. -/
def splitCommas (t : Tape) (start stop : Nat) : Except Slip (List (Nat × Nat)) :=
  t.partsFrom stop (stop - start) 0 start start

/-- The number of the parenthesis that closes the first of `depth` open ones. -/
def matchFrom (t : Tape) : (left depth number : Nat) → Except Slip (Option Nat)
  | 0, _, _ => .ok none
  | left + 1, depth, number => do
    let m ← t.mark number
    let depth ← openBehind .openParen .closeParen m.kind depth
    if m.kind = .closeParen ∧ depth = 0 then return some number
    else t.matchFrom left depth (number + 1)

/-- The number of the parenthesis that closes the one at the start of a range. -/
def matchingParen (t : Tape) (start stop : Nat) : Except Slip (Option Nat) :=
  t.matchFrom (stop - start) 0 start

/-- The numbers of the lexemes that are no newlines, for the last `left` numbers of a range. -/
def significantFrom (t : Tape) : (left number : Nat) → Except Slip (List Nat)
  | 0, _ => .ok []
  | left + 1, number => do
    let m ← t.mark number
    let others ← t.significantFrom left (number + 1)
    return if m.kind = .newline then others else number :: others

/-- The numbers of the lexemes of a range that are no newlines. -/
def significant (t : Tape) (start stop : Nat) : Except Slip (List Nat) :=
  t.significantFrom (stop - start) start

/-! ### Lexemes by their numbers -/

/-- The kind of the lexeme of a number. -/
def kindAt? (t : Tape) : Option Nat → Except Slip (Option LexemeKind)
  | some number => do return some (← t.mark number).kind
  | none => return none

/-- The lexeme of a number, as a token. -/
def tokenAt? (t : Tape) : Option Nat → Except Slip (Option Token)
  | some number => do return some (← t.token (← t.mark number))
  | none => return none

end Tape

/-! ### Parts of a range -/

/-- The numbers are the places of some lexemes and of those behind them. -/
def IsRange (source : String) (range : Nat × Nat) (part : List Lexeme) : Prop :=
  ∃ rest, part ++ rest <:+ lex source ∧ range = (place source (part ++ rest), place source rest)

theorem IsRange.of_append {source : String} {taken rest s : List Lexeme} (happend : taken ++ rest = s)
    (h : s <:+ lex source) : IsRange source (place source s, place source rest) taken := by
  subst happend
  exact ⟨rest, h, rfl⟩

section Ranges

variable {source : String} {part rest s : List Lexeme} {l : Lexeme} {depth : Nat}

theorem splitCommas_comma (h : l.kind = .comma ∧ depth = 0) :
    Expression.splitCommas depth (l :: s) = [] :: Expression.splitCommas 0 s := by
  simp only [Expression.splitCommas, h.1, h.2]

theorem splitCommas_other (h : ¬(l.kind = .comma ∧ depth = 0)) :
    Expression.splitCommas depth (l :: s) =
      Expression.pushPart l (Expression.splitCommas (Tape.parensBehind l.kind depth) s) := by
  conv_lhs => unfold Expression.splitCommas
  split
  · next hcomma => exact absurd ⟨hcomma, rfl⟩ h
  · next hopen => rw [hopen, Tape.parensBehind]
  · next hclose => rw [hclose, Tape.parensBehind]
  · rw [Tape.parensBehind] <;> assumption

/-- The parts of what is left of a range, with `taken` as the front of the first one. -/
theorem partsFrom_eq (depth : Nat) (taken : List Lexeme) (h : taken ++ (s ++ rest) <:+ lex source) :
    ∃ first others ranges, Expression.splitCommas depth s = first :: others ∧
      (Tape.of source).partsFrom (place source rest) s.length depth
        (place source (taken ++ (s ++ rest))) (place source (s ++ rest)) = .ok ranges ∧
      List.Forall₂ (IsRange source) ranges ((taken ++ first) :: others) := by
  induction s generalizing depth taken with
  | nil =>
    refine ⟨[], [], _, rfl, rfl, .cons ⟨rest, ?_, ?_⟩ .nil⟩
    · rwa [List.append_nil]
    · rw [List.append_nil, List.nil_append]
  | cons l s ih =>
    have hnext : l :: (s ++ rest) <:+ lex source := (List.suffix_append taken _).trans h
    have hlater : s ++ rest <:+ lex source := (List.suffix_cons l _).trans hnext
    have hstep : place source (s ++ rest) = place source (l :: (s ++ rest)) + 1 := place_cons hnext
    rw [List.length_cons, List.cons_append, Tape.partsFrom, mark_tape hnext]
    show ∃ first others ranges, _ ∧ (if l.kind = .comma ∧ depth = 0 then _ else _) = _ ∧ _
    by_cases hcomma : l.kind = .comma ∧ depth = 0
    · -- a part ends here, and the next one has nothing in front of it yet
      obtain ⟨first, others, ranges, hsplit, hranges, hparts⟩ := ih 0 [] hlater
      rw [List.nil_append, hstep] at hranges
      refine ⟨[], first :: others, _ :: ranges, ?_, ?_, .cons ⟨l :: (s ++ rest), ?_, rfl⟩ ?_⟩
      · rw [splitCommas_comma hcomma, hsplit]
      · rw [if_pos hcomma, List.append_nil]
        show (Tape.partsFrom _ _ _ _ _ _ >>= _) = _
        rw [hranges]
        rfl
      · rwa [List.append_nil]
      · exact hparts
    · have hmove : taken ++ [l] ++ (s ++ rest) = taken ++ l :: (s ++ rest) := by simp
      obtain ⟨first, others, ranges, hsplit, hranges, hparts⟩ :=
        ih (Tape.parensBehind l.kind depth) (taken ++ [l]) (by rwa [hmove])
      refine ⟨l :: first, others, ranges, ?_, ?_, ?_⟩
      · rw [splitCommas_other hcomma, hsplit, Expression.pushPart]
      · rwa [if_neg hcomma, ← hstep, ← hmove]
      · rwa [List.append_assoc] at hparts

theorem splitCommas_tape {range : Nat × Nat} (h : IsRange source range part) :
    ∃ ranges, (Tape.of source).splitCommas range.1 range.2 = .ok ranges ∧
      List.Forall₂ (IsRange source) ranges (Expression.splitCommas 0 part) := by
  obtain ⟨rest, h, rfl⟩ := h
  obtain ⟨first, others, ranges, hsplit, hranges, hparts⟩ := partsFrom_eq 0 [] h
  refine ⟨ranges, ?_, hsplit ▸ hparts⟩
  rwa [Tape.splitCommas, place_append rfl h, Nat.add_sub_cancel_left, ← place_append rfl h]

/-! ### The parenthesis that closes -/

/-- The number of a closing parenthesis that comes behind the next lexeme. -/
theorem matchFrom_cons {behind : Nat} (hnext : l :: (s ++ rest) <:+ lex source)
    (hopen : openBehind .openParen .closeParen l.kind (depth + 1) = .ok (behind + 1))
    (h : (Tape.of source).matchFrom s.length (behind + 1) (place source (s ++ rest)) =
      .ok ((Expression.splitAtClosing? behind s).map fun p =>
        place source (s ++ rest) + p.1.length)) :
    (Tape.of source).matchFrom (l :: s).length (depth + 1) (place source (l :: (s ++ rest))) =
      .ok (((Expression.splitAtClosing? behind s).map (Scan.push l)).map fun p =>
        place source (l :: (s ++ rest)) + p.1.length) := by
  have hplace := place_cons hnext
  rw [List.length_cons, Tape.matchFrom, mark_tape hnext]
  show (openBehind .openParen .closeParen l.kind (depth + 1) >>= _) = _
  rw [hopen]
  show (if l.kind = .closeParen ∧ behind + 1 = 0 then _ else _) = _
  rw [if_neg (fun h => Nat.succ_ne_zero _ h.2), ← hplace, h, hplace, Option.map_map]
  congr 2
  funext p
  simp only [Function.comp_apply, Scan.push, List.length_cons]
  omega

/-- **Parentheses are not closed more often than they are opened**, if the first of the open ones
    ends the loop. -/
theorem matchFrom_eq (h : s ++ rest <:+ lex source) :
    (Tape.of source).matchFrom s.length (depth + 1) (place source (s ++ rest)) =
      .ok ((Expression.splitAtClosing? depth s).map fun p =>
        place source (s ++ rest) + p.1.length) := by
  fun_induction Expression.splitAtClosing? depth s with
  | case1 => rfl
  | case2 l s hclose =>
    have hnext : l :: (s ++ rest) <:+ lex source := h
    rw [List.length_cons, Tape.matchFrom, List.cons_append, mark_tape hnext]
    show (openBehind .openParen .closeParen l.kind 1 >>= _) = _
    rw [openBehind_closing (by decide) hclose]
    exact if_pos ⟨hclose, rfl⟩
  | case3 l s depth hclose ih =>
    exact matchFrom_cons h (openBehind_closing (by decide) hclose)
      (ih ((List.suffix_cons l _).trans h))
  | case4 l s depth hopen ih =>
    exact matchFrom_cons h (openBehind_opening hopen) (ih ((List.suffix_cons l _).trans h))
  | case5 l s depth hzero hsucc hopen ih =>
    have hclose : l.kind ≠ .closeParen := by
      intro hclose
      cases depth with
      | zero => exact hzero hclose rfl
      | succ depth => exact hsucc depth hclose rfl
    exact matchFrom_cons h (openBehind_other hopen hclose) (ih ((List.suffix_cons l _).trans h))

theorem matchingParen_tape (hopen : l.kind = .openParen) (h : l :: (part ++ rest) <:+ lex source) :
    (Tape.of source).matchingParen (place source (l :: (part ++ rest))) (place source rest) =
      .ok ((Expression.splitAtClosing? 0 part).map fun p =>
        place source (part ++ rest) + p.1.length) := by
  have hstop : place source rest = place source (l :: (part ++ rest)) + (part.length + 1) :=
    place_append (List.cons_append : l :: part ++ rest = l :: (part ++ rest)) h
  rw [Tape.matchingParen, hstop, Nat.add_sub_cancel_left, Tape.matchFrom, mark_tape h]
  show (openBehind .openParen .closeParen l.kind 0 >>= _) = _
  rw [openBehind_opening hopen]
  show (if l.mark.kind = .closeParen ∧ 0 + 1 = 0 then _ else _) = _
  rw [if_neg (fun h => Nat.succ_ne_zero _ h.2), ← place_cons h]
  exact matchFrom_eq ((List.suffix_cons l _).trans h)

/-- The count does slip in a range that starts with a closing parenthesis. -/
example : (Tape.mk ")" [⟨.closeParen, ⟨0, 1, 1, 0⟩⟩]).matchingParen 0 1 = .error .belowZero := rfl

theorem splitAtClosing?_eq_some {inner after : List Lexeme}
    (h : Expression.splitAtClosing? depth s = some (inner, after)) :
    ∃ closing : Lexeme, closing.kind = .closeParen ∧ s = inner ++ closing :: after := by
  induction s generalizing depth inner after with
  | nil => cases h
  | cons l s ih =>
    have hpush : ∀ depth, (Expression.splitAtClosing? depth s).map (Scan.push l) =
        some (inner, after) → ∃ closing : Lexeme, closing.kind = .closeParen ∧
          l :: s = inner ++ closing :: after := by
      intro depth h
      obtain ⟨⟨i, a⟩, hi, heq⟩ := Option.map_eq_some_iff.mp h
      obtain ⟨closing, hkind, rfl⟩ := ih hi
      cases heq
      exact ⟨closing, hkind, rfl⟩
    unfold Expression.splitAtClosing? at h
    split at h
    · next hclose =>
      cases h
      exact ⟨l, hclose, rfl⟩
    · exact hpush _ h
    · exact hpush _ h
    · exact hpush _ h

/-! ### Lexemes that are no newlines -/

/-- The numbers of the lexemes that are no newlines, with `rest` behind them. -/
def numbersOf (source : String) (rest : List Lexeme) : List Lexeme → List Nat
  | [] => []
  | l :: s =>
    if l.kind = .newline then numbersOf source rest s
    else place source (l :: (s ++ rest)) :: numbersOf source rest s

theorem significantFrom_eq (h : s ++ rest <:+ lex source) :
    (Tape.of source).significantFrom s.length (place source (s ++ rest)) =
      .ok (numbersOf source rest s) := by
  induction s with
  | nil => rfl
  | cons l s ih =>
    have hnext : l :: (s ++ rest) <:+ lex source := h
    have hothers := ih ((List.suffix_cons l _).trans hnext)
    rw [place_cons hnext] at hothers
    rw [List.length_cons, Tape.significantFrom, List.cons_append, mark_tape hnext]
    show (Tape.significantFrom _ _ _ >>= _) = _
    rw [hothers, numbersOf]
    rfl

theorem significant_tape (h : part ++ rest <:+ lex source) :
    (Tape.of source).significant (place source (part ++ rest)) (place source rest) =
      .ok (numbersOf source rest part) := by
  rw [Tape.significant, place_append rfl h, Nat.add_sub_cancel_left, significantFrom_eq h]

theorem numbersOf_append (s s' : List Lexeme) :
    numbersOf source rest (s ++ s') =
      numbersOf source (s' ++ rest) s ++ numbersOf source rest s' := by
  induction s with
  | nil => rfl
  | cons l s ih =>
    rw [List.cons_append, numbersOf, numbersOf, ih, List.append_assoc]
    split <;> rfl

theorem numbersOf_skipNewlines (s : List Lexeme) :
    numbersOf source rest (Scan.skipNewlines s) = numbersOf source rest s := by
  induction s with
  | nil => rfl
  | cons l s ih =>
    rw [Scan.skipNewlines, List.dropWhile_cons]
    split
    · next hnewline =>
      rw [numbersOf, if_pos (of_decide_eq_true hnewline)]
      exact ih
    · rfl

/-- Numbers in a range are at least that of its first lexeme. -/
theorem le_of_mem_numbersOf {n : Nat} (h : s ++ rest <:+ lex source)
    (hn : n ∈ numbersOf source rest s) : place source (s ++ rest) ≤ n := by
  induction s with
  | nil => cases hn
  | cons l s ih =>
    have hnext : l :: (s ++ rest) <:+ lex source := h
    have hlater : n ∈ numbersOf source rest s → place source (l :: (s ++ rest)) ≤ n := by
      intro hn
      have hle := ih ((List.suffix_cons l _).trans hnext) hn
      rw [place_cons hnext] at hle
      exact Nat.le_of_succ_le hle
    rw [numbersOf] at hn
    split at hn
    · exact hlater hn
    · rcases List.mem_cons.mp hn with rfl | hn
      · exact Nat.le_refl _
      · exact hlater hn

theorem numbersOf_eq_nil : numbersOf source rest s = [] ↔ s.all (·.kind = .newline) = true := by
  induction s with
  | nil => simp [numbersOf]
  | cons l s ih =>
    rw [numbersOf]
    split
    · next hnewline => simp [hnewline, ih]
    · next hnewline => simp [hnewline]

theorem not_newline_of_skipNewlines (h : Scan.skipNewlines s = l :: part) : l.kind ≠ .newline := by
  have hhead := List.head?_dropWhile_not (fun l : Lexeme => decide (l.kind = .newline)) s
  rw [← Scan.skipNewlines, h] at hhead
  simpa using hhead

/-- The next lexeme that is no newline has the first number. -/
theorem numbersOf_cons (h : Scan.skipNewlines s = l :: part) :
    numbersOf source rest s = place source (l :: (part ++ rest)) :: numbersOf source rest part := by
  rw [← numbersOf_skipNewlines, h, numbersOf, if_neg (not_newline_of_skipNewlines h)]

theorem numbersOf_nil (h : Scan.skipNewlines s = []) : numbersOf source rest s = [] := by
  rw [← numbersOf_skipNewlines, h, numbersOf]

theorem skipNewlines_suffix (h : Scan.skipNewlines s = part) : part ++ rest <:+ s ++ rest := by
  subst h
  exact List.suffix_append_self_iff.mpr (List.dropWhile_suffix _)

theorem filter_skipNewlines (s : List Lexeme) :
    (Scan.skipNewlines s).filter (·.kind ≠ .newline) = s.filter (·.kind ≠ .newline) := by
  induction s with
  | nil => rfl
  | cons l s ih =>
    rw [Scan.skipNewlines, List.dropWhile_cons]
    split
    · next hnewline =>
      rw [List.filter_cons_of_neg (by simpa using hnewline)]
      exact ih
    · rfl

theorem filter_of_skipNewlines (h : Scan.skipNewlines s = l :: part) :
    s.filter (·.kind ≠ .newline) = l :: part.filter (·.kind ≠ .newline) := by
  have hkind := not_newline_of_skipNewlines h
  rw [← filter_skipNewlines, h, List.filter_cons_of_pos (by simpa using hkind)]

/-- The number is that of a lexeme of the source. -/
def IsNumber (source : String) (number : Nat) (l : Lexeme) : Prop :=
  ∃ rest, l :: rest <:+ lex source ∧ number = place source (l :: rest)

theorem getElem?_numbersOf (h : s ++ rest <:+ lex source) (n : Nat) :
    Option.Rel (IsNumber source) (numbersOf source rest s)[n]?
      (s.filter (·.kind ≠ .newline))[n]? := by
  induction s generalizing n with
  | nil => exact .none
  | cons l s ih =>
    have hnext : l :: (s ++ rest) <:+ lex source := h
    have hlater := (List.suffix_cons l _).trans hnext
    rw [numbersOf]
    split
    · next hnewline =>
      rw [List.filter_cons_of_neg (by simpa using hnewline)]
      exact ih hlater n
    · next hnewline =>
      rw [List.filter_cons_of_pos (by simpa using hnewline)]
      cases n with
      | zero => exact .some ⟨_, hnext, rfl⟩
      | succ n => exact ih hlater n

theorem kindAt?_tape {number : Option Nat} {l : Option Lexeme}
    (h : Option.Rel (IsNumber source) number l) :
    (Tape.of source).kindAt? number = .ok (l.map (·.kind)) := by
  cases h with
  | none => rfl
  | some h =>
    obtain ⟨rest, hrest, rfl⟩ := h
    rw [Tape.kindAt?, mark_tape hrest]
    rfl

theorem tokenAt?_tape {number : Option Nat} {l : Option Lexeme}
    (h : Option.Rel (IsNumber source) number l) :
    (Tape.of source).tokenAt? number = .ok (l.map (·.token)) := by
  cases h with
  | none => rfl
  | some h =>
    obtain ⟨rest, hrest, rfl⟩ := h
    rw [Tape.tokenAt?, mark_tape hrest]
    show ((Tape.of source).token _ >>= _) = _
    rw [token_tape (hrest.subset List.mem_cons_self)]
    rfl

end Ranges

end SequenceDiagram
