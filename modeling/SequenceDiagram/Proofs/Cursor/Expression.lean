import SequenceDiagram.Proofs.Cursor.Ranges

namespace SequenceDiagram

open Syntax

/-!
# Expressions on the tape

An expression is read from a range of lexemes. It looks up all its lexemes by numbers: those of the
range itself, and those of the ranges of its arguments.

* `argumentRange?_tape`: the parenthesis that closes the first one is looked for up to the end of
  the range, and the arguments are the range between the two.
* `invocation?_tape`: the first lexemes that are no newlines tell whether a method is called.
* `expression?_tape`: from the range of some lexemes the tape has their expression. The ranges of
  the arguments are shorter.
-/

namespace Tape

/-- The range between the parenthesis of a number and the one that closes it, if that is the last
    lexeme that is no newline. -/
def argumentRange? (t : Tape) (opening : Option Nat) (stop : Nat) (last : Option Nat) :
    Except Slip (Option (Nat × Nat)) := do
  match opening with
  | none => return none
  | some opening =>
    if (← t.mark opening).kind = .openParen then
      let closing ← t.matchingParen opening stop
      return (closing.filter fun closing => some closing = last).map fun closing =>
        (opening + 1, closing)
    else return none

/-- The target of an invocation, and the place of its method among the lexemes of some numbers. -/
def method? (t : Tape) (numbers : List Nat) : Except Slip (Option (Option Token × Nat)) := do
  let first ← t.kindAt? numbers[0]?
  let second ← t.kindAt? numbers[1]?
  let third ← t.kindAt? numbers[2]?
  if first = some .name ∧ second = some .dot ∧ third = some .name then
    return some (← t.tokenAt? numbers[0]?, 2)
  else if first = some .name ∧ second = some .openParen then return some (none, 0)
  else return none

/-- The target, the method and the range of the arguments of an invocation. -/
def invocation? (t : Tape) (numbers : List Nat) (stop : Nat) :
    Except Slip (Option (Option Token × Option Token × Nat × Nat)) := do
  match ← t.method? numbers with
  | none => return none
  | some (target, method) =>
    let range ← t.argumentRange? numbers[method + 1]? stop numbers.getLast?
    let method ← t.tokenAt? numbers[method]?
    return range.map fun range => (target, method, range)

/-- A lexeme of this kind is an expression of its own. -/
def isAtom (kind : Option LexemeKind) : Bool :=
  kind = some .name || kind = some .number || kind = some .quoted

/-- What `read` gives for the parts of a range between its commas. -/
def expressions (t : Tape) (read : Nat × Nat → Except Slip (Option Syntax.Expression))
    (range : Nat × Nat) : Except Slip (List Syntax.Expression) := do
  let parts ← t.splitCommas range.1 range.2
  let expressions ← parts.mapM read
  return expressions.filterMap id

/-- The expression in a range of lexemes; `fuel` is more than their number. -/
def expression? (t : Tape) : (fuel start stop : Nat) → Except Slip (Option Syntax.Expression)
  | 0, _, _ => .error .endless
  | fuel + 1, start, stop => do
    let numbers ← t.significant start stop
    let first ← t.kindAt? numbers[0]?
    if numbers.length = 0 then return none
    else if numbers.length = 1 && isAtom first then
      return (← t.tokenAt? numbers[0]?).map .atom
    else
      match ← t.invocation? numbers stop with
      | none => return some (.raw (← t.tokenOf start stop))
      | some (target, method, inner) => do
        let arguments ← t.expressions (fun part => t.expression? fuel part.1 part.2) inner
        return some (.invocation target method arguments)

/-- The expression in a range of lexemes. -/
def expressionIn? (t : Tape) (range : Nat × Nat) : Except Slip (Option Syntax.Expression) :=
  t.expression? (range.2 - range.1 + 1) range.1 range.2

end Tape

section Expressions

variable {source : String} {part rest s : List Lexeme} {l : Lexeme}

/-! ### Invocations -/

/-- The parenthesis is the last of the lexemes that are no newlines. -/
theorem getLast?_numbersOf {closing : Lexeme} {after : List Lexeme} (inner : List Lexeme)
    (hclose : closing.kind = .closeParen) (hnext : closing :: (after ++ rest) <:+ lex source)
    (front : List Nat) :
    some (place source (closing :: (after ++ rest))) =
      (front ++ numbersOf source rest (inner ++ closing :: after)).getLast? ↔
        after.all (·.kind = .newline) = true := by
  have hkind : ¬closing.kind = .newline := by
    rw [hclose]
    decide
  have hnil : numbersOf source rest after = [] ↔ after.all (·.kind = .newline) = true :=
    numbersOf_eq_nil
  rw [numbersOf_append, numbersOf, if_neg hkind, ← hnil]
  rw [List.getLast?_append, List.getLast?_append, List.getLast?_cons]
  cases hlast : (numbersOf source rest after).getLast? with
  | none => simpa using hlast
  | some last =>
    have hmem := List.mem_of_getLast? hlast
    have hle := le_of_mem_numbersOf ((List.suffix_cons closing _).trans hnext) hmem
    rw [place_cons hnext] at hle
    have hne : place source (closing :: (after ++ rest)) ≠ last := Nat.ne_of_lt hle
    simpa [hne] using List.ne_nil_of_mem hmem

theorem argumentRange?_tape (h : s ++ rest <:+ lex source) (front : List Nat) :
    ∃ range, (Tape.of source).argumentRange? (numbersOf source rest s)[0]? (place source rest)
        (front ++ numbersOf source rest s).getLast? = .ok range ∧
      Option.Rel (IsRange source) range (Expression.argumentList? s) := by
  unfold Expression.argumentList?
  cases hskip : Scan.skipNewlines s with
  | nil =>
    rw [numbersOf_nil hskip]
    exact ⟨none, rfl, .none⟩
  | cons l part =>
    have hnext : l :: (part ++ rest) <:+ lex source := (skipNewlines_suffix hskip).trans h
    have hbehind : part ++ rest <:+ lex source := (List.suffix_cons l _).trans hnext
    rw [numbersOf_cons hskip, List.getElem?_cons_zero, Tape.argumentRange?, mark_tape hnext]
    show ∃ range, (if l.kind = .openParen then _ else _) = _ ∧ _
    dsimp only
    by_cases hopen : l.kind = .openParen
    · rw [if_pos hopen, if_pos hopen]
      rw [matchingParen_tape hopen hnext]
      cases hsplit : Expression.splitAtClosing? 0 part with
      | none => exact ⟨none, rfl, .none⟩
      | some p =>
        obtain ⟨inner, after⟩ := p
        obtain ⟨closing, hclose, rfl⟩ := splitAtClosing?_eq_some hsplit
        have hparts : inner ++ closing :: after ++ rest = inner ++ closing :: (after ++ rest) := by
          simp
        rw [hparts] at hnext hbehind ⊢
        have hafter : closing :: (after ++ rest) <:+ lex source :=
          (List.suffix_append inner _).trans hbehind
        have hlast := getLast?_numbersOf inner hclose hafter
          (front ++ [place source (l :: (inner ++ closing :: (after ++ rest)))])
        rw [List.append_assoc, List.singleton_append, place_append rfl hbehind] at hlast
        show ∃ range, Except.ok (((if decide _ = true then _ else _) : Option Nat).map _) = _ ∧ _
        dsimp only [Option.map_some, Option.bind_some]
        by_cases hall : after.all (·.kind = .newline) = true
        · rw [if_pos hall, if_pos (decide_eq_true (hlast.mpr hall))]
          refine ⟨_, rfl, .some ⟨closing :: (after ++ rest), hbehind, ?_⟩⟩
          rw [place_cons hnext, place_append rfl hbehind, place_cons hnext]
        · rw [if_neg hall, if_neg (fun h => hall (hlast.mp (of_decide_eq_true h)))]
          exact ⟨none, rfl, .none⟩
    · rw [if_neg hopen, if_neg hopen]
      exact ⟨none, rfl, .none⟩

/-- The method is found among the lexemes that are no newlines. -/
theorem method?_tape (h : s ++ rest <:+ lex source) {ls : List Lexeme}
    (hls : s.filter (·.kind ≠ .newline) = ls) :
    (Tape.of source).method? (numbersOf source rest s) =
      .ok (if ls[0]?.map (·.kind) = some .name ∧ ls[1]?.map (·.kind) = some .dot ∧
          ls[2]?.map (·.kind) = some .name then some (ls[0]?.map (·.token), 2)
        else if ls[0]?.map (·.kind) = some .name ∧ ls[1]?.map (·.kind) = some .openParen then
          some (none, 0)
        else none) := by
  subst hls
  have hkind := fun n => kindAt?_tape (getElem?_numbersOf h n)
  unfold Tape.method?
  rw [hkind, hkind, hkind, tokenAt?_tape (getElem?_numbersOf h 0)]
  show (if _ then _ else if _ then _ else _) = _
  split
  · rfl
  · split <;> rfl

/-- The tape has the target and the method, and the range of the arguments. -/
inductive IsInvocation (source : String) :
    Option Token × Option Token × Nat × Nat → Option Token × Token × List Lexeme → Prop where
  | mk {range : Nat × Nat} {inner : List Lexeme} (target : Option Token) (method : Token)
    (h : IsRange source range inner) :
    IsInvocation source (target, some method, range) (target, method, inner)

/-- Without a method there is no invocation. -/
theorem invocation?_of_none {numbers : List Nat}
    (hmethod : (Tape.of source).method? numbers = .ok none) :
    ∃ found, (Tape.of source).invocation? numbers (place source rest) = .ok found ∧
      Option.Rel (IsInvocation source) found none := by
  refine ⟨none, ?_, .none⟩
  rw [Tape.invocation?, hmethod]
  rfl

/-- The target and the method are known, and the arguments come behind them. -/
theorem invocation?_of_method {numbers : List Nat} {n : Nat} {target : Option Token}
    {method : Token} {range : Option (Nat × Nat)} {inner : Option (List Lexeme)}
    (hmethod : (Tape.of source).method? numbers = .ok (some (target, n)))
    (htoken : (Tape.of source).tokenAt? numbers[n]? = .ok (some method))
    (hrange : (Tape.of source).argumentRange? numbers[n + 1]? (place source rest)
      numbers.getLast? = .ok range)
    (hinner : Option.Rel (IsRange source) range inner) :
    ∃ found, (Tape.of source).invocation? numbers (place source rest) = .ok found ∧
      Option.Rel (IsInvocation source) found (inner.map fun inner => (target, method, inner)) := by
  refine ⟨range.map fun range => (target, some method, range), ?_, ?_⟩
  · rw [Tape.invocation?, hmethod]
    show (Tape.argumentRange? _ _ _ _ >>= _) = _
    rw [hrange]
    show (Tape.tokenAt? _ _ >>= _) = _
    rw [htoken]
    rfl
  · cases hinner with
    | none => exact .none
    | some h => exact .some (.mk target method h)

/-- There is no argument list where something else than a parenthesis comes next. -/
theorem argumentList?_eq_none (hnewline : l.kind ≠ .newline) (hopen : l.kind ≠ .openParen) :
    Expression.argumentList? (l :: s) = none := by
  have hskip : Scan.skipNewlines (l :: s) = l :: s :=
    List.dropWhile_cons_of_neg (by simpa using hnewline)
  rw [Expression.argumentList?, hskip]
  exact if_neg hopen

/-- The tape has the invocations, by what the first lexemes are that are no newlines. -/
theorem invocation?_tape (h : s ++ rest <:+ lex source) :
    ∃ found, (Tape.of source).invocation? (numbersOf source rest s) (place source rest) =
        .ok found ∧ Option.Rel (IsInvocation source) found (Expression.invocation? s) := by
  have htoken := fun n => tokenAt?_tape (getElem?_numbersOf h n)
  unfold Expression.invocation?
  cases hfirst : Scan.skipNewlines s with
  | nil =>
    have hls : s.filter (·.kind ≠ .newline) = [] := by
      rw [← filter_skipNewlines, hfirst, List.filter_nil]
    exact invocation?_of_none (method?_tape h hls)
  | cons first part =>
    have hls := filter_of_skipNewlines hfirst
    have hpart : part ++ rest <:+ lex source :=
      (List.suffix_cons first _).trans ((skipNewlines_suffix hfirst).trans h)
    dsimp only
    split
    · next hname => exact invocation?_of_none ((method?_tape h hls).trans (by simp [hname]))
    · next hname =>
      rw [not_not] at hname
      cases hsecond : Scan.skipNewlines part with
      | nil =>
        rw [← filter_skipNewlines part, hsecond] at hls
        exact invocation?_of_none ((method?_tape h hls).trans (by simp))
      | cons second behind =>
        have hnext : second :: behind ++ rest <:+ lex source :=
          (skipNewlines_suffix hsecond).trans hpart
        rw [filter_of_skipNewlines hsecond] at hls
        dsimp only
        split
        · next hdot =>
          cases hthird : Scan.skipNewlines behind with
          | nil =>
            rw [← filter_skipNewlines behind, hthird] at hls
            exact invocation?_of_none ((method?_tape h hls).trans (by simp [hdot]))
          | cons third last =>
            have hlast : third :: (last ++ rest) <:+ lex source :=
              (skipNewlines_suffix hthird).trans ((List.suffix_cons second _).trans hnext)
            rw [filter_of_skipNewlines hthird] at hls
            dsimp only
            split
            · next hnamed =>
              exact invocation?_of_none ((method?_tape h hls).trans (by simp [hdot, hnamed]))
            · next hnamed =>
              -- a target, a dot and a method
              rw [not_not] at hnamed
              obtain ⟨range, hrange, hinner⟩ :=
                argumentRange?_tape ((List.suffix_cons third _).trans hlast) [_, _, _]
              rw [hls] at htoken
              refine invocation?_of_method ((method?_tape h hls).trans
                (by simp [hname, hdot, hnamed])) (htoken 2) ?_ hinner
              rw [numbersOf_cons hfirst, numbersOf_cons hsecond, numbersOf_cons hthird]
              exact hrange
        · next hdot =>
          by_cases hopen : second.kind = .openParen
          · -- a method alone
            obtain ⟨range, hrange, hinner⟩ := argumentRange?_tape hnext [_]
            rw [hls] at htoken
            refine invocation?_of_method ((method?_tape h hls).trans (by simp [hname, hopen]))
              (htoken 0) ?_ hinner
            rw [numbersOf_cons hfirst, ← numbersOf_skipNewlines part, hsecond]
            exact hrange
          · rw [argumentList?_eq_none (not_newline_of_skipNewlines hsecond) hopen]
            exact invocation?_of_none ((method?_tape h hls).trans (by simp [hdot, hopen]))

/-! ### Expressions -/

theorem mapM_ranges {f : Nat × Nat → Except Slip (Option Syntax.Expression)}
    {ranges : List (Nat × Nat)} {parts : List (List Lexeme)}
    (h : List.Forall₂ (IsRange source) ranges parts)
    (hf : ∀ range, ∀ part ∈ parts, IsRange source range part →
      f range = .ok (Expression.ofLexemes? part)) :
    ranges.mapM f = .ok (parts.map Expression.ofLexemes?) := by
  induction h with
  | nil => rfl
  | cons hfirst hothers ih =>
    rw [List.mapM_cons, hf _ _ List.mem_cons_self hfirst,
      ih fun range part hpart => hf range part (List.mem_cons_of_mem _ hpart)]
    rfl

theorem expressions_tape {range : Nat × Nat}
    {f : Nat × Nat → Except Slip (Option Syntax.Expression)} (h : IsRange source range s)
    (hf : ∀ range, ∀ part ∈ Expression.splitCommas 0 s, IsRange source range part →
      f range = .ok (Expression.ofLexemes? part)) :
    (Tape.of source).expressions f range =
      .ok ((Expression.splitCommas 0 s).filterMap Expression.ofLexemes?) := by
  obtain ⟨ranges, hranges, hparts⟩ := splitCommas_tape h
  rw [Tape.expressions, hranges]
  show (ranges.mapM f >>= _) = _
  rw [mapM_ranges hparts hf]
  show Except.ok _ = _
  rw [List.filterMap_map]
  rfl

theorem length_numbersOf (s : List Lexeme) :
    (numbersOf source rest s).length = (s.filter (·.kind ≠ .newline)).length := by
  induction s with
  | nil => rfl
  | cons l s ih =>
    rw [numbersOf, List.filter_cons]
    by_cases hnewline : l.kind = .newline
    · rw [if_pos hnewline, if_neg (by simpa using hnewline), ih]
    · rw [if_neg hnewline, if_pos (by simpa using hnewline), List.length_cons, List.length_cons, ih]

/-- A single lexeme that is no newline makes no invocation. -/
theorem invocation?_single (h : part.filter (·.kind ≠ .newline) = [l]) :
    Expression.invocation? part = none := by
  unfold Expression.invocation?
  cases hfirst : Scan.skipNewlines part with
  | nil => rfl
  | cons first others =>
    have hothers : Scan.skipNewlines others = [] := by
      rw [filter_of_skipNewlines hfirst, List.cons.injEq] at h
      cases hsecond : Scan.skipNewlines others with
      | nil => rfl
      | cons second behind =>
        rw [filter_of_skipNewlines hsecond] at h
        cases h.2
    dsimp only
    rw [hothers]
    exact ite_self _

/-- How an expression of more than a single word is read. -/
theorem ofLexemes?_compound {others : List Lexeme}
    (h : part.filter (·.kind ≠ .newline) = l :: others)
    (hatom : ¬(others = [] ∧ Expression.isAtom l = true)) :
    Expression.ofLexemes? part = match Expression.invocation? part with
      | some (target, method, inner) =>
        some (.invocation target (some method)
          ((Expression.splitCommas 0 inner).filterMap Expression.ofLexemes?))
      | none => some (.raw (Scan.tokenOf .nowhere part [])) := by
  conv_lhs => unfold Expression.ofLexemes?
  rw [h]
  cases others with
  | nil =>
    rw [invocation?_single h]
    exact congrArg some (if_neg fun hl => hatom ⟨rfl, hl⟩)
  | cons second others =>
    dsimp only [List.length_cons, List.head?_cons]
    split
    · next hlength _ => cases hlength
    · split
      · next hfound =>
        rw [hfound]
        dsimp only
        rw [← List.attach_map_subtype_val (Expression.splitCommas 0 _), List.filterMap_map,
          List.attach_map_subtype_val]
        rfl
      · next hfound => rw [hfound]

/-- Text that is kept as it is does not depend on what stands behind it. -/
theorem tokenOf_raw (hne : part ≠ []) (h : part ++ rest <:+ lex source) :
    (Tape.of source).tokenOf (place source (part ++ rest)) (place source rest) =
      .ok (Scan.tokenOf .nowhere part []) := by
  rw [tokenOf_tape rfl h, Scan.tokenOf, Scan.spanOf_congr hne _ .nowhere rest []]
  rfl

/-- **The tape has the expressions.** From the place of some lexemes to that of the lexemes behind
    them it has the expression of these lexemes. -/
theorem expression?_tape {fuel : Nat} (hfuel : part.length < fuel)
    (h : part ++ rest <:+ lex source) :
    (Tape.of source).expression? fuel (place source (part ++ rest)) (place source rest) =
      .ok (Expression.ofLexemes? part) := by
  induction fuel generalizing part rest with
  | zero => exact absurd hfuel (Nat.not_lt_zero _)
  | succ fuel ih =>
    have hfirst := getElem?_numbersOf h 0
    have hlength : (numbersOf source rest part).length = _ := length_numbersOf part
    rw [Tape.expression?, significant_tape h]
    show (Tape.kindAt? _ _ >>= _) = _
    rw [kindAt?_tape hfirst]
    cases hsignificant : part.filter (·.kind ≠ .newline) with
    | nil =>
      rw [hsignificant, List.length_nil] at hlength
      show (if (numbersOf source rest part).length = 0 then _ else _) = _
      rw [if_pos hlength]
      unfold Expression.ofLexemes?
      rw [hsignificant]
      rfl
    | cons l others =>
      rw [hsignificant] at hlength hfirst
      have hne : part ≠ [] := by
        rintro rfl
        cases hsignificant
      have hatoms : Tape.isAtom (some l.kind) = Expression.isAtom l := by
        simp [Tape.isAtom, Expression.isAtom]
      show (if (numbersOf source rest part).length = 0 then _
        else if (decide _ && Tape.isAtom (some l.kind)) = true then _ else _) = _
      rw [if_neg (by simp [hlength])]
      by_cases hatom : others = [] ∧ Expression.isAtom l = true
      · obtain ⟨rfl, hl⟩ := hatom
        rw [if_pos (by simp [hlength, hatoms, hl]), tokenAt?_tape hfirst]
        unfold Expression.ofLexemes?
        rw [hsignificant]
        exact congrArg Except.ok (congrArg some (if_pos hl).symm)
      · rw [if_neg (by simpa [hlength, hatoms] using hatom), ofLexemes?_compound hsignificant hatom]
        obtain ⟨found, hfound, hinvocation⟩ := invocation?_tape h
        rw [hfound]
        generalize hexpected : Expression.invocation? part = expected at hinvocation
        cases hinvocation with
        | none =>
          show (Tape.tokenOf _ _ _ >>= _) = _
          rw [tokenOf_raw hne h]
          rfl
        | some hinvocation =>
          obtain @⟨range, inner, target, method, hinner⟩ := hinvocation
          -- the arguments are shorter than the text of the invocation
          have hshort := Expression.length_lt_of_invocation? hexpected
          have hread : ∀ range, ∀ p ∈ Expression.splitCommas 0 inner, IsRange source range p →
              (Tape.of source).expression? fuel range.1 range.2 = .ok (Expression.ofLexemes? p) := by
            rintro _ p hp ⟨behind, hbehind, rfl⟩
            have hle := Expression.length_le_of_mem_splitCommas hp
            exact ih (by omega) hbehind
          show (Tape.expressions _ _ _ >>= _) = _
          rw [expressions_tape hinner hread]
          rfl

theorem expressionIn?_tape {range : Nat × Nat} (h : IsRange source range part) :
    (Tape.of source).expressionIn? range = .ok (Expression.ofLexemes? part) := by
  obtain ⟨rest, h, rfl⟩ := h
  refine expression?_tape ?_ h
  rw [place_append rfl h, Nat.add_sub_cancel_left]
  exact Nat.lt_succ_self _

end Expressions

end SequenceDiagram
