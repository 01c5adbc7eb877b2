import SequenceDiagram.Proofs.Cursor.Moves

namespace SequenceDiagram

open Syntax

/-!
# Brackets on the tape

The loops that count brackets while the cursor moves on. Each takes one off the count at a closing
bracket, and relies on what it has seen before for the count not to be zero there.

* `openBehind` is the step of the count, which slips at zero.
* `nestedLength_eq`: a closing brace ends the loop if no brace is open, so the count of braces does
  not go below zero.
* `enclosedLength_eq`: the count of parentheses starts with the one before the loop, and the loop
  ends when this one is closed.
-/

/-- How many brackets are open behind a lexeme, if `depth` were open before it. -/
def openBehind (opening closing kind : LexemeKind) (depth : Nat) : Except Slip Nat :=
  if kind = opening then .ok (depth + 1)
  else if kind = closing then decrement depth
  else .ok depth

section Count

variable {opening closing kind : LexemeKind} {depth : Nat}

theorem openBehind_opening (h : kind = opening) :
    openBehind opening closing kind depth = .ok (depth + 1) := if_pos h

theorem openBehind_closing (hne : closing ≠ opening) (h : kind = closing) :
    openBehind opening closing kind (depth + 1) = .ok depth := by
  rw [openBehind, if_neg (h ▸ hne), if_pos h]
  rfl

theorem openBehind_other (h : kind ≠ opening) (h' : kind ≠ closing) :
    openBehind opening closing kind depth = .ok depth := by
  rw [openBehind, if_neg h, if_neg h']

end Count

namespace Cursor

/-! ### Braces -/

/-- How many lexemes come before one that `stops` says no to, or before a brace that closes what was
    open before. `stops` is told the kind and whether all braces opened on the way are closed again,
    `depth` counts those that are not. -/
def nestedLength (stops : LexemeKind → Bool → Bool) : Nat → List Mark → Except Slip Nat
  | _, [] => .ok 0
  | depth, m :: rest =>
    if stops m.kind (depth = 0) then .ok 0
    else if m.kind = .closeBrace ∧ depth = 0 then .ok 0
    else do
      let depth ← openBehind .openBrace .closeBrace m.kind depth
      return (← nestedLength stops depth rest) + 1

/-- Moves over lexemes up to one that `stops` says no to, or up to a brace that closes what was open
    before. -/
def passNested (stops : LexemeKind → Bool → Bool) : Cursor Unit := fun t pos => do
  return ((), pos + (← nestedLength stops 0 (t.marks.drop pos)))

/-- Moves over the rest of a statement that was not understood. -/
def recover : Cursor Unit :=
  passNested fun kind top => top && (kind = .newline || kind = .semicolon)

/-- Reads the rest of a line, or only the part before a semicolon. -/
def restOfLine (upToSemicolon : Bool) : Cursor (Option Token) := do
  let inner ← here
  passNested fun kind top => kind = .newline || (upToSemicolon && top && kind = .semicolon)
  tokenUnlessEmpty inner

/-! ### Parentheses -/

/-- How many lexemes come before the parenthesis that closes the first of `depth` open ones, and
    whether it comes before the next brace. -/
def enclosedLength : Nat → List Mark → Except Slip (Nat × Bool)
  | _, [] => .ok (0, false)
  | depth, m :: rest =>
    if m.kind = .openBrace ∨ m.kind = .closeBrace then .ok (0, false)
    else do
      let depth ← openBehind .openParen .closeParen m.kind depth
      if m.kind = .closeParen ∧ depth = 0 then .ok (0, true)
      else do
        let (length, closed) ← enclosedLength depth rest
        return (length + 1, closed)

/-- Moves over what `enclosedLength` counts. -/
def passEnclosed : Cursor Bool := fun t pos => do
  let (length, closed) ← enclosedLength 1 (t.marks.drop pos)
  return (closed, pos + length)

/-- Moves over an opening parenthesis and up to behind the one that closes it. The numbers are those
    of the first lexeme between them and of the one behind the last. -/
def balanced : Cursor (Nat × Nat) := do
  let _ ← bump
  let inner ← here
  let closed ← passEnclosed
  let stop ← here
  if closed then
    let _ ← bump
    return (inner, stop)
  else return (inner, stop)

/-! ### The readers of lists do the same -/

variable {source : String} {bound : Nat}

section Steps

variable {stops : LexemeKind → Bool → Bool} {depth behind length : Nat} {closed : Bool} {l : Lexeme}
  {rest : List Lexeme}

theorem nestedLength_cons (hstop : ¬stops l.kind (depth = 0) = true)
    (hclose : ¬(l.kind = .closeBrace ∧ depth = 0))
    (hopen : openBehind .openBrace .closeBrace l.kind depth = .ok behind)
    (h : nestedLength stops behind (rest.map Lexeme.mark) = .ok length) :
    nestedLength stops depth ((l :: rest).map Lexeme.mark) = .ok (length + 1) := by
  have hkind : l.mark.kind = l.kind := rfl
  rw [List.map_cons, nestedLength, hkind, if_neg hstop, if_neg hclose, hopen]
  show (nestedLength stops behind (rest.map Lexeme.mark) >>= _) = _
  rw [h]
  rfl

theorem enclosedLength_cons (hbrace : ¬(l.kind = .openBrace ∨ l.kind = .closeBrace))
    (hopen : openBehind .openParen .closeParen l.kind depth = .ok behind)
    (hclose : ¬(l.kind = .closeParen ∧ behind = 0))
    (h : enclosedLength behind (rest.map Lexeme.mark) = .ok (length, closed)) :
    enclosedLength depth ((l :: rest).map Lexeme.mark) = .ok (length + 1, closed) := by
  have hkind : l.mark.kind = l.kind := rfl
  rw [List.map_cons, enclosedLength, hkind, if_neg hbrace, hopen]
  show (if l.kind = .closeParen ∧ behind = 0 then _ else _) = _
  rw [if_neg hclose, h]
  rfl

end Steps

/-- **Braces are not closed more often than they are opened.** -/
theorem nestedLength_eq (stops : LexemeKind → Bool → Bool) (depth : Nat) (s : List Lexeme) :
    nestedLength stops depth (s.map Lexeme.mark) =
      .ok (Scan.takeNested stops depth s).1.length := by
  fun_induction Scan.takeNested stops depth s with
  | case1 => rfl
  | case2 depth l rest hstop => exact if_pos hstop
  | case3 l rest hclose hstop => exact (if_neg hstop).trans (if_pos ⟨hclose, rfl⟩)
  | case4 l rest depth hclose hstop ih =>
    refine nestedLength_cons hstop (fun h => Nat.succ_ne_zero _ h.2) ?_ ih
    exact openBehind_closing (by decide) hclose
  | case5 l rest depth hopen hstop ih =>
    refine nestedLength_cons hstop (fun h => ?_) (openBehind_opening hopen) ih
    exact absurd (hopen.symm.trans h.1) (by decide)
  | case6 l rest depth hzero hsucc hopen hstop ih =>
    have hclose : l.kind ≠ .closeBrace := by
      intro hclose
      cases depth with
      | zero => exact hzero hclose rfl
      | succ depth => exact hsucc depth hclose rfl
    exact nestedLength_cons hstop (fun h => hclose h.1) (openBehind_other hopen hclose) ih

/-- **Parentheses are not closed more often than they are opened**, the one before the loop
    included. -/
theorem enclosedLength_eq (depth : Nat) (s : List Lexeme) :
    enclosedLength (depth + 1) (s.map Lexeme.mark) =
      .ok ((Scan.balanced depth s).1.length,
        Scan.startsWith .closeParen (Scan.balanced depth s).2) := by
  fun_induction Scan.balanced depth s with
  | case1 => rfl
  | case2 depth l rest hopen =>
    rw [startsWith_cons, hopen]
    exact if_pos (.inl hopen)
  | case3 depth l rest hclose =>
    rw [startsWith_cons, hclose]
    exact if_pos (.inr hclose)
  | case4 l rest hclose =>
    rw [startsWith_cons, hclose]
    have hkind : l.mark.kind = l.kind := rfl
    rw [List.map_cons, enclosedLength, hkind, hclose]
    rfl
  | case5 l rest depth hclose ih =>
    refine enclosedLength_cons ?_ (openBehind_closing (by decide) hclose)
      (fun h => Nat.succ_ne_zero _ h.2) ih
    rw [hclose]
    decide
  | case6 l rest depth hopen ih =>
    refine enclosedLength_cons ?_ (openBehind_opening hopen) (fun h => Nat.succ_ne_zero _ h.2) ih
    rw [hopen]
    decide
  | case7 l rest depth hopen hclose hzero hsucc hparen ih =>
    have hclosing : l.kind ≠ .closeParen := by
      intro hclosing
      cases depth with
      | zero => exact hzero hclosing rfl
      | succ depth => exact hsucc depth hclosing rfl
    exact enclosedLength_cons (fun h => h.elim hopen hclose) (openBehind_other hparen hclosing)
      (fun h => hclosing h.1) ih

theorem follows_passNested (stops : LexemeKind → Bool → Bool) (s : List Lexeme) :
    Follows source bound (passNested stops) s ((), (Scan.takeNested stops 0 s).2) := by
  intro hs _
  have happend := Scan.takeNested_append stops 0 s
  refine ⟨?_, ⟨_, happend⟩⟩
  rw [passNested, drop_marks hs, nestedLength_eq, place_append happend hs]
  rfl

theorem follows_recover (s : List Lexeme) :
    Follows source bound recover s ((), (Scan.restOfStatement s).2) := follows_passNested _ s

theorem follows_restOfLine (upToSemicolon : Bool) (s : List Lexeme) :
    Follows source bound (restOfLine upToSemicolon) s
      (Scan.tokenUnlessEmpty (stopOf source) (Scan.restOfLine upToSemicolon s).1
        (Scan.restOfLine upToSemicolon s).2, (Scan.restOfLine upToSemicolon s).2) := by
  refine .of_suffix fun hs _ => (follows_here s).bind fun _ => ?_
  refine (follows_passNested _ s).bind fun _ => ?_
  exact follows_tokenUnlessEmpty s (Scan.takeNested_append _ 0 s) hs

theorem follows_passEnclosed (s : List Lexeme) : Follows source bound passEnclosed s
    (Scan.startsWith .closeParen (Scan.balanced 0 s).2, (Scan.balanced 0 s).2) := by
  intro hs _
  have happend := Scan.balanced_append 0 s
  refine ⟨?_, ⟨_, happend⟩⟩
  rw [passEnclosed, drop_marks hs, enclosedLength_eq, place_append happend hs]
  rfl

theorem follows_balanced (s : List Lexeme) : Follows source bound balanced s
    ((place source s.tail, place source (Scan.balanced 0 s.tail).2),
      Scan.skip .closeParen (Scan.balanced 0 s.tail).2) := by
  refine (follows_bump s).bind fun _ => (follows_here _).bind fun _ => ?_
  refine (follows_passEnclosed _).bind fun _ => (follows_here _).bind fun _ => ?_
  unfold Scan.skip
  dsimp only
  split
  · exact (follows_bump _).bind fun _ => .pure _
  · exact .pure _

end Cursor

end SequenceDiagram
