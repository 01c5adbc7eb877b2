import SequenceDiagram.Syntax.Scan

namespace SequenceDiagram

open Syntax

/-!
# Expressions

The lexemes between two parentheses are read as an expression: a single name, number or quoted text
is an atom, `method(…)` and `target.method(…)` are invocations if the last parenthesis closes the
first, and all else is kept as raw text. Newlines between the lexemes do not matter.
-/

namespace Expression

/-- Puts a lexeme in front of the first part. -/
def pushPart (l : Lexeme) : List (List Lexeme) → List (List Lexeme)
  | [] => [[l]]
  | part :: parts => (l :: part) :: parts

/-- The parts between the commas that no parenthesis encloses; `depth` counts the open ones. -/
def splitCommas (depth : Nat) : List Lexeme → List (List Lexeme)
  | [] => [[]]
  | l :: rest =>
    match l.kind, depth with
    | .comma, 0 => [] :: splitCommas 0 rest
    | .openParen, depth => pushPart l (splitCommas (depth + 1) rest)
    | .closeParen, depth => pushPart l (splitCommas (depth - 1) rest)
    | _, depth => pushPart l (splitCommas depth rest)

/-- Splits at the parenthesis that closes the one before; `depth` counts those opened since. -/
def splitAtClosing? (depth : Nat) : List Lexeme → Option (List Lexeme × List Lexeme)
  | [] => none
  | l :: rest =>
    match l.kind, depth with
    | .closeParen, 0 => some ([], rest)
    | .closeParen, depth + 1 => (splitAtClosing? depth rest).map (Scan.push l)
    | .openParen, depth => (splitAtClosing? (depth + 1) rest).map (Scan.push l)
    | _, depth => (splitAtClosing? depth rest).map (Scan.push l)

theorem length_le_of_mem_splitCommas {depth : Nat} {s part : List Lexeme}
    (h : part ∈ splitCommas depth s) : part.length ≤ s.length := by
  have hpush : ∀ (l : Lexeme) (parts : List (List Lexeme)) (n : Nat),
      (∀ q ∈ parts, q.length ≤ n) → ∀ q ∈ pushPart l parts, q.length ≤ n + 1 := by
    intro l parts n hparts q hq
    cases parts with
    | nil => simp only [pushPart, List.mem_singleton] at hq; subst hq; simp
    | cons first others =>
      rcases List.mem_cons.mp hq with rfl | hq
      · have := hparts first List.mem_cons_self
        simp only [List.length_cons]; omega
      · have := hparts q (List.mem_cons_of_mem _ hq); omega
  induction s generalizing depth part with
  | nil => simp only [splitCommas, List.mem_singleton] at h; subst h; simp
  | cons l rest ih =>
    unfold splitCommas at h
    split at h
    · rcases List.mem_cons.mp h with rfl | h
      · simp
      · have := ih h
        simp only [List.length_cons]; omega
    · exact hpush l _ _ (fun q hq => ih hq) _ h
    · exact hpush l _ _ (fun q hq => ih hq) _ h
    · exact hpush l _ _ (fun q hq => ih hq) _ h

theorem length_lt_of_splitAtClosing? {depth : Nat} {s inner after : List Lexeme}
    (h : splitAtClosing? depth s = some (inner, after)) : inner.length < s.length := by
  have hpush : ∀ (l : Lexeme) (o : Option (List Lexeme × List Lexeme)) (n : Nat),
      (∀ i a, o = some (i, a) → i.length < n) →
      ∀ i a, o.map (Scan.push l) = some (i, a) → i.length < n + 1 := by
    intro l o n ho i a heq
    obtain ⟨⟨j, b⟩, hj, hp⟩ := Option.map_eq_some_iff.mp heq
    have := ho j b hj
    simp only [Scan.push, Prod.mk.injEq] at hp
    obtain ⟨rfl, -⟩ := hp
    simp only [List.length_cons]; omega
  induction s generalizing depth inner after with
  | nil => simp [splitAtClosing?] at h
  | cons l rest ih =>
    unfold splitAtClosing? at h
    split at h
    · simp only [Option.some.injEq, Prod.mk.injEq] at h
      obtain ⟨rfl, -⟩ := h
      simp
    · exact hpush l _ _ (fun _ _ hq => ih hq) _ _ h
    · exact hpush l _ _ (fun _ _ hq => ih hq) _ _ h
    · exact hpush l _ _ (fun _ _ hq => ih hq) _ _ h

/-- The lexemes between the parentheses that come next, if nothing but newlines follows them. -/
def argumentList? (s : List Lexeme) : Option (List Lexeme) :=
  match Scan.skipNewlines s with
  | l :: rest =>
    if l.kind = .openParen then
      (splitAtClosing? 0 rest).bind fun p =>
        if p.2.all (·.kind = .newline) then some p.1 else none
    else none
  | [] => none

/-- The target, the method and the argument lexemes of an invocation. -/
def invocation? (s : List Lexeme) : Option (Option Token × Token × List Lexeme) :=
  match Scan.skipNewlines s with
  | [] => none
  | first :: rest =>
    if first.kind ≠ .name then none
    else match Scan.skipNewlines rest with
      | [] => none
      | second :: behind =>
        if second.kind = .dot then
          match Scan.skipNewlines behind with
          | [] => none
          | third :: last =>
            if third.kind ≠ .name then none
            else (argumentList? last).map fun inner => (some first.token, third.token, inner)
        else (argumentList? (second :: behind)).map fun inner => (none, first.token, inner)

theorem length_skipNewlines_le (s : List Lexeme) :
    (Scan.skipNewlines s).length ≤ s.length := (List.dropWhile_sublist _).length_le

theorem length_lt_of_argumentList? {s inner : List Lexeme} (h : argumentList? s = some inner) :
    inner.length < s.length := by
  have hle := length_skipNewlines_le s
  unfold argumentList? at h
  split at h
  · next l rest heq =>
    rw [heq, List.length_cons] at hle
    split at h
    · obtain ⟨⟨i, a⟩, hi, hp⟩ := Option.bind_eq_some_iff.mp h
      have hlt := length_lt_of_splitAtClosing? hi
      split at hp
      · simp only [Option.some.injEq] at hp; subst hp; exact Nat.lt_of_lt_of_le hlt (by omega)
      · simp at hp
    · simp at h
  · simp at h

theorem length_lt_of_invocation? {s inner : List Lexeme} {target : Option Token} {method : Token}
    (h : invocation? s = some (target, method, inner)) : inner.length < s.length := by
  have hle := length_skipNewlines_le s
  unfold invocation? at h
  split at h
  · simp at h
  · next first rest heq =>
    rw [heq, List.length_cons] at hle
    have hrest := length_skipNewlines_le rest
    split at h
    · simp at h
    · split at h
      · simp at h
      · next second behind heq2 =>
        rw [heq2, List.length_cons] at hrest
        have hbehind := length_skipNewlines_le behind
        split at h
        · split at h
          · simp at h
          · next third last heq3 =>
            rw [heq3, List.length_cons] at hbehind
            split at h
            · simp at h
            · obtain ⟨i, hi, hp⟩ := Option.map_eq_some_iff.mp h
              have hlt := length_lt_of_argumentList? hi
              simp only [Prod.mk.injEq] at hp
              obtain ⟨-, -, rfl⟩ := hp
              omega
        · obtain ⟨i, hi, hp⟩ := Option.map_eq_some_iff.mp h
          have hlt := length_lt_of_argumentList? hi
          simp only [Prod.mk.injEq] at hp
          obtain ⟨-, -, rfl⟩ := hp
          simp only [List.length_cons] at hlt
          omega

/-- The lexeme is an expression of its own. -/
def isAtom (l : Lexeme) : Bool := l.kind = .name || l.kind = .number || l.kind = .quoted

/-- The expression that some lexemes stand for; newlines alone are none. -/
def ofLexemes? (s : List Lexeme) : Option Syntax.Expression :=
  match s.filter (·.kind ≠ .newline) with
  | [] => none
  | significant =>
    match significant.length, significant.head? with
    | 1, some l =>
      some (if isAtom l then .atom l.token else .raw (Scan.tokenOf .nowhere s []))
    | _, _ =>
      match _found : invocation? s with
      | some (target, method, inner) =>
        some (.invocation target (some method)
          ((splitCommas 0 inner).attach.filterMap fun part => ofLexemes? part.1))
      | none => some (.raw (Scan.tokenOf .nowhere s []))
termination_by s.length
decreasing_by
  have hpart := length_le_of_mem_splitCommas part.2
  have hinner := length_lt_of_invocation? _found
  omega

end Expression

end SequenceDiagram
