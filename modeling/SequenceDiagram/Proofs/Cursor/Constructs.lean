import SequenceDiagram.Proofs.Cursor.Brackets
import SequenceDiagram.Proofs.Cursor.Expression

namespace SequenceDiagram

open Syntax

/-!
# Constructs on the tape

The readers of constructs with a cursor, without those that start with a name. Each has the name of
the reader of lists that it follows.

* `Cursor.condition` and `Cursor.arguments` read from the range between two parentheses when the
  cursor has moved over it.
* `Cursor.elseBranches`, `Cursor.catchBranches` and `Cursor.referenceNames` are loops that slip if
  they go on for too long. They do not: every turn takes at least one lexeme.
* A reader of what stands in braces has fewer lexemes before it than the reader that calls it, so
  what the former does is only assumed for fewer lexemes.
-/

namespace Cursor

/-! ### Parts of constructs -/

/-- Reads a condition in parentheses. -/
def condition : Cursor (Option Condition) := do
  if ← isKind 0 .openParen then
    let range ← balanced
    let text ← look (·.tokenOf range.1 range.2)
    let expression ← look (·.expressionIn? range)
    return some ⟨text, expression⟩
  else return none

/-- Reads arguments in parentheses. -/
def arguments : Cursor (Option Arguments) := do
  if ← isKind 0 .openParen then
    let range ← balanced
    let expressions ← look fun t => t.expressions t.expressionIn? range
    let token ← look (·.tokenOf range.1 range.2)
    return some ⟨expressions, token.text, token.span⟩
  else return none

/-- Reads the variable, and its type if there is one, that takes the result of what follows. -/
def assignment : Cursor (Option Assignment) := do
  if ← isKind 0 .name <&&> isKind 1 .name <&&> isKind 2 .assign <&&>
      (do return !(← isWord 0 "new")) then
    let type ← name
    let assignee ← name
    bumps 1
    return some ⟨assignee, type⟩
  else if ← isKind 0 .name <&&> isKind 1 .assign then
    let assignee ← name
    bumps 1
    return some ⟨assignee, none⟩
  else return none

/-- Reads a colon and the rest of the line. -/
def content : Cursor (Option Token) := do
  if ← eats .colon then restOfLine false else return none

/-! ### Constructs without inner blocks -/

/-- Reads `return` and the rest of the statement. -/
def ret : Cursor Construct := spanned do
  bumps 1
  let expression ← restOfLine true
  return fun span => .ret ⟨expression, none, span⟩

/-- Reads a message behind `@return`. -/
def annotatedReturn : Cursor Construct := spanned do
  bumps 2
  let message ← spanned do
    let sender ← name
    let _ ← eat .arrow
    let receiver ← name
    let content ← content
    return fun span => (⟨sender, receiver, content, span⟩ : AsyncMessage)
  return fun span => .ret ⟨none, some message, span⟩

/-- Reads a divider: the note goes up to the closing `==` or the end of the line. -/
def divider : Cursor Construct := spanned do
  bumps 1
  let inner ← here
  skipWhile fun kind => kind ≠ .doubleEqual && kind ≠ .newline
  let note ← tokenUnlessEmpty inner
  let _ ← eat .doubleEqual
  return fun span => .divider ⟨note, span⟩

/-- Reads the names in a reference up to its closing parenthesis or up to a brace, in less than
    `fuel` turns. -/
def referenceNames : (fuel : Nat) → Cursor (List Token)
  | 0 => slip .endless
  | fuel + 1 => do
    match ← kind? 0 with
    | none => return []
    | some .closeParen =>
      bumps 1
      return []
    | some .openBrace => return []
    | some .closeBrace => return []
    | some .name =>
      let name ← name
      return name.toList ++ (← referenceNames fuel)
    | some .quoted =>
      let name ← name
      return name.toList ++ (← referenceNames fuel)
    | _ =>
      bumps 1
      referenceNames fuel

/-- Reads `ref(` and its names. -/
def reference : Cursor Construct := spanned do
  bumps 2
  let names ← referenceNames ((← remaining) + 1)
  return fun span => .reference ⟨names, span⟩

/-! ### Constructs with inner blocks -/

section Blocks

variable (body : Cursor (List Statement))

/-- Reads statements in braces, if an opening brace comes next. -/
def block : Cursor Block := spanned do
  if ← eats .openBrace then
    let statements ← body
    let _ ← eat .closeBrace
    return fun span => .present statements span
  else return fun _ => .missing

/-- Reads a guard and a block. -/
def branch (role : BranchRole) : Cursor Branch := do
  let guard ← condition
  let inner ← block body
  return .mk role guard inner

/-- Reads a block that makes a branch only if it is there. -/
def unguardedBranch (role : BranchRole) : Cursor (List Branch) := do
  let inner ← block body
  return if inner.isPresent then [.mk role none inner] else []

/-- Reads `else if` branches and a last `else`, in less than `fuel` turns. -/
def elseBranches : (fuel : Nat) → Cursor (List Branch)
  | 0 => slip .endless
  | fuel + 1 => do
    if ← continuesWith "else" then
      bumps 1
      if ← isWord 0 "if" then
        bumps 1
        let first ← branch body .furtherCondition
        let others ← elseBranches fuel
        return first :: others
      else unguardedBranch body .otherwise
    else return []

/-- Reads `catch` branches, in less than `fuel` turns. -/
def catchBranches : (fuel : Nat) → Cursor (List Branch)
  | 0 => slip .endless
  | fuel + 1 => do
    if ← continuesWith "catch" then
      bumps 1
      let first ← branch body .handler
      let others ← catchBranches fuel
      return first :: others
    else return []

/-- Reads a last `finally` branch. -/
def finallyBranch : Cursor (List Branch) := do
  if ← continuesWith "finally" then
    bumps 1
    unguardedBranch body .cleanup
  else return []

/-- Reads `if` and its branches. -/
def alternative : Cursor Construct := spanned do
  bumps 1
  let first ← branch body .condition
  let others ← elseBranches body ((← remaining) + 1)
  return fun span => .block .alternative (first :: others) span

/-- Reads `try` and its branches. -/
def tryCatch : Cursor Construct := spanned do
  bumps 1
  let attempt ← block body
  let handlers ← catchBranches body ((← remaining) + 1)
  let cleanup ← finallyBranch body
  return fun span => .block .tryCatch (.mk .attempt none attempt :: (handlers ++ cleanup)) span

/-- Reads a keyword, a guard and a block. -/
def guarded (kind : BlockKind) : Cursor Construct := spanned do
  bumps 1
  let only ← branch body .body
  return fun span => .block kind [only] span

/-- Reads a keyword and a block. -/
def unguarded (kind : BlockKind) : Cursor Construct := spanned do
  bumps 1
  let inner ← block body
  return fun span => .block kind [.mk .body none inner] span

end Blocks

/-! ### The readers of lists do the same -/

section Plain

variable {source : String} {bound : Nat} (s : List Lexeme)

theorem follows_condition :
    Follows source bound condition s (Statements.condition (stopOf source) s) := by
  unfold Statements.condition
  refine .cond (follows_startsWith s .openParen) (fun _ _ => .of_suffix fun hs _ => ?_)
    fun _ _ => .pure none
  have htail := (List.tail_suffix s).trans hs
  have happend := Scan.balanced_append 0 s.tail
  have hrange := IsRange.of_append happend htail
  refine (follows_balanced s).bind fun _ => ?_
  refine (follows_look _ fun _ => tokenOf_tape happend htail).bind fun _ => ?_
  exact (follows_look _ fun _ => expressionIn?_tape hrange).bind fun _ => .pure _

theorem follows_arguments :
    Follows source bound arguments s (Statements.arguments (stopOf source) s) := by
  unfold Statements.arguments
  refine .cond (follows_startsWith s .openParen) (fun _ _ => .of_suffix fun hs _ => ?_)
    fun _ _ => .pure none
  have htail := (List.tail_suffix s).trans hs
  have happend := Scan.balanced_append 0 s.tail
  have hexpressions := expressions_tape (IsRange.of_append happend htail)
    fun _ _ _ hpart => expressionIn?_tape hpart
  refine (follows_balanced s).bind fun _ => ?_
  refine (follows_look _ fun _ => hexpressions).bind fun _ => ?_
  exact (follows_look _ fun _ => tokenOf_tape happend htail).bind fun _ => .pure _

theorem follows_assignment : Follows source bound assignment s (Statements.assignment s) := by
  have hnew : Follows source bound (do return !(← isWord 0 "new")) s
      (!Scan.startsWithWord "new" s, s) := (follows_startsWithWord s "new").bind fun _ => .pure _
  unfold Statements.assignment
  rw [Bool.and_assoc, Bool.and_assoc]
  refine .cond ((follows_startsWith s .name).and ((follows_isKind_one s .name).and
    ((follows_isKind s 2 .assign).and hnew))) (fun htyped _ => ?_) fun _ _ =>
      .cond ((follows_startsWith s .name).and (follows_isKind_one s .assign)) (fun huntyped _ => ?_)
        fun _ _ => .pure none
  · rw [Bool.and_eq_true, Bool.and_eq_true] at htyped
    refine (follows_name_of_startsWith s htyped.1).bind fun _ => ?_
    refine (follows_name_of_startsWith _ htyped.2.1).bind fun _ => ?_
    rw [← List.drop_tail, ← List.drop_tail, List.drop_one]
    exact (follows_bumps_one _).bind fun _ => .pure _
  · rw [Bool.and_eq_true] at huntyped
    refine (follows_name_of_startsWith s huntyped.1).bind fun _ => ?_
    rw [← List.drop_tail, List.drop_one]
    exact (follows_bumps_one _).bind fun _ => .pure _

theorem follows_content :
    Follows source bound content s (Statements.content (stopOf source) s) := by
  unfold Statements.content
  refine .cond (follows_eats s .colon) (fun hcolon _ => ?_) fun hcolon _ => ?_
  · rw [Scan.skip, if_pos hcolon]
    exact follows_restOfLine false s.tail
  · rw [Scan.skip, if_neg hcolon]
    exact .pure none

theorem follows_ret : Follows source bound ret s (Statements.ret (stopOf source) s) := by
  unfold Statements.ret
  refine follows_spanned s (r := (fun span => Construct.ret ⟨_, none, span⟩, _)) ?_
  exact (follows_bumps_one s).bind fun _ => (follows_restOfLine true _).bind fun _ => .pure _

theorem follows_annotatedReturn :
    Follows source bound annotatedReturn s (Statements.annotatedReturn (stopOf source) s) := by
  unfold Statements.annotatedReturn
  refine follows_spanned s (r := (fun span => Construct.ret ⟨none, some _, span⟩, _)) ?_
  refine (follows_bumps s 2).bind fun _ => Follows.bind (follows_spanned (s.drop 2)
    (r := (fun span => (⟨_, _, _, span⟩ : AsyncMessage), _)) ?_) fun _ => .pure _
  refine (follows_name _).bind fun _ => (follows_eat _ .arrow).bind fun _ => ?_
  exact (follows_name _).bind fun _ => (follows_content _).bind fun _ => .pure _

theorem follows_divider :
    Follows source bound divider s (Statements.divider (stopOf source) s) := by
  unfold Statements.divider
  refine follows_spanned s (r := (fun span => Construct.divider ⟨_, span⟩, _)) ?_
  refine .of_suffix fun hs _ => (follows_bumps_one s).bind fun _ => ?_
  refine (follows_here _).bind fun _ => (follows_skipWhile _ _).bind fun _ => ?_
  refine (follows_tokenUnlessEmpty _ List.takeWhile_append_dropWhile
    ((List.tail_suffix s).trans hs)).bind fun _ => ?_
  exact (follows_eat _ .doubleEqual).bind fun _ => .pure _

theorem follows_referenceNames {fuel : Nat} (hfuel : s.length < fuel) :
    Follows source bound (referenceNames fuel) s (Statements.referenceNames s) := by
  induction fuel generalizing s with
  | zero => exact absurd hfuel (Nat.not_lt_zero _)
  | succ fuel ih =>
    refine (follows_kind? s 0).bind fun _ => ?_
    cases s with
    | nil => exact .pure []
    | cons l rest =>
      have hothers := ih rest (Nat.lt_of_succ_lt_succ hfuel)
      have hname : l.isNaming = true → Follows source bound (do
            let name ← name
            return name.toList ++ (← referenceNames fuel)) (l :: rest)
          (l.token :: (Statements.referenceNames rest).1, (Statements.referenceNames rest).2) := by
        intro hnaming
        have hread : Follows source bound name (l :: rest) (Scan.name (l :: rest)) := follows_name _
        rw [Scan.name, if_pos hnaming] at hread
        exact hread.bind fun _ => hothers.bind fun _ => .pure _
      have hnext : Scan.kind? ((l :: rest).drop 0) = some l.kind := rfl
      unfold Statements.referenceNames
      rw [hnext]
      dsimp only
      cases hkind : l.kind with
      | closeParen => exact (follows_bumps_one (l :: rest)).bind fun _ => .pure []
      | openBrace => exact .pure []
      | closeBrace => exact .pure []
      | name =>
        have hnaming : l.isNaming = true := by simp [Lexeme.isNaming, hkind]
        dsimp only
        rw [if_pos hnaming]
        exact hname hnaming
      | quoted =>
        have hnaming : l.isNaming = true := by simp [Lexeme.isNaming, hkind]
        dsimp only
        rw [if_pos hnaming]
        exact hname hnaming
      | _ =>
        have hnaming : ¬l.isNaming = true := by simp [Lexeme.isNaming, hkind]
        dsimp only
        rw [if_neg hnaming]
        exact (follows_bumps_one (l :: rest)).bind fun _ => hothers

theorem follows_reference :
    Follows source bound reference s (Statements.reference (stopOf source) s) := by
  unfold Statements.reference
  refine follows_spanned s (r := (fun span => Construct.reference ⟨_, span⟩, _)) ?_
  refine (follows_bumps s 2).bind fun _ => (follows_remaining _).bind fun _ => ?_
  exact (follows_referenceNames _ (Nat.lt_succ_self _)).bind fun _ => .pure _

end Plain

/-! ### Readers of blocks -/

section Inner

variable {source : String} {n : Nat} {body : Cursor (List Statement)}
  {inner : List Lexeme → List Statement × List Lexeme}
  (hbody : ∀ s, Follows source n body s (inner s)) (hinner : ∀ s, (inner s).2 <:+ s)

section

include hbody

theorem follows_block (s : List Lexeme) :
    Follows source (n + 1) (block body) s (Statements.block (stopOf source) inner s) := by
  unfold Statements.block
  by_cases hopen : Scan.startsWith .openBrace s = true
  · rw [if_pos hopen]
    refine .of_suffix fun _ hlength => ?_
    -- the opening brace is taken, so there are fewer lexemes before the reader of the body
    have hfew : s.tail.length ≤ n := by
      rw [List.length_tail]
      omega
    refine follows_spanned s (r := (fun span => Block.present _ span, _)) ?_
    refine (follows_eats s .openBrace).bind fun _ => ?_
    rw [Scan.skip, if_pos hopen]
    dsimp only
    rw [if_pos hopen]
    refine ((hbody s.tail).of_le hfew).bind fun _ => ?_
    exact (follows_eat _ .closeBrace).bind fun _ => .pure _
  · rw [if_neg hopen]
    refine follows_spanned s (r := (fun _ => Block.missing, _)) ?_
    refine (follows_eats s .openBrace).bind fun _ => ?_
    rw [Scan.skip, if_neg hopen]
    dsimp only
    rw [if_neg hopen]
    exact .pure _

theorem follows_branch (role : BranchRole) (s : List Lexeme) :
    Follows source (n + 1) (branch body role) s (Statements.branch (stopOf source) inner role s) :=
  (follows_condition s).bind fun _ => (follows_block hbody _).bind fun _ => .pure _

theorem follows_unguardedBranch (role : BranchRole) (s : List Lexeme) :
    Follows source (n + 1) (unguardedBranch body role) s
      (Statements.unguardedBranch (stopOf source) inner role s) :=
  (follows_block hbody s).bind fun _ => .pure _

theorem follows_finallyBranch (s : List Lexeme) :
    Follows source (n + 1) (finallyBranch body) s
      (Statements.finallyBranch (stopOf source) inner s) := by
  unfold Statements.finallyBranch Scan.skipToWord?
  refine (follows_continuesWith s "finally").bind fun _ => ?_
  dsimp only
  split
  · exact (follows_bumps_one _).bind fun _ => follows_unguardedBranch hbody _ _
  · exact .pure []

theorem follows_guarded (kind : BlockKind) (s : List Lexeme) :
    Follows source (n + 1) (guarded body kind) s
      (Statements.guarded (stopOf source) inner kind s) := by
  unfold Statements.guarded
  refine follows_spanned s (r := (fun span => Construct.block kind [_] span, _)) ?_
  exact (follows_bumps_one s).bind fun _ => (follows_branch hbody _ _).bind fun _ => .pure _

theorem follows_unguarded (kind : BlockKind) (s : List Lexeme) :
    Follows source (n + 1) (unguarded body kind) s
      (Statements.unguarded (stopOf source) inner kind s) := by
  unfold Statements.unguarded
  refine follows_spanned s (r := (fun span => Construct.block kind [.mk .body none _] span, _)) ?_
  exact (follows_bumps_one s).bind fun _ => (follows_block hbody _).bind fun _ => .pure _

end

/-- Every turn of a loop over branches takes the word that continues it. -/
theorem length_branch_lt (stop : Span) (role : BranchRole) {word : String} {s : List Lexeme}
    {fuel : Nat} (hinner : ∀ s, (inner s).2 <:+ s)
    (hword : Scan.startsWithWord word (Scan.skipNewlines s) = true)
    (hfuel : s.length < fuel + 1) {r : List Lexeme} (hr : r <:+ (Scan.skipNewlines s).tail) :
    (Statements.branch stop inner role r).2.length < fuel := by
  have hne : Scan.skipNewlines s ≠ [] := by
    intro hnil
    rw [hnil] at hword
    cases hword
  have hpos := List.length_pos_iff.mpr hne
  have hskip := Expression.length_skipNewlines_le s
  have hbranch := ((reads_branch stop hinner role r).suffix.trans hr).length_le
  rw [List.length_tail] at hbranch
  omega

include hbody hinner

theorem follows_elseBranches {fuel : Nat} {s : List Lexeme} (hfuel : s.length < fuel) :
    Follows source (n + 1) (elseBranches body fuel) s
      (Statements.elseBranches (stopOf source) inner fuel s) := by
  induction fuel generalizing s with
  | zero => exact absurd hfuel (Nat.not_lt_zero _)
  | succ fuel ih =>
    unfold Statements.elseBranches Scan.skipToWord?
    refine (follows_continuesWith s "else").bind fun _ => ?_
    dsimp only
    split
    · next helse =>
      refine (follows_bumps_one _).bind fun _ => ?_
      refine .cond (follows_startsWithWord _ "if") (fun _ _ => ?_) fun _ _ =>
        follows_unguardedBranch hbody _ _
      have hshort := length_branch_lt (stopOf source) .furtherCondition hinner helse hfuel
        (List.tail_suffix _)
      refine (follows_bumps_one _).bind fun _ => ?_
      exact (follows_branch hbody _ _).bind fun _ => (ih hshort).bind fun _ => .pure _
    · exact .pure []

theorem follows_catchBranches {fuel : Nat} {s : List Lexeme} (hfuel : s.length < fuel) :
    Follows source (n + 1) (catchBranches body fuel) s
      (Statements.catchBranches (stopOf source) inner fuel s) := by
  induction fuel generalizing s with
  | zero => exact absurd hfuel (Nat.not_lt_zero _)
  | succ fuel ih =>
    unfold Statements.catchBranches Scan.skipToWord?
    refine (follows_continuesWith s "catch").bind fun _ => ?_
    dsimp only
    split
    · next hcatch =>
      have hshort := length_branch_lt (stopOf source) .handler hinner hcatch hfuel
        (List.suffix_refl _)
      refine (follows_bumps_one _).bind fun _ => ?_
      exact (follows_branch hbody _ _).bind fun _ => (ih hshort).bind fun _ => .pure _
    · exact .pure []

theorem follows_alternative (s : List Lexeme) :
    Follows source (n + 1) (alternative body) s
      (Statements.alternative (stopOf source) inner s) := by
  unfold Statements.alternative
  refine follows_spanned s (r := (fun span => Construct.block .alternative (_ :: _) span, _)) ?_
  refine (follows_bumps_one s).bind fun _ => (follows_branch hbody _ _).bind fun _ => ?_
  refine (follows_remaining _).bind fun _ => ?_
  exact (follows_elseBranches hbody hinner (Nat.lt_succ_self _)).bind fun _ => .pure _

theorem follows_tryCatch (s : List Lexeme) :
    Follows source (n + 1) (tryCatch body) s (Statements.tryCatch (stopOf source) inner s) := by
  unfold Statements.tryCatch
  refine follows_spanned s
    (r := (fun span => Construct.block .tryCatch (.mk .attempt none _ :: (_ ++ _)) span, _)) ?_
  refine (follows_bumps_one s).bind fun _ => (follows_block hbody _).bind fun _ => ?_
  refine (follows_remaining _).bind fun _ => ?_
  refine (follows_catchBranches hbody hinner (Nat.lt_succ_self _)).bind fun _ => ?_
  exact (follows_finallyBranch hbody _).bind fun _ => .pure _

end Inner

end Cursor

end SequenceDiagram
