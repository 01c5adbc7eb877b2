import SequenceDiagram.Proofs.Cursor.Moves
import SequenceDiagram.Proofs.Syntax.Groups

namespace SequenceDiagram

open Syntax

/-!
# The head on the tape

The readers of the head with a cursor. Each has the name of the reader of lists that it follows.

* `Cursor.members` and `Cursor.entries` are loops that slip if they go on for too long. They do not:
  every turn takes at least one lexeme.
* `Cursor.follows_head`: the head is read without a slip.
-/

namespace Cursor

/-! ### What comes next -/

/-- A starter comes next. -/
def atStarter : Cursor Bool :=
  isKind 0 .atSign <&&> (do return (← word? 1).any Head.isStarterWord) <&&> isKind 2 .openParen

/-- A group comes next. -/
def atGroup : Cursor Bool :=
  isWord 0 "group" <&&> (isKind 1 .openBrace <||> (isKind 1 .name <&&> isKind 2 .openBrace))

/-- A name followed by this can be a declaration, whatever comes then. -/
def canFollow (kind : LexemeKind) : Bool :=
  kind ∈ [.newline, .semicolon, .color, .number, .quoted, .atSign, .closeBrace, .openStereotype]

/-- What follows the next name can follow that of a declaration. -/
def canFollowName : Cursor Bool := do
  let kind ← kind? 1
  if kind = some .name then isWord 1 "as" <||> (do return !(← isKind 2 .assign))
  else return kind.all canFollow

/-- A declaration comes next. -/
def atDeclaration : Cursor Bool := do
  match ← kind? 0 with
  | some .atSign => return (← word? 1).any fun w => w ≠ "return" && !Head.isStarterWord w
  | some .openStereotype => return true
  | some .name =>
    if (← word? 0).any (Head.keywords.contains ·) then return false else canFollowName
  | some .quoted => canFollowName
  | _ => return false

/-! ### Starters, declarations and groups -/

/-- Reads a starter. -/
def starter : Cursor Starter := spanned do
  bumps 3
  let name ← name
  let _ ← eat .closeParen
  return fun span => ⟨name, span⟩

/-- Reads `@` and the type of a participant. -/
def participantType : Cursor (Option Token) := do
  if ← isKind 0 .atSign <&&> isKind 1 .name then
    bumps 1
    name
  else return none

/-- Reads a stereotype up to its end or the end of the line. -/
def stereotype : Cursor (Option Token) := do
  if ← eats .openStereotype then
    let inner ← here
    skipWhile fun kind => kind ≠ .closeStereotype && kind ≠ .newline
    let token ← tokenSince inner
    let _ ← eat .closeStereotype
    return some token
  else return none

/-- Reads `as` and a label. -/
def label : Cursor (Option Token) := do
  if ← isWord 0 "as" then
    bumps 1
    name
  else return none

/-- Reads a declaration. -/
def declaration : Cursor Declaration := spanned do
  let type ← participantType
  let stereotype ← stereotype
  let name ← name
  let label ← label
  let color ← tokenOfKind .color
  let width ← tokenOfKind .number
  return fun span => ⟨name, type, stereotype, label, color, width, span⟩

/-- Reads the declarations of a group up to its closing brace, in less than `fuel` turns. -/
def members : (fuel : Nat) → Cursor (List Declaration)
  | 0 => slip .endless
  | fuel + 1 => do
    skipSeparators
    if ← atEnd <||> isKind 0 .closeBrace then return []
    else if ← atDeclaration then
      let first ← declaration
      let others ← members fuel
      return first :: others
    else
      bumps 1
      members fuel

/-- Reads a group. -/
def group : Cursor Group := spanned do
  bumps 1
  let name ← tokenOfKind .name
  let _ ← eat .openBrace
  let members ← members ((← remaining) + 1)
  let _ ← eat .closeBrace
  return fun span => ⟨name, members, span⟩

/-- Reads the entries of the head, in less than `fuel` turns. -/
def entries : (fuel : Nat) → Syntax.Head → Cursor Syntax.Head
  | 0, _ => slip .endless
  | fuel + 1, head => do
    skipSeparators
    if ← atStarter then
      let starter ← starter
      entries fuel { head with starter := some starter }
    else if ← atGroup then
      let group ← group
      entries fuel { head with items := head.items ++ [.group group] }
    else if ← atDeclaration then
      let declaration ← declaration
      entries fuel { head with items := head.items ++ [.participant declaration] }
    else return head

/-- Reads the head; a head without entries is none. -/
def head : Cursor (Option Syntax.Head) := do
  let head ← entries ((← remaining) + 1) ⟨[], none⟩
  return if head.items.isEmpty && head.starter.isNone then none else some head

/-! ### The readers of lists do the same -/

variable {source : String} {bound : Nat} (s : List Lexeme)

theorem follows_atStarter : Follows source bound atStarter s (Head.atStarter s, s) := by
  have hword : Follows source bound (do return (← word? 1).any Head.isStarterWord) s
      ((Scan.word? s.tail).any Head.isStarterWord, s) := by
    rw [← List.drop_one]
    exact (follows_word? s 1).bind fun _ => .pure _
  unfold Head.atStarter
  rw [Bool.and_assoc]
  exact (follows_isKind s 0 .atSign).and (hword.and (follows_isKind s 2 .openParen))

theorem follows_atGroup : Follows source bound atGroup s (Head.atGroup s, s) := by
  unfold Head.atGroup
  exact (follows_startsWithWord s "group").and ((follows_isKind_one s .openBrace).or
    ((follows_isKind_one s .name).and (follows_isKind s 2 .openBrace)))

theorem canFollowName_eq : Head.canFollowName s =
    if Scan.kind? s = some .name then
      Scan.startsWithWord "as" s || !Scan.startsWith .assign s.tail
    else (Scan.kind? s).all canFollow := by
  unfold Head.canFollowName
  cases Scan.kind? s with
  | none => rfl
  | some kind => cases kind <;> rfl

theorem follows_canFollowName :
    Follows source bound canFollowName s (Head.canFollowName s.tail, s) := by
  have hassign : Follows source bound (do return !(← isKind 2 .assign)) s
      (!Scan.startsWith .assign (s.drop 2), s) := (follows_isKind s 2 .assign).bind fun _ => .pure _
  rw [canFollowName_eq, ← List.drop_one, ← List.drop_one, List.drop_drop]
  refine (follows_kind? s 1).bind fun _ => ?_
  dsimp only
  split
  · exact (follows_isWord s 1 "as").or hassign
  · exact .pure _

theorem follows_atDeclaration : Follows source bound atDeclaration s (Head.atDeclaration s, s) := by
  have hkeyword : Follows source bound (do
      if (← word? 0).any (Head.keywords.contains ·) then return false else canFollowName) s
      (!(Scan.word? s).any (Head.keywords.contains ·) && Head.canFollowName s.tail, s) := by
    refine (follows_word? s 0).bind fun _ => ?_
    rw [List.drop_zero]
    cases (Scan.word? s).any (Head.keywords.contains ·) with
    | true => exact .pure false
    | false => exact follows_canFollowName s
  have htype : Follows source bound
      (do return (← word? 1).any fun w => w ≠ "return" && !Head.isStarterWord w) s
      ((Scan.word? s.tail).any fun w => w ≠ "return" && !Head.isStarterWord w, s) := by
    rw [← List.drop_one]
    exact (follows_word? s 1).bind fun _ => .pure _
  unfold Head.atDeclaration
  refine (follows_kind? s 0).bind fun _ => ?_
  rw [List.drop_zero]
  cases Scan.kind? s with
  | none => exact .pure false
  | some kind =>
    cases kind with
    | atSign => exact htype
    | name => exact hkeyword
    | quoted => exact follows_canFollowName s
    | _ => exact .pure _

theorem follows_starter : Follows source bound starter s (Head.starter (stopOf source) s) := by
  refine follows_spanned s (r := (fun span => (⟨_, span⟩ : Starter), _)) ?_
  refine (follows_bumps s 3).bind fun _ => (follows_name _).bind fun _ => ?_
  exact (follows_eat _ .closeParen).bind fun _ => .pure _

theorem follows_participantType :
    Follows source bound participantType s (Head.participantType s) := by
  unfold Head.participantType
  refine .cond ((follows_startsWith s .atSign).and (follows_isKind_one s .name)) (fun _ _ => ?_)
    fun _ _ => .pure none
  exact (follows_bumps_one s).bind fun _ => follows_name _

theorem follows_label : Follows source bound label s (Head.label s) := by
  unfold Head.label
  refine .cond (follows_startsWithWord s "as") (fun _ _ => ?_) fun _ _ => .pure none
  exact (follows_bumps_one s).bind fun _ => follows_name _

theorem follows_stereotype :
    Follows source bound stereotype s (Head.stereotype (stopOf source) s) := by
  unfold Head.stereotype
  refine .cond (follows_eats s .openStereotype) (fun hopen _ => ?_) fun hopen _ => ?_
  · rw [Scan.skip, if_pos hopen]
    refine .of_suffix fun hs _ => (follows_here _).bind fun _ => ?_
    refine (follows_skipWhile _ _).bind fun _ => ?_
    refine (follows_tokenSince _ List.takeWhile_append_dropWhile hs).bind fun _ => ?_
    exact (follows_eat _ .closeStereotype).bind fun _ => .pure _
  · rw [Scan.skip, if_neg hopen]
    exact .pure none

theorem follows_declaration :
    Follows source bound declaration s (Head.declaration (stopOf source) s) := by
  unfold Head.declaration
  dsimp only
  refine follows_spanned s (r := (fun span => (⟨_, _, _, _, _, _, span⟩ : Declaration), _)) ?_
  refine (follows_participantType s).bind fun _ => (follows_stereotype _).bind fun _ => ?_
  refine (follows_name _).bind fun _ => (follows_label _).bind fun _ => ?_
  exact (follows_tokenOfKind _ .color).bind fun _ => (follows_tokenOfKind _ .number).bind fun _ =>
    .pure _

/-! ### Every turn takes a lexeme -/

theorem length_tail_lt {s : List Lexeme} (h : s ≠ []) : s.tail.length < s.length := by
  have hpos := List.length_pos_iff.mpr h
  rw [List.length_tail]
  omega

theorem length_declaration_lt {s : List Lexeme} (stop : Span) (h : Head.atDeclaration s = true) :
    (Head.declaration stop s).2.length < s.length := by
  cases s with
  | nil => cases h
  | cons l rest => exact Nat.lt_succ_of_le (Head.declaration_suffix_tail stop h).length_le

theorem length_starter_lt {s : List Lexeme} (stop : Span) (h : Head.atStarter s = true) :
    (Head.starter stop s).2.length < s.length := by
  have hne : s ≠ [] := by
    rintro rfl
    cases h
  have hrest : (Head.starter stop s).2 <:+ s.drop 3 :=
    (Scan.skip_suffix .closeParen _).trans (Scan.name_suffix _)
  rw [← List.drop_tail] at hrest
  exact Nat.lt_of_le_of_lt (hrest.trans (List.drop_suffix 2 _)).length_le (length_tail_lt hne)

theorem length_group_lt {s : List Lexeme} (stop : Span) (h : Head.atGroup s = true) :
    (Head.group stop s).2.length < s.length := by
  have hne : s ≠ [] := by
    rintro rfl
    cases h
  have hbrace : Scan.skip .openBrace (Scan.tokenOfKind .name s.tail).2 <:+ s.tail :=
    (Scan.skip_suffix .openBrace _).trans (Scan.tokenOfKind_suffix .name _)
  have hrest : (Head.group stop s).2 <:+ s.tail := by
    unfold Head.group
    exact ((Scan.skip_suffix .closeBrace _).trans (Head.members_suffix stop _ _)).trans hbrace
  exact Nat.lt_of_le_of_lt hrest.length_le (length_tail_lt hne)

/-! ### The loops of the head -/

theorem follows_members {fuel : Nat} (hfuel : s.length < fuel) :
    Follows source bound (members fuel) s (Head.members (stopOf source) fuel s) := by
  induction fuel generalizing s with
  | zero => exact absurd hfuel (Nat.not_lt_zero _)
  | succ fuel ih =>
    unfold Head.members
    dsimp only
    refine (follows_skipSeparators s).bind fun hskip => ?_
    have hle := Nat.le_trans hskip.length_le (Nat.le_of_lt_succ hfuel)
    dsimp only at hle ⊢
    refine .cond ((follows_atEnd _).or (follows_startsWith _ .closeBrace)) (fun _ _ => .pure [])
      fun hstop _ => .cond (follows_atDeclaration _) (fun hdeclaration _ => ?_) fun _ _ => ?_
    · have hshort := Nat.lt_of_lt_of_le (length_declaration_lt (stopOf source) hdeclaration) hle
      exact (follows_declaration _).bind fun _ => (ih _ hshort).bind fun _ => .pure _
    · have hne : Scan.skipSeparators s ≠ [] := by
        intro hnil
        exact hstop (by rw [decide_eq_true hnil, Bool.true_or])
      have hshort := Nat.lt_of_lt_of_le (length_tail_lt hne) hle
      exact (follows_bumps_one _).bind fun _ => ih _ hshort

theorem follows_group : Follows source bound group s (Head.group (stopOf source) s) := by
  unfold Head.group
  refine follows_spanned s (r := (fun span => (⟨_, _, span⟩ : Group), _)) ?_
  refine (follows_bumps_one s).bind fun _ => (follows_tokenOfKind _ .name).bind fun _ => ?_
  refine (follows_eat _ .openBrace).bind fun _ => (follows_remaining _).bind fun _ => ?_
  refine (follows_members _ (Nat.lt_succ_self _)).bind fun _ => ?_
  exact (follows_eat _ .closeBrace).bind fun _ => .pure _

theorem follows_entries {fuel : Nat} (hfuel : s.length < fuel) (x : Syntax.Head) :
    Follows source bound (entries fuel x) s (Head.entries (stopOf source) fuel x s) := by
  induction fuel generalizing s x with
  | zero => exact absurd hfuel (Nat.not_lt_zero _)
  | succ fuel ih =>
    unfold Head.entries
    dsimp only
    refine (follows_skipSeparators s).bind fun hskip => ?_
    have hle := Nat.le_trans hskip.length_le (Nat.le_of_lt_succ hfuel)
    dsimp only at hle ⊢
    refine .cond (follows_atStarter _) (fun hstarter _ => ?_) fun _ _ =>
      .cond (follows_atGroup _) (fun hgroup _ => ?_) fun _ _ =>
        .cond (follows_atDeclaration _) (fun hdeclaration _ => ?_) fun _ _ => .pure x
    · have hshort := Nat.lt_of_lt_of_le (length_starter_lt (stopOf source) hstarter) hle
      exact (follows_starter _).bind fun _ => ih _ hshort _
    · have hshort := Nat.lt_of_lt_of_le (length_group_lt (stopOf source) hgroup) hle
      exact (follows_group _).bind fun _ => ih _ hshort _
    · have hshort := Nat.lt_of_lt_of_le (length_declaration_lt (stopOf source) hdeclaration) hle
      exact (follows_declaration _).bind fun _ => ih _ hshort _

/-- **The head is read without a slip.** -/
theorem follows_head : Follows source bound head s (Head.ofLexemes (stopOf source) s) := by
  refine (follows_remaining s).bind fun _ => ?_
  exact (follows_entries s (Nat.lt_succ_self _) ⟨[], none⟩).bind fun _ => .pure _

end Cursor

end SequenceDiagram
