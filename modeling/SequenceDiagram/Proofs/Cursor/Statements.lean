import SequenceDiagram.Proofs.Cursor.Constructs

namespace SequenceDiagram

open Syntax

/-!
# Statements on the tape

The readers of statements with a cursor. Each has the name of the reader of lists that it follows.

* `Cursor.construct?` reads what a statement holds. What was not understood is passed over by
  `Cursor.recover`.
* `Cursor.leave` makes sure that a statement takes a lexeme. It never has to: one was taken before.
* `Cursor.statements` is a loop that slips if it goes on for too long, and so do the loops of the
  blocks inside. They do not: `Cursor.follows_statements`.
-/

namespace Cursor

/-! ### Interactions -/

section Interactions

variable (body : Cursor (List Statement)) (start : Nat) (assignment : Option Assignment)

/-- Reads `new`, which comes next; the statement started at the number `start`. -/
def creation : Cursor Construct := do
  bumps 1
  let constructor ← name
  let arguments ← arguments
  let inner ← block body
  let span ← spanSince start
  return .creation ⟨assignment, constructor, arguments, span⟩ inner

/-- Reads the arguments and the body of a call. -/
def call (sender receiver method : Option Token) : Cursor Construct := do
  let arguments ← arguments
  let inner ← block body
  let span ← spanSince start
  return .call ⟨sender, receiver, method, arguments, assignment, span⟩ inner

/-- Reads what follows the first name of a message: an arrow, a dot, or neither. -/
def message (first : Token) : Cursor Construct := do
  if ← eats .arrow then
    let receiver ← name
    if ← eats .dot then
      let method ← name
      call body start assignment (some first) receiver method
    else
      let content ← content
      let span ← spanSince start
      return .asyncMessage ⟨some first, receiver, content, span⟩
  else if ← eats .dot then
    let method ← name
    call body start assignment none (some first) method
  else call body start assignment none none (some first)

end Interactions

variable (body : Cursor (List Statement))

/-- Reads a call, an asynchronous message or a creation. -/
def interaction : Cursor (Option Construct) := do
  let start ← here
  let assignment ← assignment
  if ← isWord 0 "new" then some <$> creation body start assignment
  else
    match ← name with
    | some first => some <$> message body start assignment first
    | none =>
      let span ← spanSince start
      return assignment.map fun a => .call ⟨none, none, none, none, some a, span⟩ .missing

/-! ### Constructs -/

/-- Reads the construct of a statement that starts with a word. -/
def keywordConstruct (word : String) : Cursor (Option Construct) :=
  if word = "if" then some <$> alternative body
  else if word ∈ ["while", "for", "forEach", "foreach", "loop"] then some <$> guarded body .loop
  else if word = "par" then some <$> unguarded body .parallel
  else if word = "opt" then some <$> unguarded body .optional
  else if word = "critical" then some <$> guarded body .critical
  else if word = "section" then some <$> guarded body .sectionBlock
  else if word = "try" then some <$> tryCatch body
  else do
    if ← pure (decide (word = "ref")) <&&> isKind 1 .openParen then some <$> reference
    else if word = "return" then some <$> ret
    else interaction body

/-- Reads the construct of a statement, if there is one. -/
def construct? : Cursor (Option Construct) := do
  match ← kind? 0 with
  | some .doubleEqual => some <$> divider
  | some .atSign => if ← isWord 1 "return" then some <$> annotatedReturn else return none
  | some .name =>
    match ← word? 0 with
    | some word => keywordConstruct body word
    | none => interaction body
  | some .quoted => interaction body
  | _ => return none

/-! ### Statements -/

/-- Moves over the rest of a statement, unless it was understood. -/
def recoverUnless (understood : Bool) : Cursor Unit := if understood then return () else recover

/-- Moves over the next lexeme, if nothing was taken since a number. -/
def leave (start : Nat) : Cursor Unit := do
  if (← here) = start then bumps 1 else return ()

/-- A statement that started at a number and ends here, with its place and its text. -/
def finish (start : Nat) (f : Span → String → Statement) : Cursor Statement := do
  let span ← spanSince start
  let text ← look (·.text span)
  return f span text

/-- Reads a statement. -/
def statement : Cursor Statement := do
  let start ← here
  let construct ← construct? body
  recoverUnless construct.isSome
  leave start
  finish start (construct.elim .unrecognized .recognized)

/-- Reads a run of closing braces. -/
def strayBraces : Cursor Statement := do
  let start ← here
  skipWhile (· = .closeBrace)
  finish start .unrecognized

/-- Reads statements up to the end, or up to a closing brace if `nested`, in less than `fuel`
    turns. -/
def statements (nested : Bool) : (fuel : Nat) → Cursor (List Statement)
  | 0 => slip .endless
  | fuel + 1 => do
    skipSeparators
    if ← atEnd then return []
    else if ← isKind 0 .closeBrace <&&> pure nested then return []
    else if ← isKind 0 .closeBrace then
      let first ← strayBraces
      let others ← statements nested fuel
      return first :: others
    else
      let first ← statement (statements true fuel)
      let others ← statements nested fuel
      return first :: others

/-! ### The readers of lists do the same -/

/-- A construct that was read, or else what another reader gives. -/
def orElse (read : Option (Construct × List Lexeme)) (other : Option Construct × List Lexeme) :
    Option Construct × List Lexeme :=
  match read with
  | some (construct, rest) => (some construct, rest)
  | none => other

/-- One of the words that start a construct. -/
theorem follows_keyword {source : String} {bound : Nat} {c : Prop} [Decidable c]
    {m : Cursor Construct} {m' : Cursor (Option Construct)} {s : List Lexeme}
    {r : Construct × List Lexeme} {next : Option (Construct × List Lexeme)}
    {other : Option Construct × List Lexeme} (h : Follows source bound m s r)
    (h' : Follows source bound m' s (orElse next other)) :
    Follows source bound (if c then some <$> m else m') s
      (orElse (if c then some r else next) other) := by
  split
  · exact h.map some
  · exact h'

/-- Nothing is moved over where lexemes were taken. -/
theorem follows_leave {source : String} {bound : Nat} {taken rest s : List Lexeme}
    (hs : s <:+ lex source) (happend : taken ++ rest = s) (hne : taken ≠ []) :
    Follows source bound (leave (place source s)) rest ((), rest) := by
  have hplace := place_append happend hs
  have hpos := List.length_pos_iff.mpr hne
  refine (follows_here rest).bind fun _ => ?_
  dsimp only
  rw [if_neg (by omega)]
  exact .pure ()

theorem follows_finish {source : String} {bound : Nat} {rest s : List Lexeme}
    (hs : s <:+ lex source) (hrest : rest <:+ s) (f : Span → String → Statement) :
    Follows source bound (finish (place source s) f) rest
      (f (Scan.spanUpTo (stopOf source) s rest)
        (String.ofList (Lexeme.textOf (Scan.upTo s rest))), rest) := by
  have happend := Scan.upTo_append_of_suffix hrest
  refine (follows_spanSince s hs hrest).bind fun _ => ?_
  exact (follows_look rest fun _ => text_taken happend hs).bind fun _ => .pure _

theorem follows_strayBraces {source : String} {bound : Nat} (s : List Lexeme) :
    Follows source bound strayBraces s (Statements.strayBraces (stopOf source) s) := by
  have htaken := Scan.upTo_append (s.takeWhile (·.kind = .closeBrace))
    (s.dropWhile (·.kind = .closeBrace))
  rw [List.takeWhile_append_dropWhile] at htaken
  unfold Statements.strayBraces
  rw [← htaken]
  refine .of_suffix fun hs _ => (follows_here s).bind fun _ => ?_
  exact (follows_skipWhile s _).bind fun hrest => follows_finish hs hrest .unrecognized

section Inner

variable {source : String} {n : Nat} {body : Cursor (List Statement)}
  {inner : List Lexeme → List Statement × List Lexeme}
  (hbody : ∀ s, Follows source n body s (inner s)) (hinner : ∀ s, (inner s).2 <:+ s)

section

include hbody

theorem follows_creation {s r : List Lexeme} (hs : s <:+ lex source) (hr : r <:+ s)
    (assignment : Option Assignment) :
    Follows source (n + 1) (creation body (place source s) assignment) r
      (Statements.creation (stopOf source) inner s assignment r) := by
  refine (follows_bumps_one r).bind fun hnew => (follows_name _).bind fun hname => ?_
  refine (follows_arguments _).bind fun harguments => (follows_block hbody _).bind fun hblock => ?_
  have hrest := hblock.trans (harguments.trans (hname.trans (hnew.trans hr)))
  exact (follows_spanSince s hs hrest).bind fun _ => .pure _

theorem follows_call {s r : List Lexeme} (hs : s <:+ lex source) (hr : r <:+ s)
    (assignment : Option Assignment) (sender receiver method : Option Token) :
    Follows source (n + 1) (call body (place source s) assignment sender receiver method) r
      (Statements.call (stopOf source) inner s assignment sender receiver method r) := by
  refine (follows_arguments r).bind fun harguments => (follows_block hbody _).bind fun hblock => ?_
  have hrest := hblock.trans (harguments.trans hr)
  exact (follows_spanSince s hs hrest).bind fun _ => .pure _

theorem follows_message {s r : List Lexeme} (hs : s <:+ lex source) (hr : r <:+ s)
    (assignment : Option Assignment) (first : Token) :
    Follows source (n + 1) (message body (place source s) assignment first) r
      (Statements.message (stopOf source) inner s assignment first r) := by
  have hname := (Scan.name_suffix r.tail).trans (List.tail_suffix r)
  have hmethod := (Scan.name_suffix _).trans (List.tail_suffix (Scan.name r.tail).2)
  unfold Statements.message
  dsimp only
  refine .cond (follows_eats r .arrow) (fun harrow _ => ?_) fun harrow _ => ?_
  · rw [Scan.skip, if_pos harrow]
    refine (follows_name _).bind fun _ => ?_
    refine .cond (follows_eats _ .dot) (fun hdot _ => ?_) fun hdot _ => ?_
    · rw [Scan.skip, if_pos hdot]
      refine (follows_name _).bind fun _ => ?_
      exact follows_call hbody hs ((hmethod.trans hname).trans hr) _ _ _ _
    · rw [Scan.skip, if_neg hdot]
      refine (follows_content _).bind fun hcontent => ?_
      exact (follows_spanSince s hs (hcontent.trans (hname.trans hr))).bind fun _ => .pure _
  · rw [Scan.skip, if_neg harrow]
    refine .cond (follows_eats r .dot) (fun hdot _ => ?_) fun hdot _ => ?_
    · rw [Scan.skip, if_pos hdot]
      refine (follows_name _).bind fun _ => ?_
      exact follows_call hbody hs (hname.trans hr) _ _ _ _
    · rw [Scan.skip, if_neg hdot]
      exact follows_call hbody hs hr _ _ _ _

theorem follows_interaction (s : List Lexeme) :
    Follows source (n + 1) (interaction body) s
      (Statements.interaction (stopOf source) inner s) := by
  unfold Statements.interaction
  dsimp only
  refine .of_suffix fun hs _ => (follows_here s).bind fun _ => ?_
  refine (follows_assignment s).bind fun hassignment => ?_
  refine .cond (follows_startsWithWord _ "new") (fun _ _ => ?_) fun _ _ => ?_
  · exact (follows_creation hbody hs hassignment _).map some
  · refine (follows_name _).bind fun hname => ?_
    have hrest := hname.trans hassignment
    rcases hread : Scan.name (Statements.assignment s).2 with ⟨first | first, rest⟩
    · rw [hread] at hrest
      exact (follows_spanSince s hs hrest).bind fun _ => .pure _
    · rw [hread] at hrest
      exact (follows_message hbody hs hrest _ first).map some

end

include hbody hinner

theorem follows_keywordConstruct (s : List Lexeme) (word : String) :
    Follows source (n + 1) (keywordConstruct body word) s
      (orElse (Statements.keywordConstruct? (stopOf source) inner s word)
        (Statements.interaction (stopOf source) inner s)) := by
  have hreference : Follows source (n + 1) (do
      if ← pure (decide (word = "ref")) <&&> isKind 1 .openParen then some <$> reference
      else if word = "return" then some <$> ret
      else interaction body) s
      (orElse (if word = "ref" ∧ Scan.startsWith .openParen s.tail then
          some (Statements.reference (stopOf source) s)
        else if word = "return" then some (Statements.ret (stopOf source) s)
        else none) (Statements.interaction (stopOf source) inner s)) := by
    refine ((Follows.pure _).and (follows_isKind_one s .openParen)).bind fun _ => ?_
    dsimp only
    by_cases href : word = "ref" ∧ Scan.startsWith .openParen s.tail = true
    · rw [if_pos href, if_pos (by simp [href.1, href.2])]
      exact (follows_reference s).map some
    · rw [if_neg href, if_neg (by simpa using href)]
      exact follows_keyword (follows_ret s) (follows_interaction hbody s)
  exact follows_keyword (follows_alternative hbody hinner s)
    (follows_keyword (follows_guarded hbody .loop s)
    (follows_keyword (follows_unguarded hbody .parallel s)
    (follows_keyword (follows_unguarded hbody .optional s)
    (follows_keyword (follows_guarded hbody .critical s)
    (follows_keyword (follows_guarded hbody .sectionBlock s)
    (follows_keyword (follows_tryCatch hbody hinner s) hreference))))))

theorem follows_construct? (s : List Lexeme) :
    Follows source (n + 1) (construct? body) s
      (Statements.construct? (stopOf source) inner s) := by
  have hinteraction := follows_interaction hbody s
  have hword : Follows source (n + 1) (do
      match ← word? 0 with
      | some word => keywordConstruct body word
      | none => interaction body) s
      (orElse ((Scan.word? s).bind (Statements.keywordConstruct? (stopOf source) inner s))
        (Statements.interaction (stopOf source) inner s)) := by
    refine (follows_word? s 0).bind fun _ => ?_
    rw [List.drop_zero]
    cases Scan.word? s with
    | none => exact hinteraction
    | some word => exact follows_keywordConstruct hbody hinner s word
  unfold Statements.construct?
  refine (follows_kind? s 0).bind fun _ => ?_
  rw [List.drop_zero]
  cases Scan.kind? s with
  | none => exact .pure none
  | some kind =>
    cases kind with
    | doubleEqual => exact (follows_divider s).map some
    | atSign =>
      refine .cond (follows_isWord_one s "return") (fun _ _ => ?_) fun _ _ => .pure none
      exact (follows_annotatedReturn s).map some
    | name => exact hword
    | quoted => exact hinteraction
    | _ => exact .pure none

theorem follows_statement {l : Lexeme} {ls : List Lexeme} (hseparator : l.isSeparator = false)
    (hbrace : l.kind ≠ .closeBrace) :
    Follows source (n + 1) (statement body) (l :: ls)
      (Statements.statement (stopOf source) inner (l :: ls)) := by
  obtain ⟨taken, happend, htakes⟩ := takes_statement (stopOf source) hinner l ls hseparator hbrace
  refine .of_suffix fun hs _ => (follows_here _).bind fun _ => ?_
  refine (follows_construct? hbody hinner _).bind fun hrest => ?_
  unfold Statements.statement at happend ⊢
  rcases hread : Statements.construct? (stopOf source) inner (l :: ls) with ⟨_ | construct, rest⟩
  · rw [hread] at happend hrest
    refine (follows_recover rest).bind fun hbehind => ?_
    refine (follows_leave hs happend htakes.ne_nil).bind fun _ => ?_
    exact follows_finish hs (hbehind.trans hrest) .unrecognized
  · rw [hread] at happend hrest
    refine (Follows.pure ()).bind fun _ => ?_
    refine (follows_leave hs happend htakes.ne_nil).bind fun _ => ?_
    exact follows_finish hs hrest (.recognized construct)

end Inner

theorem follows_statements {source : String} (n : Nat) (nested : Bool) (s : List Lexeme) :
    Follows source n (statements nested (n + 1)) s
      (Statements.ofLexemes (stopOf source) nested (n + 1) s) := by
  -- the bound counts the lexemes, and every statement takes one
  induction n generalizing nested s with
  | zero =>
    refine .of_suffix fun _ hlength => ?_
    obtain rfl := List.length_eq_zero_iff.mp (Nat.le_zero.mp hlength)
    exact (follows_skipSeparators []).bind fun _ => (follows_atEnd []).bind fun _ => .pure []
  | succ n ih =>
    have hinner := Statements.ofLexemes_suffix (stopOf source) true (n + 1)
    refine .of_suffix fun _ hlength => (follows_skipSeparators s).bind fun hskip => ?_
    have hle := hskip.length_le.trans hlength
    unfold Statements.ofLexemes
    dsimp only at hle ⊢
    cases hnext : Scan.skipSeparators s with
    | nil => exact (follows_atEnd []).bind fun _ => .pure []
    | cons l ls =>
      rw [hnext, List.length_cons] at hle
      have hbrace : Follows source (n + 1) (isKind 0 .closeBrace) (l :: ls)
          (decide (l.kind = .closeBrace), l :: ls) := by
        rw [← startsWith_cons]
        exact follows_startsWith _ .closeBrace
      have hothers : ∀ {taken rest}, taken ++ rest = l :: ls → taken ≠ [] →
          Follows source (n + 1) (statements nested (n + 1)) rest
            (Statements.ofLexemes (stopOf source) nested (n + 1) rest) := by
        intro taken rest happend hne
        have hlength := congrArg List.length happend
        have hpos := List.length_pos_iff.mpr hne
        rw [List.length_append, List.length_cons] at hlength
        exact (ih nested rest).of_le (by omega)
      refine (follows_atEnd (l :: ls)).bind fun _ => ?_
      refine .cond (hbrace.and (.pure nested)) (fun _ _ => .pure []) fun _ _ => ?_
      refine hbrace.bind fun _ => ?_
      dsimp only
      by_cases hclose : l.kind = .closeBrace
      · have hstray : ∃ taken,
            taken ++ (Statements.strayBraces (stopOf source) (l :: ls)).2 = l :: ls ∧
            Takes (stopOf source) (Statements.ofLexemes (stopOf source) true (n + 1)) taken _ _ :=
          takes_strayBraces (stopOf source) l ls hclose
        obtain ⟨taken, happend, htakes⟩ := hstray
        rw [if_pos (decide_eq_true hclose), if_pos hclose]
        refine (follows_strayBraces (l :: ls)).bind fun _ => ?_
        exact (hothers happend htakes.ne_nil).bind fun _ => .pure _
      · have hseparator := Scan.isSeparator_head hnext
        obtain ⟨taken, happend, htakes⟩ :=
          takes_statement (stopOf source) hinner l ls hseparator hclose
        rw [if_neg (by simpa using hclose), if_neg hclose]
        refine (follows_statement (ih true) hinner hseparator hclose).bind fun _ => ?_
        exact (hothers happend htakes.ne_nil).bind fun _ => .pure _

end Cursor

end SequenceDiagram
