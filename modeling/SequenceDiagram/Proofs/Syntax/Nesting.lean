import SequenceDiagram.Proofs.Document.Fragments
import SequenceDiagram.Proofs.Syntax.Rest
import SequenceDiagram.Syntax.Program

namespace SequenceDiagram

open Syntax

/-!
# How deep a source can nest

* `Statement.blocks` are the blocks directly inside a statement. `InBraces.statement`: what holds of
  everything that is read in braces holds of them.
* `height_ofLexemes`: the bound of the reader bounds how many nodes stand inside each other.
* `heightOf_interpret_le` and `nestingLevels_le`: so neither the nodes of a document nor its
  fragments are nested more often than the source has bytes.
-/

/-! ### Blocks -/

/-- The block of a branch. -/
def Syntax.Branch.block : Branch → Block
  | .mk _ _ body => body

/-- The blocks directly inside a construct. -/
def Syntax.Construct.blocks : Construct → List Block
  | .call _ body => [body]
  | .asyncMessage _ => []
  | .creation _ body => [body]
  | .ret _ => []
  | .divider _ => []
  | .reference _ => []
  | .block _ bs _ => bs.map (·.block)

/-- The blocks directly inside a statement. -/
def Syntax.Statement.blocks : Statement → List Block
  | .unrecognized _ _ => []
  | .recognized construct _ _ => construct.blocks

/-! ### What is read in braces -/

/-- A property of statements holds of all that is read in braces, and of nothing. -/
structure InBraces (p : List Statement → Prop)
    (body : List Lexeme → List Statement × List Lexeme) : Prop where
  nothing : p []
  body : ∀ s, p (body s).1

namespace InBraces

variable {p : List Statement → Prop} {body : List Lexeme → List Statement × List Lexeme}

theorem block (h : InBraces p body) (stop : Span) (s : List Lexeme) :
    p (Statements.block stop body s).1.statements := by
  unfold Statements.block
  split
  · exact h.body s.tail
  · exact h.nothing

theorem branch (h : InBraces p body) (stop : Span) (role : BranchRole) (s : List Lexeme) :
    p (Statements.branch stop body role s).1.block.statements := h.block stop _

theorem unguardedBranch (h : InBraces p body) (stop : Span) (role : BranchRole)
    (s : List Lexeme) :
    ∀ b ∈ (Statements.unguardedBranch stop body role s).1, p b.block.statements := by
  have hblock := h.block stop s
  unfold Statements.unguardedBranch
  dsimp only
  split
  · intro b hb
    rw [List.mem_singleton] at hb
    subst hb
    exact hblock
  · intro b hb
    cases hb

theorem elseBranches (h : InBraces p body) (stop : Span) (fuel : Nat) (s : List Lexeme) :
    ∀ b ∈ (Statements.elseBranches stop body fuel s).1, p b.block.statements := by
  induction fuel generalizing s with
  | zero => exact fun b hb => nomatch hb
  | succ fuel ih =>
    unfold Statements.elseBranches
    split
    · exact fun b hb => nomatch hb
    · split
      · intro b hb
        rcases List.mem_cons.mp hb with rfl | hb
        · exact h.branch stop _ _
        · exact ih _ b hb
      · exact h.unguardedBranch stop _ _

theorem catchBranches (h : InBraces p body) (stop : Span) (fuel : Nat) (s : List Lexeme) :
    ∀ b ∈ (Statements.catchBranches stop body fuel s).1, p b.block.statements := by
  induction fuel generalizing s with
  | zero => exact fun b hb => nomatch hb
  | succ fuel ih =>
    unfold Statements.catchBranches
    split
    · exact fun b hb => nomatch hb
    · intro b hb
      rcases List.mem_cons.mp hb with rfl | hb
      · exact h.branch stop _ _
      · exact ih _ b hb

theorem finallyBranch (h : InBraces p body) (stop : Span) (s : List Lexeme) :
    ∀ b ∈ (Statements.finallyBranch stop body s).1, p b.block.statements := by
  unfold Statements.finallyBranch
  split
  · exact fun b hb => nomatch hb
  · exact h.unguardedBranch stop _ _

/-- A block holds the statements of its branches. -/
theorem ofBranches {kind : BlockKind} {bs : List Branch} {span : Span}
    (h : ∀ b ∈ bs, p b.block.statements) :
    ∀ b ∈ (Construct.block kind bs span).blocks, p b.statements := by
  intro b hb
  obtain ⟨c, hc, rfl⟩ := List.mem_map.mp hb
  exact h c hc

/-- A call or a creation holds the statements of its body. -/
theorem single {b : Block} (h : p b.statements) : ∀ c ∈ [b], p c.statements := by
  intro c hc
  rw [List.mem_singleton] at hc
  subst hc
  exact h

theorem alternative (h : InBraces p body) (stop : Span) (s : List Lexeme) :
    ∀ b ∈ (Statements.alternative stop body s).1.blocks, p b.statements := by
  unfold Statements.alternative
  -- the first branch, and then the others in what it leaves
  have hfirst := h.branch stop .condition s.tail
  generalize Statements.branch stop body .condition s.tail = branch at *
  obtain ⟨first, rest⟩ := branch
  have hothers := h.elseBranches stop (rest.length + 1) rest
  refine ofBranches fun b hb => ?_
  rcases List.mem_cons.mp hb with rfl | hb
  · exact hfirst
  · exact hothers b hb

theorem tryCatch (h : InBraces p body) (stop : Span) (s : List Lexeme) :
    ∀ b ∈ (Statements.tryCatch stop body s).1.blocks, p b.statements := by
  unfold Statements.tryCatch
  -- the attempt, then the handlers in what it leaves, then the cleanup in what they leave
  have hattempt := h.block stop s.tail
  generalize Statements.block stop body s.tail = block at *
  obtain ⟨attempt, rest⟩ := block
  have hhandlers := h.catchBranches stop (rest.length + 1) rest
  generalize hcatch : Statements.catchBranches stop body (rest.length + 1) rest = handlers at *
  obtain ⟨handlers, rest'⟩ := handlers
  have hcleanup := h.finallyBranch stop rest'
  refine ofBranches fun b hb => ?_
  rw [hcatch] at hb
  rcases List.mem_cons.mp hb with rfl | hb
  · exact hattempt
  · rcases List.mem_append.mp hb with hb | hb
    · exact hhandlers b hb
    · exact hcleanup b hb

theorem guarded (h : InBraces p body) (stop : Span) (kind : BlockKind) (s : List Lexeme) :
    ∀ b ∈ (Statements.guarded stop body kind s).1.blocks, p b.statements :=
  single (h.branch stop _ _)

theorem unguarded (h : InBraces p body) (stop : Span) (kind : BlockKind) (s : List Lexeme) :
    ∀ b ∈ (Statements.unguarded stop body kind s).1.blocks, p b.statements :=
  single (h.block stop _)

theorem creation (h : InBraces p body) (stop : Span) (s : List Lexeme)
    (assignment : Option Assignment) (rest : List Lexeme) :
    ∀ b ∈ (Statements.creation stop body s assignment rest).1.blocks, p b.statements :=
  single (h.block stop _)

theorem call (h : InBraces p body) (stop : Span) (s : List Lexeme)
    (assignment : Option Assignment) (sender receiver method : Option Token)
    (rest : List Lexeme) :
    ∀ b ∈ (Statements.call stop body s assignment sender receiver method rest).1.blocks,
      p b.statements :=
  single (h.block stop _)

theorem message (h : InBraces p body) (stop : Span) (s : List Lexeme)
    (assignment : Option Assignment) (first : Token) (rest : List Lexeme) :
    ∀ b ∈ (Statements.message stop body s assignment first rest).1.blocks, p b.statements := by
  unfold Statements.message
  split
  · -- behind an arrow: a call, or an asynchronous message, which has no body
    dsimp only
    split
    · exact h.call stop _ _ _ _ _ _
    · exact fun b hb => nomatch hb
  · split
    · exact h.call stop _ _ _ _ _ _
    · exact h.call stop _ _ _ _ _ _

theorem interaction (h : InBraces p body) (stop : Span) (s : List Lexeme) :
    ∀ c ∈ (Statements.interaction stop body s).1, ∀ b ∈ c.blocks, p b.statements := by
  unfold Statements.interaction
  dsimp only
  split
  · intro c hc
    cases hc
    exact h.creation stop _ _ _
  · split
    · intro c hc
      cases hc
      exact h.message stop _ _ _ _
    · intro c hc
      obtain ⟨a, _, rfl⟩ := Option.map_eq_some_iff.mp hc
      exact single h.nothing

theorem keywordConstruct? (h : InBraces p body) (stop : Span) (s : List Lexeme) (word : String) :
    ∀ r ∈ Statements.keywordConstruct? stop body s word, ∀ b ∈ r.1.blocks, p b.statements := by
  unfold Statements.keywordConstruct?
  intro r hr
  -- one case for each keyword
  repeat' split at hr
  all_goals cases hr
  · exact h.alternative stop s
  · exact h.guarded stop _ s
  · exact h.unguarded stop _ s
  · exact h.unguarded stop _ s
  · exact h.guarded stop _ s
  · exact h.guarded stop _ s
  · exact h.tryCatch stop s
  · exact fun b hb => nomatch hb
  · exact fun b hb => nomatch hb

theorem construct? (h : InBraces p body) (stop : Span) (s : List Lexeme) :
    ∀ c ∈ (Statements.construct? stop body s).1, ∀ b ∈ c.blocks, p b.statements := by
  unfold Statements.construct?
  split
  · intro c hc
    cases hc
    exact fun b hb => nomatch hb
  · split
    · intro c hc
      cases hc
      exact fun b hb => nomatch hb
    · exact fun c hc => nomatch hc
  · split
    · next construct rest hkeyword =>
      intro c hc
      cases hc
      obtain ⟨word, _, hword⟩ := Option.bind_eq_some_iff.mp hkeyword
      exact h.keywordConstruct? stop s word _ hword
    · exact h.interaction stop s
  · exact h.interaction stop s
  · exact fun c hc => nomatch hc

/-- **What holds of everything that is read in braces holds of the blocks in a statement.** -/
theorem statement (h : InBraces p body) (stop : Span) (s : List Lexeme) :
    ∀ b ∈ (Statements.statement stop body s).1.blocks, p b.statements := by
  have hconstruct := h.construct? stop s
  unfold Statements.statement
  split
  · next construct rest hread =>
    rw [hread] at hconstruct
    exact hconstruct construct rfl
  · exact fun b hb => nomatch hb

end InBraces

/-! ### Heights -/

mutual

/-- How many nodes stand inside each other at most, at and below a node. -/
def Node.height : Node → Nat
  | .message _ body => heightOf body + 1
  | .fragment _ sections => heightIn sections + 1
  | .divider _ _ _ => 1
  | .rejected _ => 1

/-- How many nodes stand inside each other at most, at and below some nodes. -/
def heightOf : List Node → Nat
  | [] => 0
  | n :: rest => max n.height (heightOf rest)

/-- How many nodes stand inside each other at most in some sections. -/
def heightIn : List Section → Nat
  | [] => 0
  | .mk _ _ body :: rest => max (heightOf body) (heightIn rest)

end

/-- A node always counts for the height, but only a fragment is a level. -/
theorem levels_le_height : Node.Steps (fun n => n.levels ≤ n.height)
    (fun ns => levelsOf ns ≤ heightOf ns) (fun ss => nestingLevels ss ≤ heightIn ss) where
  message m body hbody := Nat.le_succ_of_le hbody
  fragment f sections hsections := Nat.succ_le_succ hsections
  divider id note source := Nat.zero_le _
  rejected x := Nat.zero_le _
  nil := Nat.le_refl 0
  cons n rest hn hrest := by
    simp only [levelsOf, heightOf]
    omega
  noSection := Nat.le_refl 0
  inSection label condition body rest hbody hrest := by
    simp only [nestingLevels, heightIn]
    omega

/-- The height of what is read in any frame is at most `n`. -/
def HeightAtMost (n : Nat) (ss : List Statement) : Prop :=
  ∀ (frame : Frame) next, heightOf (frame.statements next ss).value ≤ n

/-- The sections of a block are as high as the highest of its branches. -/
theorem heightIn_branches {n : Nat} {bs : List Branch}
    (h : ∀ b ∈ bs, HeightAtMost n b.block.statements) (frame : Frame) (next : NodeId)
    (kind : BlockKind) : heightIn (frame.branches next kind bs).value ≤ n := by
  induction bs generalizing next with
  | nil => exact Nat.zero_le n
  | cons b rest ih =>
    -- the height of the sections is a maximum over the branches
    obtain ⟨role, guard, body⟩ := b
    have hfirst := h _ List.mem_cons_self frame next
    rw [← Frame.block_eq] at hfirst
    exact Nat.max_le.mpr ⟨hfirst, ih (fun b hb => h b (List.mem_cons_of_mem _ hb)) _⟩

/-- A statement is at most one higher than the highest block inside it. -/
theorem height_statement {n : Nat} {s : Statement}
    (h : ∀ b ∈ s.blocks, HeightAtMost n b.statements) (frame : Frame) (id : NodeId) :
    (frame.statement id s).value.height ≤ n + 1 := by
  have hleaf : 1 ≤ n + 1 := Nat.succ_le_succ (Nat.zero_le n)
  cases s with
  | unrecognized span text => exact hleaf
  | recognized construct span text =>
    rw [Frame.statement]
    -- a message is as high as its body, a block as its branches, and everything else is one node
    cases construct with
    | call c body =>
      rw [Frame.construct]
      cases frame.call id c with
      | error reason => exact hleaf
      | ok m =>
        simp only [Frame.block_eq]
        exact Nat.succ_le_succ (h body (List.mem_singleton_self body) _ _)
    | creation c body =>
      rw [Frame.construct]
      cases frame.creation id c with
      | error reason => exact hleaf
      | ok m =>
        simp only [Frame.block_eq]
        exact Nat.succ_le_succ (h body (List.mem_singleton_self body) _ _)
    | asyncMessage m =>
      rw [Frame.construct]
      cases frame.asyncMessage id m with
      | error reason => exact hleaf
      | ok m => exact hleaf
    | ret r => exact hleaf
    | divider d => exact hleaf
    | reference r => exact hleaf
    | block kind bs inner =>
      refine Nat.succ_le_succ (heightIn_branches (fun b hb => ?_) _ _ _)
      exact h b.block (List.mem_map_of_mem hb)

/-- **Nesting is bounded.** Each node around another one takes one from the bound of the reader. -/
theorem height_ofLexemes (stop : Span) (nested : Bool) (fuel : Nat) (s : List Lexeme) :
    HeightAtMost fuel (Statements.ofLexemes stop nested fuel s).1 := by
  induction fuel generalizing nested s with
  | zero => exact fun frame next => Nat.le_refl 0
  | succ fuel ih =>
    have hinner : InBraces (HeightAtMost fuel) (Statements.ofLexemes stop true fuel) :=
      ⟨fun frame next => Nat.zero_le fuel, ih true⟩
    unfold Statements.ofLexemes
    dsimp only
    split
    · exact fun frame next => Nat.zero_le _
    · split
      · exact fun frame next => Nat.zero_le _
      · -- what is inside the first statement and the other statements have a lower bound
        intro frame next
        refine Nat.max_le.mpr ⟨?_, Nat.le_succ_of_le (ih nested _ frame _)⟩
        split
        · exact Nat.succ_le_succ (Nat.zero_le _)
        · exact height_statement (hinner.statement stop _) frame next

/-- The nodes of a document do not stand inside each other more often than its source has bytes, and
    once more. -/
theorem heightOf_interpret_le (source : String) (starter : Option String) :
    heightOf (interpret (parse source) starter).document.nodes ≤ source.utf8ByteSize + 1 := by
  have hhead : (Head.ofLexemes (endOfInput source (lex source))
      (Scan.skipSeparators (lex source))).2.length ≤ (lex source).length :=
    ((Head.ofLexemes_suffix _ _).trans (Scan.skipSeparators_suffix _)).length_le
  -- the bound of the reader is one more than the lexemes behind the head
  have hheight := height_ofLexemes (endOfInput source (lex source)) false
    ((Head.ofLexemes (endOfInput source (lex source))
      (Scan.skipSeparators (lex source))).2.length + 1)
    (Head.ofLexemes (endOfInput source (lex source)) (Scan.skipSeparators (lex source))).2
    ⟨none, topOrigin (parse source) starter, none, none⟩ 0
  exact Nat.le_trans hheight (Nat.succ_le_succ (Nat.le_trans hhead (length_lex_le source)))

/-! ### Levels of fragments -/

/-- A fragment has no more levels inside it than its source has bytes. -/
theorem nestingLevels_le {source : String} {starter : Option String} {f : FragmentTree}
    (h : f ∈ (interpret (parse source) starter).document.fragments) :
    nestingLevels f.sections ≤ source.utf8ByteSize := by
  have hlevels := levelSteps.nodes _ f h
  have hheight := levels_le_height.nodes (interpret (parse source) starter).document.nodes
  have hbytes := heightOf_interpret_le source starter
  omega

end SequenceDiagram
