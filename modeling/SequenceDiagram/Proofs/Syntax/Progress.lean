import SequenceDiagram.Proofs.Syntax.Nesting

namespace SequenceDiagram

open Syntax

/-!
# What the readers of statements take

* `Reads stop body s rest blocks`: `rest` is an end of `s`, and every one of the blocks was read at a
  place between them. It composes (`Reads.trans`), and there is one lemma for each reader.
* `reads_construct?`: a construct takes at least the first lexeme.
* `takes_statement`: a statement takes at least one lexeme; its span and its text are those of what
  it takes.
-/

/-! ### Single lexemes -/

namespace Scan

theorem kind?_eq_none {s : List Lexeme} : kind? s = none ↔ s = [] := by
  cases s <;> simp [kind?]

theorem kind?_eq_some {s : List Lexeme} {kind : LexemeKind} :
    kind? s = some kind ↔ ∃ l ls, s = l :: ls ∧ l.kind = kind := by
  cases s <;> simp [kind?]

theorem startsWith_iff {s : List Lexeme} {kind : LexemeKind} :
    startsWith kind s = true ↔ ∃ l ls, s = l :: ls ∧ l.kind = kind := by
  rw [startsWith, decide_eq_true_iff, kind?_eq_some]

/-- What comes behind the separators is none. -/
theorem isSeparator_head {s ls : List Lexeme} {l : Lexeme} (h : skipSeparators s = l :: ls) :
    l.isSeparator = false := by
  have := List.head?_dropWhile_not Lexeme.isSeparator s
  rw [show s.dropWhile Lexeme.isSeparator = l :: ls from h] at this
  exact this

/-! ### Several lexemes -/

theorem takeNested_suffix (stops : LexemeKind → Bool → Bool) (depth : Nat) (s : List Lexeme) :
    (takeNested stops depth s).2 <:+ s := ⟨_, takeNested_append stops depth s⟩

theorem restOfLine_suffix (upToSemicolon : Bool) (s : List Lexeme) :
    (restOfLine upToSemicolon s).2 <:+ s := takeNested_suffix _ 0 s

theorem restOfStatement_suffix (s : List Lexeme) : (restOfStatement s).2 <:+ s :=
  takeNested_suffix _ 0 s

theorem balanced_suffix (depth : Nat) (s : List Lexeme) : (balanced depth s).2 <:+ s :=
  ⟨_, balanced_append depth s⟩

theorem skipToWord?_suffix {word : String} {s rest : List Lexeme}
    (h : skipToWord? word s = some rest) : rest <:+ s := by
  unfold skipToWord? at h
  split at h
  · cases h
    exact (List.tail_suffix _).trans (List.dropWhile_suffix _)
  · cases h

/-- A name is the next lexeme. -/
theorem name_eq_some {s rest : List Lexeme} {t : Token} (h : name s = (some t, rest)) :
    rest = s.tail := by
  cases s with
  | nil => cases h
  | cons l ls =>
    rw [name] at h
    split at h <;> cases h
    rfl

/-- What cannot be a name is left. -/
theorem name_eq_none {s rest : List Lexeme} (h : name s = (none, rest)) : rest = s := by
  cases s with
  | nil => cases h; rfl
  | cons l ls =>
    rw [name] at h
    split at h <;> cases h
    rfl

/-- The rest of a statement is not empty, unless the statement is at its end. -/
theorem restOfStatement_cons {l : Lexeme} {ls : List Lexeme} (hseparator : l.isSeparator = false)
    (hbrace : l.kind ≠ .closeBrace) : (restOfStatement (l :: ls)).2 <:+ ls := by
  simp only [Lexeme.isSeparator, Bool.or_eq_false_iff, decide_eq_false_iff_not] at hseparator
  unfold restOfStatement takeNested
  rw [if_neg (by simp [hseparator])]
  split
  · next hkind _ => exact absurd hkind hbrace
  · next hkind _ => exact absurd hkind hbrace
  · exact takeNested_suffix _ _ _
  · exact takeNested_suffix _ _ _

/-- The rest of a line holds no newline. -/
theorem restOfLine_line (upToSemicolon : Bool) (s : List Lexeme) :
    ∀ l ∈ (restOfLine upToSemicolon s).1, l.kind ≠ .newline := by
  unfold restOfLine
  generalize 0 = depth
  fun_induction takeNested _ depth s <;> simp_all [push]

/-- A closing parenthesis, a brace or the end comes behind what stands in parentheses. -/
theorem balanced_stops (depth : Nat) (s : List Lexeme) :
    startsWith .newline (balanced depth s).2 = false := by
  fun_induction balanced depth s <;> simp_all [push, startsWith, kind?]

/-- What stands before an end of the list. -/
theorem upTo_append_of_suffix {s rest : List Lexeme} (h : rest <:+ s) : upTo s rest ++ rest = s := by
  obtain ⟨taken, rfl⟩ := h
  rw [upTo_append]

end Scan

/-! ### Parts of statements -/

namespace Statements

variable (stop : Span)

theorem condition_suffix (s : List Lexeme) : (condition stop s).2 <:+ s := by
  unfold condition
  split
  · exact ((Scan.skip_suffix _ _).trans (Scan.balanced_suffix 0 _)).trans (List.tail_suffix s)
  · exact List.suffix_refl s

theorem arguments_suffix (s : List Lexeme) : (arguments stop s).2 <:+ s := by
  unfold arguments
  split
  · exact ((Scan.skip_suffix _ _).trans (Scan.balanced_suffix 0 _)).trans (List.tail_suffix s)
  · exact List.suffix_refl s

theorem content_suffix (s : List Lexeme) : (content stop s).2 <:+ s := by
  unfold content
  split
  · exact (Scan.restOfLine_suffix _ _).trans (List.tail_suffix s)
  · exact List.suffix_refl s

/-- An assignment takes at least its variable. -/
theorem assignment_cases (s : List Lexeme) :
    assignment s = (none, s) ∨ ∃ a n, assignment s = (some a, s.drop (n + 1)) := by
  unfold assignment
  split
  · exact .inr ⟨_, 2, rfl⟩
  · split
    · exact .inr ⟨_, 1, rfl⟩
    · exact .inl rfl

theorem referenceNames_suffix (s : List Lexeme) : (referenceNames s).2 <:+ s := by
  induction s with
  | nil => exact List.suffix_refl _
  | cons l rest ih =>
    unfold referenceNames
    split
    · exact List.suffix_cons l rest
    · exact List.suffix_refl _
    · exact List.suffix_refl _
    · exact ih.trans (List.suffix_cons l rest)

end Statements

/-! ### Where blocks are read -/

/-- The reader goes from `s` to `rest`, and reads the blocks on its way. -/
structure Reads (stop : Span) (body : List Lexeme → List Statement × List Lexeme)
    (s rest : List Lexeme) (blocks : List Block) : Prop where
  suffix : rest <:+ s
  block : ∀ b ∈ blocks, b = .missing ∨ ∃ start, start <:+ s ∧
    Scan.startsWith .openBrace start = true ∧ b = (Statements.block stop body start).1 ∧
    rest <:+ (Statements.block stop body start).2

namespace Reads

variable {stop : Span} {body : List Lexeme → List Statement × List Lexeme}
  {s r rest : List Lexeme} {bs cs : List Block}

theorem of_suffix (h : rest <:+ s) : Reads stop body s rest [] := ⟨h, fun _ hb => nomatch hb⟩

theorem refl (s : List Lexeme) : Reads stop body s s [] := of_suffix (List.suffix_refl s)

theorem trans (h : Reads stop body s r bs) (h' : Reads stop body r rest cs) :
    Reads stop body s rest (bs ++ cs) where
  suffix := h'.suffix.trans h.suffix
  block b hb := by
    rcases List.mem_append.mp hb with hb | hb
    · exact (h.block b hb).imp id fun ⟨start, hstart, hbrace, heq, hrest⟩ =>
        ⟨start, hstart, hbrace, heq, h'.suffix.trans hrest⟩
    · exact (h'.block b hb).imp id fun ⟨start, hstart, hbrace, heq, hrest⟩ =>
        ⟨start, hstart.trans h.suffix, hbrace, heq, hrest⟩

/-- Some lexemes are passed over first. -/
theorem after (h : Reads stop body r rest bs) (hr : r <:+ s) : Reads stop body s rest bs :=
  (of_suffix hr).trans h

theorem missing (h : rest <:+ s) : Reads stop body s rest [.missing] :=
  ⟨h, fun _ hb => .inl (List.mem_singleton.mp hb)⟩

end Reads

section Readers

variable {body : List Lexeme → List Statement × List Lexeme} (stop : Span)
  (hbody : ∀ s, (body s).2 <:+ s)

include hbody

theorem block_suffix (s : List Lexeme) : (Statements.block stop body s).2 <:+ s := by
  unfold Statements.block
  split
  · exact ((Scan.skip_suffix _ _).trans (hbody _)).trans (List.tail_suffix s)
  · exact List.suffix_refl s

theorem reads_block (s : List Lexeme) : Reads stop body s (Statements.block stop body s).2
    [(Statements.block stop body s).1] where
  suffix := block_suffix stop hbody s
  block b hb := by
    rw [List.mem_singleton] at hb
    subst hb
    by_cases hbrace : Scan.startsWith .openBrace s = true
    · exact .inr ⟨s, List.suffix_refl s, hbrace, rfl, List.suffix_refl _⟩
    · left
      unfold Statements.block
      rw [if_neg hbrace]

theorem reads_branch (role : BranchRole) (s : List Lexeme) :
    Reads stop body s (Statements.branch stop body role s).2
      [(Statements.branch stop body role s).1.block] :=
  (reads_block stop hbody _).after (Statements.condition_suffix stop s)

theorem reads_unguardedBranch (role : BranchRole) (s : List Lexeme) :
    Reads stop body s (Statements.unguardedBranch stop body role s).2
      ((Statements.unguardedBranch stop body role s).1.map (·.block)) := by
  have hblock := reads_block stop hbody s
  unfold Statements.unguardedBranch
  dsimp only
  split
  · exact hblock
  · exact .of_suffix hblock.suffix

theorem reads_elseBranches (fuel : Nat) (s : List Lexeme) :
    Reads stop body s (Statements.elseBranches stop body fuel s).2
      ((Statements.elseBranches stop body fuel s).1.map (·.block)) := by
  induction fuel generalizing s with
  | zero => exact .refl s
  | succ fuel ih =>
    unfold Statements.elseBranches
    split
    · exact .refl s
    · next rest hword =>
      have hrest := Scan.skipToWord?_suffix hword
      split
      · exact ((reads_branch stop hbody _ _).trans (ih _)).after ((List.tail_suffix _).trans hrest)
      · exact (reads_unguardedBranch stop hbody _ _).after hrest

theorem reads_catchBranches (fuel : Nat) (s : List Lexeme) :
    Reads stop body s (Statements.catchBranches stop body fuel s).2
      ((Statements.catchBranches stop body fuel s).1.map (·.block)) := by
  induction fuel generalizing s with
  | zero => exact .refl s
  | succ fuel ih =>
    unfold Statements.catchBranches
    split
    · exact .refl s
    · next rest hword =>
      exact ((reads_branch stop hbody _ _).trans (ih _)).after (Scan.skipToWord?_suffix hword)

theorem reads_finallyBranch (s : List Lexeme) :
    Reads stop body s (Statements.finallyBranch stop body s).2
      ((Statements.finallyBranch stop body s).1.map (·.block)) := by
  unfold Statements.finallyBranch
  split
  · exact .refl s
  · next rest hword => exact (reads_unguardedBranch stop hbody _ _).after (Scan.skipToWord?_suffix hword)

/-! ### Constructs -/

theorem reads_alternative (s : List Lexeme) :
    Reads stop body s.tail (Statements.alternative stop body s).2
      (Statements.alternative stop body s).1.blocks :=
  (reads_branch stop hbody .condition s.tail).trans (reads_elseBranches stop hbody
    ((Statements.branch stop body .condition s.tail).2.length + 1) _)

theorem reads_tryCatch (s : List Lexeme) :
    Reads stop body s.tail (Statements.tryCatch stop body s).2
      (Statements.tryCatch stop body s).1.blocks := by
  have hattempt := reads_block stop hbody s.tail
  have hhandlers := reads_catchBranches stop hbody
    ((Statements.block stop body s.tail).2.length + 1) (Statements.block stop body s.tail).2
  have hall := hattempt.trans (hhandlers.trans (reads_finallyBranch stop hbody _))
  rw [← List.map_append] at hall
  exact hall

theorem reads_guarded (kind : BlockKind) (s : List Lexeme) :
    Reads stop body s.tail (Statements.guarded stop body kind s).2
      (Statements.guarded stop body kind s).1.blocks := reads_branch stop hbody _ _

theorem reads_unguarded (kind : BlockKind) (s : List Lexeme) :
    Reads stop body s.tail (Statements.unguarded stop body kind s).2
      (Statements.unguarded stop body kind s).1.blocks := reads_block stop hbody _

theorem reads_creation (s : List Lexeme) (assignment : Option Assignment) (r : List Lexeme) :
    Reads stop body r.tail (Statements.creation stop body s assignment r).2
      (Statements.creation stop body s assignment r).1.blocks :=
  (reads_block stop hbody _).after ((Statements.arguments_suffix stop _).trans (Scan.name_suffix _))

theorem reads_call (s : List Lexeme) (assignment : Option Assignment)
    (sender receiver method : Option Token) (r : List Lexeme) :
    Reads stop body r (Statements.call stop body s assignment sender receiver method r).2
      (Statements.call stop body s assignment sender receiver method r).1.blocks :=
  (reads_block stop hbody _).after (Statements.arguments_suffix stop r)

theorem reads_message (s : List Lexeme) (assignment : Option Assignment) (first : Token)
    (r : List Lexeme) :
    Reads stop body r (Statements.message stop body s assignment first r).2
      (Statements.message stop body s assignment first r).1.blocks := by
  have hname := (Scan.name_suffix r.tail).trans (List.tail_suffix r)
  unfold Statements.message
  split
  · -- behind an arrow: a call, or an asynchronous message
    have hmethod := ((Scan.name_suffix _).trans (List.tail_suffix (Scan.name r.tail).2)).trans hname
    dsimp only
    split
    · exact (reads_call stop hbody _ _ _ _ _ _).after hmethod
    · exact .of_suffix ((Statements.content_suffix stop _).trans hname)
  · split
    · exact (reads_call stop hbody _ _ _ _ _ _).after hname
    · exact reads_call stop hbody _ _ _ _ _ _

theorem reads_interaction (s : List Lexeme) :
    ∀ c ∈ (Statements.interaction stop body s).1,
      Reads stop body s.tail (Statements.interaction stop body s).2 c.blocks := by
  -- an assignment takes something, so the tail of what it leaves is an end of the tail of `s`
  have hassigned : ((Statements.assignment s).1 = none ∨ (Statements.assignment s).2 <:+ s.tail) ∧
      (Statements.assignment s).2.tail <:+ s.tail := by
    rcases Statements.assignment_cases s with h | ⟨a, n, h⟩
    · rw [h]
      exact ⟨.inl rfl, List.suffix_refl _⟩
    · rw [h, ← List.drop_tail]
      exact ⟨.inr (List.drop_suffix _ _), (List.tail_suffix _).trans (List.drop_suffix _ _)⟩
  unfold Statements.interaction
  dsimp only
  split
  · rintro c ⟨⟩
    exact (reads_creation stop hbody _ _ _).after hassigned.2
  · split
    · next first rest hname =>
      rintro c ⟨⟩
      rw [Scan.name_eq_some hname]
      exact (reads_message stop hbody _ _ _ _).after hassigned.2
    · next rest hname =>
      intro c hc
      obtain ⟨a, ha, rfl⟩ := Option.map_eq_some_iff.mp hc
      have hrest : rest <:+ (Statements.assignment s).2 := by
        have := Scan.name_suffix (Statements.assignment s).2
        rwa [hname] at this
      exact .missing (hrest.trans (hassigned.1.resolve_left (by rw [ha]; exact Option.some_ne_none a)))

theorem reads_keywordConstruct? (s : List Lexeme) (word : String) :
    ∀ r ∈ Statements.keywordConstruct? stop body s word,
      Reads stop body s.tail r.2 r.1.blocks := by
  unfold Statements.keywordConstruct?
  intro r hr
  -- one case for each keyword
  repeat' split at hr
  all_goals cases hr
  · exact reads_alternative stop hbody s
  · exact reads_guarded stop hbody _ s
  · exact reads_unguarded stop hbody _ s
  · exact reads_unguarded stop hbody _ s
  · exact reads_guarded stop hbody _ s
  · exact reads_guarded stop hbody _ s
  · exact reads_tryCatch stop hbody s
  · exact .of_suffix ((Statements.referenceNames_suffix _).trans
      (by rw [← List.drop_tail]; exact List.drop_suffix 1 _))
  · exact .of_suffix (Scan.restOfLine_suffix _ _)

/-- A construct takes at least the first lexeme. -/
theorem reads_construct? (s : List Lexeme) :
    ∀ c ∈ (Statements.construct? stop body s).1,
      Reads stop body s.tail (Statements.construct? stop body s).2 c.blocks := by
  unfold Statements.construct?
  split
  · rintro c ⟨⟩
    exact .of_suffix ((Scan.skip_suffix _ _).trans (List.dropWhile_suffix _))
  · split
    · rintro c ⟨⟩
      refine .of_suffix ?_
      exact ((Statements.content_suffix stop _).trans (Scan.name_suffix _)).trans
        ((Scan.skip_suffix _ _).trans ((Scan.name_suffix _).trans
          (by rw [← List.drop_tail]; exact List.drop_suffix 1 _)))
    · exact fun c hc => nomatch hc
  · split
    · next construct rest hkeyword =>
      rintro c ⟨⟩
      obtain ⟨word, _, hword⟩ := Option.bind_eq_some_iff.mp hkeyword
      exact reads_keywordConstruct? stop hbody s word _ hword
    · exact reads_interaction stop hbody s
  · exact reads_interaction stop hbody s
  · exact fun c hc => nomatch hc

end Readers

/-! ### Statements -/

section

variable {body : List Lexeme → List Statement × List Lexeme} (stop : Span)

theorem interaction_none (s : List Lexeme) (h : (Statements.interaction stop body s).1 = none) :
    (Statements.interaction stop body s).2 = s := by
  unfold Statements.interaction at h ⊢
  dsimp only at h ⊢
  split at h
  · cases h
  · next hnew =>
    rw [if_neg hnew]
    split at h
    · cases h
    · next rest hname =>
      show rest = s
      rw [Scan.name_eq_none hname]
      rcases Statements.assignment_cases s with hnone | ⟨a, n, hsome⟩
      · rw [hnone]
      · rw [hsome] at h
        cases h

/-- Without a construct nothing is taken. -/
theorem construct?_none (s : List Lexeme) (h : (Statements.construct? stop body s).1 = none) :
    (Statements.construct? stop body s).2 = s := by
  unfold Statements.construct? at h ⊢
  split at h
  · cases h
  · split at h
    · cases h
    · next hreturn => rw [if_neg hreturn]
  · split at h
    · cases h
    · exact interaction_none stop s h
  · exact interaction_none stop s h
  · rfl

end

theorem statement_suffix {body : List Lexeme → List Statement × List Lexeme} (stop : Span)
    (hbody : ∀ s, (body s).2 <:+ s) (s : List Lexeme) :
    (Statements.statement stop body s).2 <:+ s := by
  unfold Statements.statement
  split
  · next construct rest hread =>
    have hreads := reads_construct? stop hbody s
    rw [hread] at hreads
    exact (hreads construct rfl).suffix.trans (List.tail_suffix s)
  · next rest hread =>
    have hnone := @construct?_none body stop s (by rw [hread])
    rw [hread] at hnone
    dsimp only at hnone ⊢
    rw [hnone]
    exact Scan.restOfStatement_suffix s

namespace Statements

theorem ofLexemes_suffix (stop : Span) (nested : Bool) (fuel : Nat) (s : List Lexeme) :
    (ofLexemes stop nested fuel s).2 <:+ s := by
  induction fuel generalizing nested s with
  | zero => exact List.suffix_refl s
  | succ fuel ih =>
    have hskip := Scan.skipSeparators_suffix s
    unfold ofLexemes
    dsimp only
    split
    · exact hskip
    · next kind hkind =>
      split
      · exact hskip
      · refine ((ih nested _).trans ?_).trans hskip
        split
        · exact List.dropWhile_suffix _
        · exact statement_suffix stop (ih true) _

end Statements

/-- The statement was read off the lexemes `taken`, in front of `rest`. -/
structure Takes (stop : Span) (body : List Lexeme → List Statement × List Lexeme)
    (taken rest : List Lexeme) (t : Statement) : Prop where
  ne_nil : taken ≠ []
  span : t.span = Scan.spanOf stop taken rest
  text : t.text = String.ofList (Lexeme.textOf taken)
  reads : Reads stop body (taken ++ rest) rest t.blocks

/-- **A statement takes at least one lexeme**, unless a separator or a closing brace comes next. -/
theorem takes_statement {body : List Lexeme → List Statement × List Lexeme} (stop : Span)
    (hbody : ∀ s, (body s).2 <:+ s) (l : Lexeme) (ls : List Lexeme)
    (hseparator : l.isSeparator = false) (hbrace : l.kind ≠ .closeBrace) :
    ∃ taken, taken ++ (Statements.statement stop body (l :: ls)).2 = l :: ls ∧
      Takes stop body taken (Statements.statement stop body (l :: ls)).2
        (Statements.statement stop body (l :: ls)).1 := by
  -- what is left is an end of the tail, so something was taken
  have htaken : ∀ rest, rest <:+ ls → Scan.upTo (l :: ls) rest ≠ [] ∧
      Scan.upTo (l :: ls) rest ++ rest = l :: ls := by
    intro rest hrest
    have happend := Scan.upTo_append_of_suffix (hrest.trans (List.suffix_cons l ls))
    refine ⟨fun hnil => ?_, happend⟩
    rw [hnil, List.nil_append] at happend
    have hle := hrest.length_le
    rw [happend, List.length_cons] at hle
    omega
  unfold Statements.statement
  split
  · next construct rest hread =>
    have hreads := reads_construct? stop hbody (l :: ls)
    rw [hread] at hreads
    have hreads := hreads construct rfl
    obtain ⟨hne, happend⟩ := htaken rest hreads.suffix
    refine ⟨_, happend, hne, rfl, rfl, ?_⟩
    rw [happend]
    exact hreads.after (List.suffix_cons l ls)
  · next rest hread =>
    have hnone := @construct?_none body stop (l :: ls) (by rw [hread])
    rw [hread] at hnone
    dsimp only at hnone ⊢
    rw [hnone]
    obtain ⟨hne, happend⟩ := htaken _ (Scan.restOfStatement_cons hseparator hbrace)
    refine ⟨_, happend, hne, rfl, rfl, ?_⟩
    exact .of_suffix (List.suffix_append _ _)

/-- A run of closing braces takes at least the first one. -/
theorem takes_strayBraces {body : List Lexeme → List Statement × List Lexeme} (stop : Span)
    (l : Lexeme) (ls : List Lexeme) (hbrace : l.kind = .closeBrace) :
    ∃ taken, taken ++ (Statements.strayBraces stop (l :: ls)).2 = l :: ls ∧
      Takes stop body taken (Statements.strayBraces stop (l :: ls)).2
        (Statements.strayBraces stop (l :: ls)).1 := by
  refine ⟨_, List.takeWhile_append_dropWhile, ?_, rfl, rfl, .of_suffix (List.suffix_append _ _)⟩
  rw [List.takeWhile_cons_of_pos (by simp [hbrace])]
  exact List.cons_ne_nil _ _

end SequenceDiagram
