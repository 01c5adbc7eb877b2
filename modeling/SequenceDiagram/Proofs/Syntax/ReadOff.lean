import SequenceDiagram.Proofs.Syntax.Pieces

namespace SequenceDiagram

open Syntax

/-!
# Statements are read off their lexemes

Every reader of statements keeps pieces of the lexemes that it was given, and of no others.

* There is one lemma for each reader. Those of the constructs with inner blocks ask the same of the
  reader that is told how to read what stands in braces.
* `readOff_statements` ties them together, by induction on the bound.
* `readOff_parse` is the result for a whole source.
-/

/-! ### Parts of statements -/

section Parts

variable (stop : Span) (s : List Lexeme)

theorem readOff_condition :
    ReadOff stop s ((Statements.condition stop s).1.toList.flatMap (·.pieces)) := by
  unfold Statements.condition
  split
  · have hinner : (Scan.balanced 0 s.tail).1 ++ (Scan.balanced 0 s.tail).2 <:+ s := by
      rw [Scan.balanced_append]
      exact List.tail_suffix s
    refine .single (.cons (.text hinner) (readOff_expressions ?_))
    intro e he
    exact readOff_expression (Option.mem_toList.mp he) hinner
  · exact .nil

theorem readOff_arguments : ReadOff stop s (argumentPieces (Statements.arguments stop s).1) := by
  unfold Statements.arguments
  split
  · have hinner : (Scan.balanced 0 s.tail).1 ++ (Scan.balanced 0 s.tail).2 <:+ s := by
      rw [Scan.balanced_append]
      exact List.tail_suffix s
    refine .single (.cons (.text hinner) (readOff_expressions ?_))
    intro e he
    obtain ⟨part, hpart, he⟩ := List.mem_filterMap.mp he
    -- a part between commas, with the other parts and the rest behind it
    obtain ⟨front, back, hfront⟩ := (Expression.isInfix_of_mem_splitCommas 0 _).2 part hpart
    have hbehind : part ++ (back ++ (Scan.balanced 0 s.tail).2) <:+ s := by
      refine List.IsSuffix.trans ⟨front, ?_⟩ hinner
      rw [← hfront]
      simp only [List.append_assoc]
    exact readOff_expression he hbehind
  · exact .nil

theorem readOff_assignment :
    ReadOff stop s (assignmentPieces (Statements.assignment s).1) := by
  unfold Statements.assignment
  split
  · exact .single ((readOff_name stop s).append
      ((readOff_name stop _).of_suffix (List.tail_suffix s)))
  · split
    · exact .single (.append .nil (readOff_name stop s))
    · exact .nil

theorem assignment_suffix : (Statements.assignment s).2 <:+ s := by
  rcases Statements.assignment_cases s with h | ⟨a, n, h⟩
  · exact ⟨[], congrArg Prod.snd h⟩
  · rw [h]
    exact List.drop_suffix _ s

theorem readOff_content : ReadOff stop s (texts (Statements.content stop s).1) := by
  unfold Statements.content
  split
  · refine .unlessEmpty ?_
    rw [Scan.restOfLine, Scan.takeNested_append]
    exact List.tail_suffix s
  · exact .nil

/-! ### Constructs without inner blocks -/

theorem ret_suffix : (Statements.ret stop s).2 <:+ s :=
  (Scan.restOfLine_suffix true _).trans (List.tail_suffix s)

theorem readOff_ret : ReadOff stop s (Statements.ret stop s).1.pieces := by
  have htaken : (Scan.restOfLine true s.tail).1 ++ (Scan.restOfLine true s.tail).2 <:+ s := by
    rw [Scan.restOfLine, Scan.takeNested_append]
    exact List.tail_suffix s
  exact .spanUpTo (ret_suffix stop s) (.append (.unlessEmpty htaken) .nil)

theorem readOff_annotatedReturn : ReadOff stop s (Statements.annotatedReturn stop s).1.pieces := by
  have hinner := List.drop_suffix 2 s
  have harrow := (Scan.skip_suffix .arrow _).trans (Scan.name_suffix (s.drop 2))
  have hreceiver := (Scan.name_suffix _).trans harrow
  have hcontent := (Statements.content_suffix stop _).trans hreceiver
  refine .spanUpTo (hcontent.trans hinner) (.append .nil (.single (.of_suffix ?_ hinner)))
  exact .spanUpTo hcontent (((readOff_name stop _).append
    ((readOff_name stop _).of_suffix harrow)).append ((readOff_content stop _).of_suffix hreceiver))

theorem readOff_divider : ReadOff stop s (Statements.divider stop s).1.pieces := by
  have hrest : (Statements.divider stop s).2 <:+ s :=
    ((Scan.skip_suffix .doubleEqual _).trans (List.dropWhile_suffix _)).trans (List.tail_suffix s)
  refine .spanUpTo hrest (.unlessEmpty ?_)
  rw [List.takeWhile_append_dropWhile]
  exact List.tail_suffix s

theorem readOff_referenceNames :
    ReadOff stop s ((Statements.referenceNames s).1.map .word) := by
  induction s with
  | nil => exact .nil
  | cons l rest ih =>
    have hrest := ih.of_suffix (List.suffix_cons l rest)
    unfold Statements.referenceNames
    split
    · exact .nil
    · exact .nil
    · exact .nil
    · dsimp only
      split
      · exact .cons (.word List.mem_cons_self) hrest
      · exact hrest

theorem readOff_reference : ReadOff stop s (Statements.reference stop s).1.pieces := by
  have hdrop := List.drop_suffix 2 s
  exact .spanUpTo ((Statements.referenceNames_suffix _).trans hdrop)
    ((readOff_referenceNames stop _).of_suffix hdrop)

end Parts

/-! ### Constructs with inner blocks -/

theorem ReadOff.piecesIn_append {stop : Span} {s : List Lexeme} {bs cs : List Branch}
    (h : ReadOff stop s (piecesIn bs)) (h' : ReadOff stop s (piecesIn cs)) :
    ReadOff stop s (piecesIn (bs ++ cs)) := by
  induction bs with
  | nil => exact h'
  | cons b rest ih =>
    obtain ⟨role, guard, body⟩ := b
    obtain ⟨hfirst, hrest⟩ := List.forall_mem_append.mp h
    exact .append hfirst (ih hrest)

section Bodies

variable (stop : Span) {body : List Lexeme → List Statement × List Lexeme}
  (hbody : ∀ s, (body s).2 <:+ s) (hread : ∀ s, ReadOff stop s (piecesOf (body s).1))

include hbody hread

theorem readOff_block (s : List Lexeme) :
    ReadOff stop s (Statements.block stop body s).1.pieces := by
  have hsuffix := block_suffix stop hbody s
  unfold Statements.block at hsuffix ⊢
  split
  · next hbrace =>
    rw [if_pos hbrace] at hsuffix
    exact .spanUpTo hsuffix ((hread _).of_suffix (List.tail_suffix s))
  · exact .nil

theorem readOff_branch (role : BranchRole) (s : List Lexeme) :
    ReadOff stop s (piecesIn [(Statements.branch stop body role s).1]) :=
  .append (.append (readOff_condition stop s) ((readOff_block stop hbody hread _).of_suffix
    (Statements.condition_suffix stop s))) .nil

theorem readOff_unguardedBranch (role : BranchRole) (s : List Lexeme) :
    ReadOff stop s (piecesIn (Statements.unguardedBranch stop body role s).1) := by
  have hblock := readOff_block stop hbody hread s
  unfold Statements.unguardedBranch
  dsimp only
  split
  · exact .append (.append .nil hblock) .nil
  · exact .nil

theorem readOff_elseBranches (fuel : Nat) (s : List Lexeme) :
    ReadOff stop s (piecesIn (Statements.elseBranches stop body fuel s).1) := by
  induction fuel generalizing s with
  | zero => exact .nil
  | succ fuel ih =>
    unfold Statements.elseBranches
    split
    · exact .nil
    · next rest hword =>
      have hrest := Scan.skipToWord?_suffix hword
      split
      · have hfirst := reads_branch stop hbody .furtherCondition rest.tail
        refine ReadOff.of_suffix ?_ ((List.tail_suffix _).trans hrest)
        exact (readOff_branch stop hbody hread _ _).piecesIn_append ((ih _).of_suffix hfirst.suffix)
      · exact (readOff_unguardedBranch stop hbody hread _ _).of_suffix hrest

theorem readOff_catchBranches (fuel : Nat) (s : List Lexeme) :
    ReadOff stop s (piecesIn (Statements.catchBranches stop body fuel s).1) := by
  induction fuel generalizing s with
  | zero => exact .nil
  | succ fuel ih =>
    unfold Statements.catchBranches
    split
    · exact .nil
    · next rest hword =>
      have hfirst := reads_branch stop hbody .handler rest
      refine ReadOff.of_suffix ?_ (Scan.skipToWord?_suffix hword)
      exact (readOff_branch stop hbody hread _ _).piecesIn_append ((ih _).of_suffix hfirst.suffix)

theorem readOff_finallyBranch (s : List Lexeme) :
    ReadOff stop s (piecesIn (Statements.finallyBranch stop body s).1) := by
  unfold Statements.finallyBranch
  split
  · exact .nil
  · next rest hword =>
    exact (readOff_unguardedBranch stop hbody hread _ _).of_suffix (Scan.skipToWord?_suffix hword)

theorem readOff_alternative (s : List Lexeme) :
    ReadOff stop s (Statements.alternative stop body s).1.pieces := by
  have htail := List.tail_suffix s
  have hfirst := reads_branch stop hbody .condition s.tail
  have hothers := readOff_elseBranches stop hbody hread
    ((Statements.branch stop body .condition s.tail).2.length + 1)
    (Statements.branch stop body .condition s.tail).2
  refine .spanUpTo ((reads_alternative stop hbody s).suffix.trans htail)
    (ReadOff.of_suffix ?_ htail)
  exact (readOff_branch stop hbody hread _ _).piecesIn_append (hothers.of_suffix hfirst.suffix)

theorem readOff_tryCatch (s : List Lexeme) :
    ReadOff stop s (Statements.tryCatch stop body s).1.pieces := by
  have htail := List.tail_suffix s
  have hattempt := block_suffix stop hbody s.tail
  have hhandlers := (reads_catchBranches stop hbody
    ((Statements.block stop body s.tail).2.length + 1) _).suffix.trans hattempt
  have hcatches := readOff_catchBranches stop hbody hread
    ((Statements.block stop body s.tail).2.length + 1) (Statements.block stop body s.tail).2
  refine .spanUpTo ((reads_tryCatch stop hbody s).suffix.trans htail)
    (ReadOff.of_suffix ?_ htail)
  refine .append (.append .nil (readOff_block stop hbody hread _)) (.piecesIn_append ?_ ?_)
  · exact hcatches.of_suffix hattempt
  · exact (readOff_finallyBranch stop hbody hread _).of_suffix hhandlers

theorem readOff_guarded (kind : BlockKind) (s : List Lexeme) :
    ReadOff stop s (Statements.guarded stop body kind s).1.pieces := by
  have htail := List.tail_suffix s
  exact .spanUpTo ((reads_guarded stop hbody kind s).suffix.trans htail)
    ((readOff_branch stop hbody hread _ _).of_suffix htail)

theorem readOff_unguarded (kind : BlockKind) (s : List Lexeme) :
    ReadOff stop s (Statements.unguarded stop body kind s).1.pieces := by
  have htail := List.tail_suffix s
  refine .spanUpTo ((reads_unguarded stop hbody kind s).suffix.trans htail)
    (ReadOff.of_suffix ?_ htail)
  exact .append (.append .nil (readOff_block stop hbody hread _)) .nil

theorem readOff_creation {s r : List Lexeme} (hr : r <:+ s) {assignment : Option Assignment}
    (hassignment : ReadOff stop s (assignmentPieces assignment)) :
    ReadOff stop s (Statements.creation stop body s assignment r).1.pieces := by
  have htail := (List.tail_suffix r).trans hr
  have hname := (Scan.name_suffix _).trans htail
  have harguments := (Statements.arguments_suffix stop _).trans hname
  refine .append (.spanUpTo ((block_suffix stop hbody _).trans harguments) ?_)
    ((readOff_block stop hbody hread _).of_suffix harguments)
  exact (hassignment.append ((readOff_name stop _).of_suffix htail)).append
    ((readOff_arguments stop _).of_suffix hname)

theorem readOff_call {s r : List Lexeme} (hr : r <:+ s) {assignment : Option Assignment}
    {sender receiver method : Option Token}
    (hassignment : ReadOff stop s (assignmentPieces assignment))
    (hnames : ReadOff stop s (words sender ++ words receiver ++ words method)) :
    ReadOff stop s (Statements.call stop body s assignment sender receiver method r).1.pieces := by
  have harguments := (Statements.arguments_suffix stop r).trans hr
  have hpieces := (hassignment.append hnames).append ((readOff_arguments stop r).of_suffix hr)
  rw [← List.append_assoc, ← List.append_assoc] at hpieces
  exact .append (.spanUpTo ((block_suffix stop hbody _).trans harguments) hpieces)
    ((readOff_block stop hbody hread _).of_suffix harguments)

theorem readOff_message {s r : List Lexeme} (hr : r <:+ s) {assignment : Option Assignment}
    {first : Token} (hassignment : ReadOff stop s (assignmentPieces assignment))
    (hfirst : ReadOff stop s (words (some first))) :
    ReadOff stop s (Statements.message stop body s assignment first r).1.pieces := by
  have htail := (List.tail_suffix r).trans hr
  have hname := (Scan.name_suffix r.tail).trans htail
  have hword := (readOff_name stop r.tail).of_suffix htail
  unfold Statements.message
  split
  · -- behind an arrow: a call, or an asynchronous message
    have hbehind := (List.tail_suffix _).trans hname
    dsimp only
    split
    · exact readOff_call stop hbody hread ((Scan.name_suffix _).trans hbehind) hassignment
        ((hfirst.append hword).append ((readOff_name stop _).of_suffix hbehind))
    · exact .spanUpTo ((Statements.content_suffix stop _).trans hname)
        ((hfirst.append hword).append ((readOff_content stop _).of_suffix hname))
  · split
    · exact readOff_call stop hbody hread hname hassignment
        ((ReadOff.nil.append hfirst).append hword)
    · exact readOff_call stop hbody hread hr hassignment ((ReadOff.nil.append .nil).append hfirst)

theorem readOff_interaction (s : List Lexeme) :
    ∀ c ∈ (Statements.interaction stop body s).1, ReadOff stop s c.pieces := by
  have hassigned := assignment_suffix s
  have hassignment := readOff_assignment stop s
  have hword := (readOff_name stop _).of_suffix hassigned
  unfold Statements.interaction
  dsimp only
  split
  · rintro c ⟨⟩
    exact readOff_creation stop hbody hread hassigned hassignment
  · have hname := (Scan.name_suffix _).trans hassigned
    split
    · next first rest heq =>
      rintro c ⟨⟩
      rw [heq] at hname hword
      exact readOff_message stop hbody hread hname hassignment hword
    · next rest heq =>
      intro c hc
      obtain ⟨a, ha, rfl⟩ := Option.map_eq_some_iff.mp hc
      rw [heq] at hname
      rw [ha] at hassignment
      exact .append (.spanUpTo hname (by simpa [words, argumentPieces] using hassignment)) .nil

theorem readOff_keywordConstruct? (s : List Lexeme) (word : String) :
    ∀ r ∈ Statements.keywordConstruct? stop body s word, ReadOff stop s r.1.pieces := by
  unfold Statements.keywordConstruct?
  intro r hr
  -- one case for each keyword
  repeat' split at hr
  all_goals cases hr
  · exact readOff_alternative stop hbody hread s
  · exact readOff_guarded stop hbody hread _ s
  · exact readOff_unguarded stop hbody hread _ s
  · exact readOff_unguarded stop hbody hread _ s
  · exact readOff_guarded stop hbody hread _ s
  · exact readOff_guarded stop hbody hread _ s
  · exact readOff_tryCatch stop hbody hread s
  · exact readOff_reference stop s
  · exact readOff_ret stop s

theorem readOff_construct? (s : List Lexeme) :
    ∀ c ∈ (Statements.construct? stop body s).1, ReadOff stop s c.pieces := by
  unfold Statements.construct?
  split
  · rintro c ⟨⟩
    exact readOff_divider stop s
  · split
    · rintro c ⟨⟩
      exact readOff_annotatedReturn stop s
    · exact fun c hc => nomatch hc
  · split
    · next construct rest hkeyword =>
      rintro c ⟨⟩
      obtain ⟨word, _, hword⟩ := Option.bind_eq_some_iff.mp hkeyword
      exact readOff_keywordConstruct? stop hbody hread s word _ hword
    · exact readOff_interaction stop hbody hread s
  · exact readOff_interaction stop hbody hread s
  · exact fun c hc => nomatch hc

/-! ### Statements -/

theorem readOff_statement (s : List Lexeme) :
    ReadOff stop s (Statements.statement stop body s).1.pieces := by
  have hsuffix := statement_suffix stop hbody s
  have hconstruct := readOff_construct? stop hbody hread s
  have hall : ∀ rest, rest <:+ s → Scan.upTo s rest ++ rest <:+ s :=
    fun rest hrest => ⟨[], Scan.upTo_append_of_suffix hrest⟩
  unfold Statements.statement at hsuffix ⊢
  split
  · next construct rest heq =>
    rw [heq] at hsuffix hconstruct
    exact .cons (.text (hall rest hsuffix)) (hconstruct construct rfl)
  · next rest heq =>
    rw [heq] at hsuffix
    exact .cons (.text (hall _ hsuffix)) .nil

end Bodies

theorem readOff_strayBraces (stop : Span) (s : List Lexeme) :
    ReadOff stop s (Statements.strayBraces stop s).1.pieces := by
  have hall : s.takeWhile (·.kind = .closeBrace) ++ s.dropWhile (·.kind = .closeBrace) <:+ s :=
    ⟨[], List.takeWhile_append_dropWhile⟩
  exact .cons (.text hall) .nil

/-- **All pieces of some statements are read off their lexemes.** -/
theorem readOff_statements (stop : Span) (nested : Bool) (fuel : Nat) (s : List Lexeme) :
    ReadOff stop s (piecesOf (Statements.ofLexemes stop nested fuel s).1) := by
  -- on the bound: the others and every inner block have a smaller one
  induction fuel generalizing nested s with
  | zero => exact .nil
  | succ fuel ih =>
    have hskip := Scan.skipSeparators_suffix s
    have hbody := Statements.ofLexemes_suffix stop true fuel
    unfold Statements.ofLexemes
    dsimp only
    split
    · exact .nil
    · next kind hkind =>
      split
      · exact .nil
      · split
        · have hrest : (Statements.strayBraces stop (Scan.skipSeparators s)).2 <:+ s :=
            (List.dropWhile_suffix _).trans hskip
          exact ((readOff_strayBraces stop _).of_suffix hskip).append
            ((ih nested _).of_suffix hrest)
        · have hrest := (statement_suffix stop hbody (Scan.skipSeparators s)).trans hskip
          exact ((readOff_statement stop hbody (ih true) _).of_suffix hskip).append
            ((ih nested _).of_suffix hrest)

/-- The pieces of the tree of a source are read off its lexemes. -/
theorem readOff_parse (source : String) :
    ReadOff (endOfInput source (lex source)) (lex source) (parse source).pieces := by
  unfold parse Program.pieces
  dsimp only
  generalize endOfInput source (lex source) = stop
  have hskip := Scan.skipSeparators_suffix (lex source)
  have hhead := readOff_head stop (Scan.skipSeparators (lex source))
  have hsuffix := Head.ofLexemes_suffix stop (Scan.skipSeparators (lex source))
  generalize Head.ofLexemes stop (Scan.skipSeparators (lex source)) = read at hhead hsuffix ⊢
  obtain ⟨head, start⟩ := read
  refine .append (hhead.of_suffix hskip) (ReadOff.of_suffix ?_ (hsuffix.trans hskip))
  exact .spanUpTo (Statements.ofLexemes_suffix stop false (start.length + 1) start)
    (readOff_statements stop false (start.length + 1) start)

end SequenceDiagram
