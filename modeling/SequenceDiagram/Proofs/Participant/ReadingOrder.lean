import SequenceDiagram.Proofs.Participant.Mentions
import SequenceDiagram.Proofs.Syntax.ReadOff
import SequenceDiagram.Proofs.Syntax.Tiling

namespace SequenceDiagram

open Syntax

/-!
# Mentions in reading order

The walk over the statements comes to the mentions in the order of the lexemes that they were read
from, and to no lexeme twice.

* `ReadInOrder s rest mentions`: the mentions were read one behind the other from the lexemes of `s`
  that stand before `rest`. It composes (`ReadInOrder.append`), and there is one lemma for each
  reader.
* `readInOrder_parse`: the mentions in the statements of a source were read in order.
-/

/-- Where some mentions stand. -/
def mentionSpans (mentions : List (String × Mention)) : List Span :=
  mentions.filterMap (·.2.position)

theorem mentionSpans_append (first others : List (String × Mention)) :
    mentionSpans (first ++ others) = mentionSpans first ++ mentionSpans others := List.filterMap_append ..

/-- The mentions were read in their order from the lexemes of `s` that stand before `rest`. -/
def ReadInOrder (s rest : List Lexeme) (mentions : List (String × Mention)) : Prop :=
  ∃ taken, taken ++ rest = s ∧ (mentionSpans mentions).Sublist (taken.map (·.span))

namespace ReadInOrder

variable {s r rest : List Lexeme} {ms ns : List (String × Mention)}

theorem suffix (h : ReadInOrder s rest ms) : rest <:+ s := by
  obtain ⟨taken, happend, -⟩ := h
  exact ⟨taken, happend⟩

/-- Nothing is mentioned in what is passed over. -/
theorem of_suffix (h : rest <:+ s) : ReadInOrder s rest [] := by
  obtain ⟨taken, happend⟩ := h
  exact ⟨taken, happend, List.nil_sublist _⟩

theorem refl (s : List Lexeme) : ReadInOrder s s [] := of_suffix (List.suffix_refl s)

theorem append (h : ReadInOrder s r ms) (h' : ReadInOrder r rest ns) :
    ReadInOrder s rest (ms ++ ns) := by
  obtain ⟨first, rfl, hfirst⟩ := h
  obtain ⟨others, rfl, hothers⟩ := h'
  refine ⟨first ++ others, List.append_assoc .., ?_⟩
  rw [mentionSpans_append, List.map_append]
  exact hfirst.append hothers

/-- Some lexemes are passed over first. -/
theorem after (h : ReadInOrder r rest ms) (hr : r <:+ s) : ReadInOrder s rest ms :=
  (of_suffix hr).append h

/-- Some lexemes are passed over last. -/
theorem upTo (h : ReadInOrder s r ms) (hrest : rest <:+ r) : ReadInOrder s rest ms := by
  have := h.append (of_suffix hrest)
  rwa [List.append_nil] at this

/-- A name that is used is read from the next lexeme. -/
theorem used {l : Lexeme} : ReadInOrder (l :: rest) rest (Token.used (some l.token)) := by
  refine ⟨[l], rfl, ?_⟩
  by_cases hempty : l.token.text = ""
  · simp [Token.used, Option.filter, hempty, mentionSpans]
  · have hused : Token.used (some l.token) = [(l.token.text, .of l.span)] := by
      simp [Token.used, Option.filter, hempty]
      rfl
    rw [hused]
    exact .refl [l.span]

end ReadInOrder

/-! ### Constructs without inner blocks -/

theorem readInOrder_name (s : List Lexeme) :
    ReadInOrder s (Scan.name s).2 (Token.used (Scan.name s).1) := by
  cases s with
  | nil => exact .refl []
  | cons l rest =>
    rw [Scan.name]
    split
    · exact .used
    · exact .refl _

theorem readInOrder_annotatedReturn (stop : Span) (s : List Lexeme) :
    ReadInOrder s (Statements.annotatedReturn stop s).2
      (Statements.annotatedReturn stop s).1.mentions := by
  have hnames := (readInOrder_name (s.drop 2)).append
    ((readInOrder_name _).after (Scan.skip_suffix .arrow (Scan.name (s.drop 2)).2))
  have hmessage := (hnames.upTo (Statements.content_suffix stop _)).after (List.drop_suffix 2 s)
  -- the message is the only thing in the return
  show ReadInOrder s _ (AsyncMessage.mentions _ ++ [])
  rw [List.append_nil]
  exact hmessage

theorem readInOrder_referenceNames (s : List Lexeme) :
    ReadInOrder s (Statements.referenceNames s).2
      ((Statements.referenceNames s).1.flatMap fun name => Token.used (some name)) := by
  induction s with
  | nil => exact .refl []
  | cons l rest ih =>
    have hrest := ih.after (List.suffix_cons l rest)
    unfold Statements.referenceNames
    split
    · exact .of_suffix (List.suffix_cons l rest)
    · exact .refl _
    · exact .refl _
    · dsimp only
      split
      · rw [List.flatMap_cons]
        exact ReadInOrder.used.append ih
      · exact hrest

/-- The first name in a reference is no mention; the others are read behind it. -/
theorem readInOrder_reference (stop : Span) (s : List Lexeme) :
    ReadInOrder s (Statements.reference stop s).2 (Statements.reference stop s).1.mentions := by
  obtain ⟨taken, happend, hsublist⟩ :=
    (readInOrder_referenceNames (s.drop 2)).after (List.drop_suffix 2 s)
  refine ⟨taken, happend, ?_⟩
  show (mentionSpans ((Statements.referenceNames (s.drop 2)).1.tail.flatMap _)).Sublist _
  cases hnames : (Statements.referenceNames (s.drop 2)).1 with
  | nil => exact List.nil_sublist _
  | cons first others =>
    rw [hnames, List.flatMap_cons, mentionSpans_append] at hsublist
    exact (List.sublist_append_right _ _).trans hsublist

/-! ### Constructs with inner blocks -/

theorem mentionsIn_append (first others : List Branch) :
    mentionsIn (first ++ others) = mentionsIn first ++ mentionsIn others := by
  induction first with
  | nil => rfl
  | cons b rest ih =>
    obtain ⟨role, guard, inner⟩ := b
    simp [mentionsIn, ih]

section Bodies

variable (stop : Span) {body : List Lexeme → List Statement × List Lexeme}
  (hbody : ∀ s, ReadInOrder s (body s).2 (mentionsOf (body s).1))

include hbody

theorem readInOrder_block (s : List Lexeme) :
    ReadInOrder s (Statements.block stop body s).2 (Statements.block stop body s).1.mentions := by
  unfold Statements.block
  split
  · exact ((hbody _).upTo (Scan.skip_suffix .closeBrace _)).after (List.tail_suffix s)
  · exact .refl s

theorem readInOrder_branch (role : BranchRole) (s : List Lexeme) :
    ReadInOrder s (Statements.branch stop body role s).2
      (Statements.branch stop body role s).1.block.mentions :=
  (readInOrder_block stop hbody _).after (Statements.condition_suffix stop s)

theorem readInOrder_unguardedBranch (role : BranchRole) (s : List Lexeme) :
    ReadInOrder s (Statements.unguardedBranch stop body role s).2
      (mentionsIn (Statements.unguardedBranch stop body role s).1) := by
  have hblock := readInOrder_block stop hbody s
  unfold Statements.unguardedBranch
  dsimp only
  split
  · show ReadInOrder s _ (Block.mentions _ ++ [])
    rwa [List.append_nil]
  · exact .of_suffix hblock.suffix

theorem readInOrder_elseBranches (fuel : Nat) (s : List Lexeme) :
    ReadInOrder s (Statements.elseBranches stop body fuel s).2
      (mentionsIn (Statements.elseBranches stop body fuel s).1) := by
  induction fuel generalizing s with
  | zero => exact .refl s
  | succ fuel ih =>
    unfold Statements.elseBranches
    split
    · exact .refl s
    · next rest hword =>
      have hrest := Scan.skipToWord?_suffix hword
      split
      · have hfirst := readInOrder_branch stop hbody .furtherCondition rest.tail
        exact (hfirst.append (ih _)).after ((List.tail_suffix _).trans hrest)
      · exact (readInOrder_unguardedBranch stop hbody _ _).after hrest

theorem readInOrder_catchBranches (fuel : Nat) (s : List Lexeme) :
    ReadInOrder s (Statements.catchBranches stop body fuel s).2
      (mentionsIn (Statements.catchBranches stop body fuel s).1) := by
  induction fuel generalizing s with
  | zero => exact .refl s
  | succ fuel ih =>
    unfold Statements.catchBranches
    split
    · exact .refl s
    · next rest hword =>
      have hfirst := readInOrder_branch stop hbody .handler rest
      exact (hfirst.append (ih _)).after (Scan.skipToWord?_suffix hword)

theorem readInOrder_finallyBranch (s : List Lexeme) :
    ReadInOrder s (Statements.finallyBranch stop body s).2
      (mentionsIn (Statements.finallyBranch stop body s).1) := by
  unfold Statements.finallyBranch
  split
  · exact .refl s
  · next rest hword =>
    exact (readInOrder_unguardedBranch stop hbody _ _).after (Scan.skipToWord?_suffix hword)

theorem readInOrder_alternative (s : List Lexeme) :
    ReadInOrder s (Statements.alternative stop body s).2
      (Statements.alternative stop body s).1.mentions :=
  ((readInOrder_branch stop hbody .condition s.tail).append (readInOrder_elseBranches stop hbody
    ((Statements.branch stop body .condition s.tail).2.length + 1) _)).after (List.tail_suffix s)

theorem readInOrder_tryCatch (s : List Lexeme) :
    ReadInOrder s (Statements.tryCatch stop body s).2
      (Statements.tryCatch stop body s).1.mentions := by
  have hattempt := readInOrder_block stop hbody s.tail
  have hcatches := readInOrder_catchBranches stop hbody
    ((Statements.block stop body s.tail).2.length + 1) (Statements.block stop body s.tail).2
  have hall := hattempt.append (hcatches.append (readInOrder_finallyBranch stop hbody _))
  rw [← mentionsIn_append] at hall
  exact hall.after (List.tail_suffix s)

/-- A single block is all there is to mention. -/
theorem readInOrder_guarded (kind : BlockKind) (s : List Lexeme) :
    ReadInOrder s (Statements.guarded stop body kind s).2
      (Statements.guarded stop body kind s).1.mentions := by
  show ReadInOrder s _ (Block.mentions _ ++ [])
  rw [List.append_nil]
  exact (readInOrder_branch stop hbody .body s.tail).after (List.tail_suffix s)

theorem readInOrder_unguarded (kind : BlockKind) (s : List Lexeme) :
    ReadInOrder s (Statements.unguarded stop body kind s).2
      (Statements.unguarded stop body kind s).1.mentions := by
  show ReadInOrder s _ (Block.mentions _ ++ [])
  rw [List.append_nil]
  exact (readInOrder_block stop hbody s.tail).after (List.tail_suffix s)

theorem readInOrder_creation (s : List Lexeme) (assignment : Option Assignment)
    (r : List Lexeme) : ReadInOrder r (Statements.creation stop body s assignment r).2
      (Statements.creation stop body s assignment r).1.mentions := by
  have hconstructor : ReadInOrder r.tail (Scan.name r.tail).2
      ((Scan.name r.tail).1.toList.map fun t => (creationName assignment t.text, .of t.span)) := by
    cases r.tail with
    | nil => exact .refl []
    | cons l rest =>
      rw [Scan.name]
      split
      · exact ⟨[l], rfl, by simp [mentionSpans, Mention.of, Lexeme.token]⟩
      · exact .refl _
  have harguments := Statements.arguments_suffix stop (Scan.name r.tail).2
  exact ((hconstructor.upTo harguments).append (readInOrder_block stop hbody _)).after
    (List.tail_suffix r)

/-- The sender and the receiver were read before the arguments. -/
theorem readInOrder_call {s₀ r : List Lexeme} {assignment : Option Assignment}
    {sender receiver method : Option Token} (s : List Lexeme)
    (hnames : ReadInOrder s₀ r (Token.used sender ++ Token.used receiver)) :
    ReadInOrder s₀ (Statements.call stop body s assignment sender receiver method r).2
      (Statements.call stop body s assignment sender receiver method r).1.mentions :=
  (hnames.upTo (Statements.arguments_suffix stop r)).append (readInOrder_block stop hbody _)

theorem readInOrder_message {s₀ r : List Lexeme} {assignment : Option Assignment} {first : Token}
    (s : List Lexeme) (hfirst : ReadInOrder s₀ r (Token.used (some first))) :
    ReadInOrder s₀ (Statements.message stop body s assignment first r).2
      (Statements.message stop body s assignment first r).1.mentions := by
  have hmethod := (Scan.name_suffix r.tail).trans (List.tail_suffix r)
  unfold Statements.message
  split
  · -- behind an arrow: a call, or an asynchronous message
    have hnames := hfirst.append ((readInOrder_name r.tail).after (List.tail_suffix r))
    dsimp only
    split
    · apply readInOrder_call stop hbody
      exact hnames.upTo ((Scan.name_suffix _).trans (List.tail_suffix _))
    · exact hnames.upTo (Statements.content_suffix stop _)
  · split
    · apply readInOrder_call stop hbody
      exact hfirst.upTo hmethod
    · -- the name is that of a method, and nobody is mentioned
      apply readInOrder_call stop hbody
      exact .of_suffix hfirst.suffix

theorem readInOrder_interaction (s : List Lexeme) :
    ∀ c ∈ (Statements.interaction stop body s).1,
      ReadInOrder s (Statements.interaction stop body s).2 c.mentions := by
  have hassigned := assignment_suffix s
  have hname := readInOrder_name (Statements.assignment s).2
  unfold Statements.interaction
  dsimp only
  split
  · rintro c ⟨⟩
    exact (readInOrder_creation stop hbody _ _ _).after hassigned
  · split
    · next first rest heq =>
      rintro c ⟨⟩
      rw [heq] at hname
      exact (readInOrder_message stop hbody s hname).after hassigned
    · next rest heq =>
      intro c hc
      obtain ⟨a, -, rfl⟩ := Option.map_eq_some_iff.mp hc
      rw [heq] at hname
      exact hname.after hassigned

theorem readInOrder_keywordConstruct? (s : List Lexeme) (word : String) :
    ∀ r ∈ Statements.keywordConstruct? stop body s word, ReadInOrder s r.2 r.1.mentions := by
  unfold Statements.keywordConstruct?
  intro r hr
  -- one case for each keyword
  repeat' split at hr
  all_goals cases hr
  · exact readInOrder_alternative stop hbody s
  · exact readInOrder_guarded stop hbody _ s
  · exact readInOrder_unguarded stop hbody _ s
  · exact readInOrder_unguarded stop hbody _ s
  · exact readInOrder_guarded stop hbody _ s
  · exact readInOrder_guarded stop hbody _ s
  · exact readInOrder_tryCatch stop hbody s
  · exact readInOrder_reference stop s
  · exact .of_suffix (ret_suffix stop s)

theorem readInOrder_construct? (s : List Lexeme) :
    ∀ c ∈ (Statements.construct? stop body s).1,
      ReadInOrder s (Statements.construct? stop body s).2 c.mentions := by
  unfold Statements.construct?
  split
  · rintro c ⟨⟩
    exact .of_suffix (((Scan.skip_suffix .doubleEqual _).trans (List.dropWhile_suffix _)).trans
      (List.tail_suffix s))
  · split
    · rintro c ⟨⟩
      exact readInOrder_annotatedReturn stop s
    · exact fun c hc => nomatch hc
  · split
    · next construct rest hkeyword =>
      rintro c ⟨⟩
      obtain ⟨word, _, hword⟩ := Option.bind_eq_some_iff.mp hkeyword
      exact readInOrder_keywordConstruct? stop hbody s word _ hword
    · exact readInOrder_interaction stop hbody s
  · exact readInOrder_interaction stop hbody s
  · exact fun c hc => nomatch hc

theorem readInOrder_statement (s : List Lexeme) :
    ReadInOrder s (Statements.statement stop body s).2
      (Statements.statement stop body s).1.mentions := by
  have hsuffix := statement_suffix stop (fun s => (hbody s).suffix) s
  have hconstruct := readInOrder_construct? stop hbody s
  unfold Statements.statement at hsuffix ⊢
  split
  · next construct rest heq =>
    rw [heq] at hconstruct
    exact hconstruct construct rfl
  · next rest heq =>
    rw [heq] at hsuffix
    exact .of_suffix hsuffix

end Bodies

/-! ### Whole sources -/

/-- **Statements are read in order**, and so is what they mention. -/
theorem readInOrder_statements (stop : Span) (nested : Bool) (fuel : Nat) (s : List Lexeme) :
    ReadInOrder s (Statements.ofLexemes stop nested fuel s).2
      (mentionsOf (Statements.ofLexemes stop nested fuel s).1) := by
  -- on the bound: the others and every inner block have a smaller one
  induction fuel generalizing nested s with
  | zero => exact .refl s
  | succ fuel ih =>
    have hskip := Scan.skipSeparators_suffix s
    unfold Statements.ofLexemes
    dsimp only
    split
    · exact .of_suffix hskip
    · split
      · exact .of_suffix hskip
      · split
        · exact ((ih nested _).after (List.dropWhile_suffix _)).after hskip
        · exact ((readInOrder_statement stop (ih true) _).append (ih nested _)).after hskip

/-- The mentions in the statements of a source were read in order. -/
theorem readInOrder_parse (source : String) :
    (mentionSpans (mentionsOf (parse source).statements)).Sublist ((lex source).map (·.span)) := by
  have hread := (readInOrder_statements (endOfInput source (lex source)) false
    ((bodyLexemes source).length + 1) (bodyLexemes source)).after (bodyLexemes_suffix source)
  obtain ⟨taken, happend, hsublist⟩ := hread
  refine hsublist.trans (List.Sublist.map _ ?_)
  rw [← happend]
  exact List.sublist_append_left taken _

/-- **Every later mention starts behind the earlier ones.** -/
theorem mentions_pairwise (source : String) :
    (mentionSpans (mentionsOf (parse source).statements)).Pairwise fun s t => s.start < t.start := by
  have hstand := standFrom_lex source
  have hlexemes : ((lex source).map (·.span)).Pairwise fun s t => s.start < t.start := by
    rw [List.pairwise_map]
    refine hstand.pairwise.imp_of_mem ?_
    intro l k hl _ hlt
    have hbounds := hstand.bounds hl
    omega
  exact hlexemes.sublist (readInOrder_parse source)

end SequenceDiagram
