import SequenceDiagram.Proofs.Participant.History
import SequenceDiagram.Proofs.Participant.Positions
import SequenceDiagram.Proofs.Text.Lengths

namespace SequenceDiagram

open Syntax

/-!
# How long the texts of a document are

Whatever a diagram shows is made from a few pieces of its source, so it cannot be much longer.

* `Piece.AtMost n` bounds the text of a piece, and `pieces_parse_atMost` bounds those of a source.
* `shownSteps`: the signatures and the conditions of a document are at most four times as long as
  its pieces, and a few characters more.
* `mentionAtMostSteps`: the names and the labels of participants are at most as long as two pieces
  and a colon. `length_displayName_le` is what comes of it for the records of a ledger.
-/

/-! ### Pieces -/

/-- The text of the piece, if it has one, has at most `n` characters. -/
def Syntax.Piece.AtMost (n : Nat) : Piece → Prop
  | .word t => t.text.length ≤ n
  | .text t => t.text.length ≤ n
  | .place _ => True

/-- The text of some lexemes in a row is not longer than their source. -/
theorem length_textOf_le {source : String} {taken rest : List Lexeme}
    (h : taken ++ rest <:+ lex source) : (Lexeme.textOf taken).length ≤ source.length := by
  obtain ⟨before, hbefore⟩ := h
  obtain ⟨tail, htail⟩ := exists_flatMap_lex source
  cases taken with
  | nil => exact Nat.zero_le _
  | cons l ls =>
    rw [← hbefore, List.flatMap_append, List.flatMap_append, flatMap_chars_cons] at htail
    have hlength := congrArg List.length htail
    simp only [List.length_append, String.length_toList] at hlength
    omega

/-- What was read off the lexemes of a source is not longer than the source. -/
theorem atMost_of_from {source : String} {stop : Span} {p : Piece} (h : p.From stop (lex source)) :
    p.AtMost source.length := by
  cases h with
  | @word l hl =>
    obtain ⟨before, after, hlex⟩ := List.append_of_mem hl
    have hmiddle : [l] ++ after <:+ lex source := ⟨before, hlex.symm⟩
    have htext := length_textOf_le hmiddle
    rw [Lexeme.textOf, List.flatMap_nil, List.append_nil] at htext
    have hunquote := length_unquoteChars_le l.text
    show (String.ofList (unquoteChars l.text)).length ≤ _
    rw [String.length_ofList]
    exact Nat.le_trans hunquote htext
  | @text taken rest htaken =>
    show (String.ofList (Lexeme.textOf taken)).length ≤ _
    rw [String.length_ofList]
    exact length_textOf_le htaken
  | place htaken => exact True.intro

theorem pieces_parse_atMost (source : String) :
    ∀ p ∈ (parse source).pieces, p.AtMost source.length :=
  fun p hp => atMost_of_from (readOff_parse source p hp)

section Tokens

variable {n : Nat} {token : Option Token}

theorem length_of_words (h : ∀ p ∈ words token, p.AtMost n) :
    ∀ t, token = some t → t.text.length ≤ n := by
  rintro t rfl
  exact h (.word t) List.mem_cons_self

theorem length_text?_le (h : ∀ p ∈ words token, p.AtMost n) :
    ∀ text ∈ Token.text? token, text.length ≤ n := by
  intro text htext
  obtain ⟨t, ht, rfl, -⟩ := Token.text?_eq_some.mp htext
  exact length_of_words h t ht

theorem length_displayOf_le (h : ∀ p ∈ texts token, p.AtMost n) :
    ((displayOf token).getD "").length ≤ 2 * n := by
  cases token with
  | none => exact Nat.zero_le _
  | some t =>
    have ht : t.text.length ≤ n := h (.text t) List.mem_cons_self
    have hdisplay := length_displayText_le t.text
    unfold displayOf
    rw [Option.map_some, Option.filter_some]
    split
    · exact Nat.le_trans hdisplay (Nat.mul_le_mul_left 2 ht)
    · exact Nat.zero_le _

end Tokens

/-! ### Signatures and conditions -/

/-- The signatures of some messages and the conditions of some fragments have at most `n`
    characters. -/
structure ShownAtMost (n : Nat) (messages : List Message) (fragments : List FragmentTree) :
    Prop where
  signature : ∀ m ∈ messages, m.signature.length ≤ n
  condition : ∀ f ∈ fragments, ∀ s ∈ f.sections, ∀ c ∈ s.condition, c.length ≤ n

namespace ShownAtMost

variable {n : Nat} {messages messages' : List Message} {fragments fragments' : List FragmentTree}

theorem nil : ShownAtMost n [] [] :=
  ⟨List.forall_mem_nil _, List.forall_mem_nil _⟩

theorem mono {k : Nat} (h : ShownAtMost n messages fragments) (hk : n ≤ k) :
    ShownAtMost k messages fragments :=
  ⟨fun m hm => Nat.le_trans (h.signature m hm) hk,
    fun f hf s hs c hc => Nat.le_trans (h.condition f hf s hs c hc) hk⟩

theorem append (h : ShownAtMost n messages fragments) (h' : ShownAtMost n messages' fragments') :
    ShownAtMost n (messages ++ messages') (fragments ++ fragments') :=
  ⟨List.forall_mem_append.mpr ⟨h.signature, h'.signature⟩,
    List.forall_mem_append.mpr ⟨h.condition, h'.condition⟩⟩

theorem message {m : Message} (hm : m.signature.length ≤ n) (h : ShownAtMost n messages fragments) :
    ShownAtMost n (m :: messages) fragments :=
  ⟨List.forall_mem_cons.mpr ⟨hm, h.signature⟩, h.condition⟩

theorem fragment {f : FragmentTree} (hf : ∀ s ∈ f.sections, ∀ c ∈ s.condition, c.length ≤ n)
    (h : ShownAtMost n messages fragments) : ShownAtMost n messages (f :: fragments) :=
  ⟨h.signature, List.forall_mem_cons.mpr ⟨hf, h.condition⟩⟩

end ShownAtMost

section Signatures

variable {n : Nat}

theorem length_callSignature_le {c : Call} (h : ∀ p ∈ c.pieces, p.AtMost n) :
    ∀ signature ∈ callSignature c, signature.length ≤ 4 * n + 8 := by
  intro signature hsignature
  obtain ⟨method, hmethod, heq⟩ := Option.map_eq_some_iff.mp hsignature
  have hm : method.length ≤ n := by
    refine length_text?_le (fun p hp => h p ?_) method hmethod
    simp [Call.pieces, hp]
  cases harguments : c.arguments with
  | none =>
    rw [harguments] at heq
    subst heq
    show method.length ≤ _
    omega
  | some a =>
    rw [harguments] at heq
    subst heq
    have ha : a.text.length ≤ n := by
      refine h (.text ⟨a.text, a.span⟩) ?_
      simp [Call.pieces, argumentPieces, harguments, Arguments.pieces]
    have hdisplay := length_displayText_le (method ++ "(" ++ a.text ++ ")")
    simp only [String.length_append] at hdisplay
    have hparentheses : "(".length = 1 ∧ ")".length = 1 := by decide
    show (displayText (method ++ "(" ++ a.text ++ ")")).length ≤ _
    omega

theorem length_signature_creation_le {frame : Frame} {id : NodeId} {c : Creation} {m : Message}
    (h : ∀ p ∈ c.pieces, p.AtMost n) (hm : frame.creation id c = .ok m) :
    m.signature.length ≤ 4 * n + 8 := by
  unfold Frame.creation at hm
  split at hm
  · cases hm
  · cases hm
    have harguments : (((c.arguments.map fun a => displayText a.text).filter (· ≠ "")).getD
        "create").length ≤ 2 * n + 6 := by
      cases ha : c.arguments with
      | none => exact Nat.le_add_left 6 _
      | some a =>
        have ha : a.text.length ≤ n := by
          refine h (.text ⟨a.text, a.span⟩) ?_
          simp [Creation.pieces, argumentPieces, ha, Arguments.pieces]
        have hdisplay := length_displayText_le a.text
        rw [Option.map_some, Option.filter_some]
        split
        · show (displayText a.text).length ≤ _
          omega
        · exact Nat.le_add_left 6 _
    have hquotes : "«".length = 1 ∧ "»".length = 1 := by decide
    simp only [String.length_append]
    omega

/-- A return shows the content of its message, or else its expression. -/
theorem length_signature_ret_le {frame : Frame} {id : NodeId} {r : Return}
    (h : ∀ p ∈ r.pieces, p.AtMost n) : (frame.ret id r).signature.length ≤ 4 * n + 8 := by
  unfold Frame.ret
  cases hmessage : r.message with
  | none =>
    have hcontent : ((displayOf r.expression).getD "").length ≤ 2 * n := by
      refine length_displayOf_le fun p hp => h p ?_
      simp [Return.pieces, hp]
    simp only
    omega
  | some m =>
    have hcontent : ((displayOf m.content).getD "").length ≤ 2 * n := by
      refine length_displayOf_le fun p hp => h p ?_
      simp [Return.pieces, hmessage, AsyncMessage.pieces, hp]
    simp only
    omega

/-- A guard is at most twice as long as it is written. -/
theorem length_condition_le {guard : Option Condition}
    (h : ∀ p ∈ guard.toList.flatMap (·.pieces), p.AtMost n) :
    ∀ c ∈ (guard.map fun c => displayText (unquote c.text.text)).filter (· ≠ ""),
      c.length ≤ 4 * n + 8 := by
  intro text htext
  obtain ⟨c, rfl, rfl⟩ := Option.map_eq_some_iff.mp (Option.filter_eq_some_iff.mp htext).1
  have hc : c.text.text.length ≤ n := by
    refine h (.text c.text) ?_
    simp [Condition.pieces]
  have hunquote := length_unquote_le c.text.text
  have hdisplay := length_displayText_le (unquote c.text.text)
  omega

end Signatures

/-- **What a document shows is not much longer than what its source keeps.** -/
theorem shownSteps (n : Nat) : Syntax.Steps
    (fun s => (∀ p ∈ s.pieces, p.AtMost n) → ∀ (frame : Frame) id,
      ShownAtMost (4 * n + 8) (frame.statement id s).value.messages
        (frame.statement id s).value.fragments)
    (fun ss => (∀ p ∈ piecesOf ss, p.AtMost n) → ∀ (frame : Frame) next,
      ShownAtMost (4 * n + 8) (messagesOf (frame.statements next ss).value)
        (fragmentsOf (frame.statements next ss).value))
    (fun bs => (∀ p ∈ piecesIn bs, p.AtMost n) → ∀ (frame : Frame) next kind,
      (∀ s ∈ (frame.branches next kind bs).value, ∀ c ∈ s.condition, c.length ≤ 4 * n + 8) ∧
      ShownAtMost (4 * n + 8) (messagesIn (frame.branches next kind bs).value)
        (fragmentsIn (frame.branches next kind bs).value)) where
  unrecognized span text h frame id := .nil
  call c body span text hbody h frame id := by
    have hc : ∀ p ∈ c.pieces, p.AtMost n := fun p hp =>
      h p (List.mem_cons_of_mem _ (List.mem_append_left _ hp))
    have hinner := hbody fun p hp =>
      h p (List.mem_cons_of_mem _ (List.mem_append_right _ (piecesOf_subset_pieces body hp)))
    rw [Frame.statement, Frame.construct]
    cases hm : frame.call id c with
    | error reason => exact .nil
    | ok m =>
      obtain ⟨signature, receiver, hsignature, -, rfl⟩ := Frame.call_ok hm
      simp only [Frame.block_eq]
      exact .message (length_callSignature_le hc signature hsignature) (hinner _ _)
  creation c body span text hbody h frame id := by
    have hc : ∀ p ∈ c.pieces, p.AtMost n := fun p hp =>
      h p (List.mem_cons_of_mem _ (List.mem_append_left _ hp))
    have hinner := hbody fun p hp =>
      h p (List.mem_cons_of_mem _ (List.mem_append_right _ (piecesOf_subset_pieces body hp)))
    rw [Frame.statement, Frame.construct]
    cases hm : frame.creation id c with
    | error reason => exact .nil
    | ok m =>
      simp only [Frame.block_eq]
      exact .message (length_signature_creation_le hc hm) (hinner _ _)
  asyncMessage a span text h frame id := by
    have hcontent : ((displayOf a.content).getD "").length ≤ 2 * n := by
      refine length_displayOf_le fun p hp => h p (List.mem_cons_of_mem _ ?_)
      simp [Construct.pieces, AsyncMessage.pieces, hp]
    rw [Frame.statement, Frame.construct]
    cases hm : frame.asyncMessage id a with
    | error reason => exact .nil
    | ok m =>
      obtain ⟨receiver, -, rfl⟩ := Frame.asyncMessage_ok hm
      refine .message ?_ .nil
      show ((displayOf a.content).getD "").length ≤ _
      omega
  ret r span text h frame id := by
    refine .message ?_ .nil
    exact length_signature_ret_le fun p hp => h p (List.mem_cons_of_mem _ hp)
  divider d span text h frame id := .nil
  reference r span text h frame id := by
    refine .fragment (fun s hs c hc => ?_) .nil
    -- the condition of the section is the first name
    cases List.mem_singleton.mp hs
    obtain ⟨t, ht, rfl⟩ := Option.map_eq_some_iff.mp hc
    have hword : t.text.length ≤ n := by
      refine h (.word t) (List.mem_cons_of_mem _ (List.mem_cons_of_mem _ ?_))
      exact List.mem_map_of_mem (List.mem_of_head? ht)
    omega
  block kind bs inner span text hbs h frame id := by
    obtain ⟨hconditions, hinner⟩ := hbs (fun p hp => h p
      (List.mem_cons_of_mem _ (List.mem_cons_of_mem _ hp))) (frame.inside id) (id + 1) kind
    exact .fragment hconditions hinner
  nil h frame next := .nil
  cons s rest hs hrest h frame next :=
    (hs (fun p hp => h p (List.mem_append_left _ hp)) frame _).append
      (hrest (fun p hp => h p (List.mem_append_right _ hp)) frame _)
  noBranch h frame next kind := ⟨List.forall_mem_nil _, .nil⟩
  branch role guard body rest hbody hrest h frame next kind := by
    have hguard : ∀ p ∈ guard.toList.flatMap (·.pieces), p.AtMost n := fun p hp =>
      h p (List.mem_append_left _ (List.mem_append_left _ hp))
    have hinner := hbody fun p hp => h p
      (List.mem_append_left _ (List.mem_append_right _ (piecesOf_subset_pieces body hp)))
    have hothers := hrest fun p hp => h p (List.mem_append_right _ hp)
    rw [Frame.branches, Frame.branch]
    simp only [Frame.block_eq]
    refine ⟨?_, (hinner _ _).append (hothers _ _ _).2⟩
    exact List.forall_mem_cons.mpr ⟨length_condition_le hguard, (hothers _ _ _).1⟩

/-! ### Names and labels -/

/-- The name that is mentioned and the label that it is given have at most `n` characters. -/
structure MentionAtMost (n : Nat) (x : String × Mention) : Prop where
  name : x.1.length ≤ n
  label : ∀ label ∈ x.2.label, label.length ≤ n

section Mentions

variable {n : Nat}

/-- Most mentions give no label. -/
theorem MentionAtMost.unlabelled {x : String × Mention} (hname : x.1.length ≤ n)
    (hlabel : x.2.label = none) : MentionAtMost n x := by
  refine ⟨hname, ?_⟩
  simp [hlabel]

theorem MentionAtMost.mono {k : Nat} {x : String × Mention} (h : MentionAtMost n x) (hk : n ≤ k) :
    MentionAtMost k x :=
  ⟨Nat.le_trans h.name hk, fun label hlabel => Nat.le_trans (h.label label hlabel) hk⟩

theorem mentionAtMost_used {token : Option Token} (h : ∀ p ∈ words token, p.AtMost n) :
    ∀ x ∈ Token.used token, MentionAtMost (2 * n + 1) x := by
  intro x hx
  obtain ⟨t, ht, rfl⟩ := List.mem_map.mp hx
  have htoken := (Option.filter_eq_some_iff.mp (Option.mem_toList.mp ht)).1
  have hlength := length_of_words h t htoken
  apply MentionAtMost.unlabelled
  · show t.text.length ≤ _
    omega
  · rfl

theorem mentionAtMost_declaration {groupId : Option String} {d : Declaration}
    (h : ∀ p ∈ d.pieces, p.AtMost n) : ∀ x ∈ d.mentions groupId, MentionAtMost (2 * n + 1) x := by
  intro x hx
  obtain ⟨t, ht, rfl⟩ := List.mem_map.mp hx
  have hname : t.text.length ≤ n := by
    refine length_of_words (fun p hp => h p ?_) t (Option.mem_toList.mp ht)
    simp [Declaration.pieces, hp]
  constructor
  · show t.text.length ≤ _
    omega
  · intro label hlabel
    obtain ⟨l, hl, rfl⟩ := Option.map_eq_some_iff.mp hlabel
    have hlength : l.text.length ≤ n := by
      refine length_of_words (fun p hp => h p ?_) l hl
      simp [Declaration.pieces, hp]
    have hdisplay := length_displayText_le l.text
    omega

theorem mentionAtMost_headItem {item : HeadItem} (h : ∀ p ∈ item.pieces, p.AtMost n) :
    ∀ x ∈ item.mentions, MentionAtMost (2 * n + 1) x := by
  cases item with
  | participant d => exact mentionAtMost_declaration h
  | group g =>
    intro x hx
    obtain ⟨d, hd, hx⟩ := List.mem_flatMap.mp hx
    refine mentionAtMost_declaration (fun p hp => h p ?_) x hx
    exact List.mem_cons_of_mem _ (List.mem_append_right _ (List.mem_flatMap.mpr ⟨d, hd, hp⟩))

theorem mentionAtMost_head {useStarter : Bool} {head : Syntax.Head}
    (h : ∀ p ∈ head.pieces, p.AtMost n) :
    ∀ x ∈ head.mentions useStarter, MentionAtMost (2 * n + 1) x := by
  intro x hx
  rcases List.mem_append.mp hx with hx | hx
  · obtain ⟨item, hitem, hx⟩ := List.mem_flatMap.mp hx
    refine mentionAtMost_headItem (fun p hp => h p ?_) x hx
    exact List.mem_append_left _ (List.mem_flatMap.mpr ⟨item, hitem, hp⟩)
  · -- the name of the declared starter
    obtain ⟨t, ht, rfl⟩ := List.mem_map.mp hx
    obtain ⟨starter, hstarter, hname⟩ := Option.bind_eq_some_iff.mp
      (Option.filter_eq_some_iff.mp (Option.mem_toList.mp ht)).1
    have hlength : t.text.length ≤ n := by
      refine h (.word t) ?_
      simp [Syntax.Head.pieces, hstarter, Starter.pieces, mem_words hname]
    apply MentionAtMost.unlabelled
    · show t.text.length ≤ _
      omega
    · rfl

theorem mentionAtMost_asyncMessage {m : AsyncMessage} (h : ∀ p ∈ m.pieces, p.AtMost n) :
    ∀ x ∈ m.mentions, MentionAtMost (2 * n + 1) x := by
  refine List.forall_mem_append.mpr ⟨mentionAtMost_used fun p hp => h p ?_,
    mentionAtMost_used fun p hp => h p ?_⟩
  · simp [AsyncMessage.pieces, hp]
  · simp [AsyncMessage.pieces, hp]

theorem mentionAtMost_call {c : Call} (h : ∀ p ∈ c.pieces, p.AtMost n) :
    ∀ x ∈ c.mentions, MentionAtMost (2 * n + 1) x := by
  refine List.forall_mem_append.mpr ⟨mentionAtMost_used fun p hp => h p ?_,
    mentionAtMost_used fun p hp => h p ?_⟩
  · simp [Call.pieces, hp]
  · simp [Call.pieces, hp]

/-- The name of a created participant is put together from two words. -/
theorem mentionAtMost_creation {c : Creation} (h : ∀ p ∈ c.pieces, p.AtMost n) :
    ∀ x ∈ c.mentions, MentionAtMost (2 * n + 1) x := by
  intro x hx
  obtain ⟨k, hk, rfl⟩ := List.mem_map.mp hx
  have hconstructor : k.text.length ≤ n := by
    refine length_of_words (fun p hp => h p ?_) k (Option.mem_toList.mp hk)
    simp [Creation.pieces, hp]
  refine .unlabelled ?_ rfl
  show (creationName c.assignment k.text).length ≤ _
  unfold creationName
  split
  · next assignee hassignee =>
    have hlength : assignee.length ≤ n := by
      obtain ⟨t, ht, rfl, -⟩ := Token.text?_eq_some.mp hassignee
      obtain ⟨a, ha, hassigned⟩ := Option.bind_eq_some_iff.mp ht
      refine h (.word t) ?_
      simp [Creation.pieces, assignmentPieces, ha, Assignment.pieces, mem_words hassigned]
    have hcolon : ":".length = 1 := by decide
    simp only [String.length_append]
    omega
  · omega

theorem mentionAtMost_reference {r : Reference} (h : ∀ p ∈ r.pieces, p.AtMost n) :
    ∀ x ∈ r.mentions, MentionAtMost (2 * n + 1) x := by
  intro x hx
  obtain ⟨t, ht, hx⟩ := List.mem_flatMap.mp hx
  refine mentionAtMost_used (fun p hp => h p ?_) x hx
  cases List.mem_singleton.mp hp
  exact List.mem_cons_of_mem _ (List.mem_map_of_mem (List.mem_of_mem_tail ht))

/-- **No name is longer than two words and a colon**, at every depth. -/
theorem mentionAtMostSteps (n : Nat) : Syntax.Steps
    (fun s => (∀ p ∈ s.pieces, p.AtMost n) → ∀ x ∈ s.mentions, MentionAtMost (2 * n + 1) x)
    (fun ss => (∀ p ∈ piecesOf ss, p.AtMost n) → ∀ x ∈ mentionsOf ss, MentionAtMost (2 * n + 1) x)
    (fun bs => (∀ p ∈ piecesIn bs, p.AtMost n) →
      ∀ x ∈ mentionsIn bs, MentionAtMost (2 * n + 1) x) where
  unrecognized span text h x hx := nomatch hx
  call c body span text hbody h := by
    rw [Statement.mentions, Construct.mentions, Block.mentions_eq]
    refine List.forall_mem_append.mpr ⟨mentionAtMost_call fun p hp => h p ?_,
      hbody fun p hp => h p ?_⟩
    · exact List.mem_cons_of_mem _ (List.mem_append_left _ hp)
    · exact List.mem_cons_of_mem _ (List.mem_append_right _ (piecesOf_subset_pieces body hp))
  creation c body span text hbody h := by
    rw [Statement.mentions, Construct.mentions, Block.mentions_eq]
    refine List.forall_mem_append.mpr ⟨mentionAtMost_creation fun p hp => h p ?_,
      hbody fun p hp => h p ?_⟩
    · exact List.mem_cons_of_mem _ (List.mem_append_left _ hp)
    · exact List.mem_cons_of_mem _ (List.mem_append_right _ (piecesOf_subset_pieces body hp))
  asyncMessage m span text h :=
    mentionAtMost_asyncMessage fun p hp => h p (List.mem_cons_of_mem _ hp)
  ret r span text h x hx := by
    obtain ⟨m, hm, hx⟩ := List.mem_flatMap.mp hx
    refine mentionAtMost_asyncMessage (fun p hp => h p ?_) x hx
    have hpieces := List.mem_flatMap.mpr ⟨m, hm, hp⟩
    exact List.mem_cons_of_mem _ (List.mem_cons_of_mem _ (List.mem_append_right _ hpieces))
  divider d span text h x hx := nomatch hx
  reference r span text h := mentionAtMost_reference fun p hp => h p (List.mem_cons_of_mem _ hp)
  block kind bs inner span text hbs h :=
    hbs fun p hp => h p (List.mem_cons_of_mem _ (List.mem_cons_of_mem _ hp))
  nil h x hx := nomatch hx
  cons s rest hs hrest h := List.forall_mem_append.mpr
    ⟨hs fun p hp => h p (List.mem_append_left _ hp),
      hrest fun p hp => h p (List.mem_append_right _ hp)⟩
  noBranch h x hx := nomatch hx
  branch role guard body rest hbody hrest h := by
    rw [mentionsIn, Block.mentions_eq]
    refine List.forall_mem_append.mpr ⟨hbody fun p hp => h p ?_,
      hrest fun p hp => h p (List.mem_append_right _ hp)⟩
    exact List.mem_append_left _ (List.mem_append_right _ (piecesOf_subset_pieces body hp))

end Mentions

/-- The names and the labels of a program are at most as long as two of its pieces and a colon, or
    as the starter from outside. -/
theorem mentions_parse_atMost (source : String) (starter : Option String) :
    ∀ x ∈ (parse source).mentions starter,
      MentionAtMost (2 * source.length + 1 + (starter.getD "").length) x := by
  have hpieces := pieces_parse_atMost source
  intro x hx
  rcases List.mem_append.mp hx with hx | hx
  · rcases List.mem_append.mp hx with hx | hx
    · obtain ⟨head, hhead, hx⟩ := List.mem_flatMap.mp hx
      refine (mentionAtMost_head (fun p hp => hpieces p ?_) x hx).mono (Nat.le_add_right _ _)
      exact List.mem_append_left _ (List.mem_flatMap.mpr ⟨head, hhead, hp⟩)
    · -- the starter from outside has no label
      obtain ⟨name, hname, rfl⟩ := List.mem_map.mp hx
      have hstarter := (Option.filter_eq_some_iff.mp (Option.mem_toList.mp hname)).1
      refine .unlabelled ?_ rfl
      rw [hstarter]
      exact Nat.le_add_left _ _
  · have hmention := (mentionAtMostSteps source.length).statements _
      (fun p hp => hpieces p (List.mem_append_right _ (piecesOf_subset_pieces _ hp))) x hx
    exact hmention.mono (Nat.le_add_right _ _)

/-! ### Records -/

/-- **The text in the box of a participant is not much longer than the source**, or than the starter
    from outside. -/
theorem length_displayName_le (source : String) (starter : Option String) :
    ∀ p ∈ (collect (parse source) starter).ledger.entries,
      p.displayName.length ≤ 2 * source.length + 1 + (starter.getD "").length := by
  intro p hp
  rw [ledger_collect] at hp
  have hmentions := mentions_parse_atMost source starter
  unfold Participant.displayName
  cases hlabel : p.label with
  | none =>
    obtain ⟨m, hm⟩ := Ledger.exists_mention hp
    exact (hmentions _ hm).name
  | some label =>
    -- the label comes from a declaration of the name
    rw [(Ledger.madeOf_of_mem hp).label] at hlabel
    obtain ⟨m, hm, hlabel⟩ := List.mem_filterMap.mp (mem_of_lastText hlabel)
    exact (hmentions _ (mem_said.mp hm)).label label hlabel

end SequenceDiagram
