import SequenceDiagram.Proofs.Source.Lexing
import SequenceDiagram.Proofs.Syntax.Progress

namespace SequenceDiagram

open Syntax

/-!
# What a syntax tree keeps of its source

A tree keeps words, texts and places of its source, and all of them are read off the lexemes.

* `Piece` is one of these, and `Program.pieces` lists the pieces of a tree, at every depth.
* `Piece.From stop s`: the piece is that of a lexeme of `s`, or of some lexemes of `s` in a row.
  Only a piece of no lexemes depends on where the input stops.
* `ReadOff stop s ps`: that holds of all the pieces. It composes along the readers, with one lemma
  for each of them.
* `readOff_head` and `readOff_expression` are those for heads and for expressions.
-/

/-! ### Pieces -/

namespace Syntax

/-- What is kept of the source. -/
inductive Piece where
  /-- One lexeme, without its quotes. -/
  | word (token : Token)
  /-- The text of some lexemes in a row. -/
  | text (token : Token)
  /-- The place of some lexemes in a row. -/
  | place (span : Span)

/-- Where the piece stands. -/
def Piece.span : Piece → Span
  | word t => t.span
  | text t => t.span
  | place s => s

/-- The word, if it was written. -/
def words (t : Option Token) : List Piece := t.toList.map .word

/-- The text, if it was written. -/
def texts (t : Option Token) : List Piece := t.toList.map .text

mutual

/-- The pieces of an expression. -/
def Expression.pieces : Expression → List Piece
  | .atom t => [.word t]
  | .invocation target method arguments =>
    words target ++ words method ++ expressionPieces arguments
  | .raw t => [.text t]

/-- The pieces of some expressions. -/
def expressionPieces : List Expression → List Piece
  | [] => []
  | e :: rest => e.pieces ++ expressionPieces rest

end

/-- The pieces of a condition. -/
def Condition.pieces (c : Condition) : List Piece :=
  .text c.text :: expressionPieces c.expression.toList

/-- The pieces of an argument list. -/
def Arguments.pieces (a : Arguments) : List Piece :=
  .text ⟨a.text, a.span⟩ :: expressionPieces a.expressions

/-- The pieces of a declaration. -/
def Declaration.pieces (d : Declaration) : List Piece :=
  .place d.span :: (words d.type ++ texts d.stereotype ++ words d.name ++ words d.label ++
    words d.color ++ words d.width)

/-- The pieces of a group. -/
def Group.pieces (g : Group) : List Piece :=
  .place g.span :: (words g.name ++ g.members.flatMap (·.pieces))

/-- The pieces of an entry of the head. -/
def HeadItem.pieces : HeadItem → List Piece
  | .participant d => d.pieces
  | .group g => g.pieces

/-- The pieces of a starter. -/
def Starter.pieces (s : Starter) : List Piece := .place s.span :: words s.name

/-- The pieces of a head. -/
def Head.pieces (h : Head) : List Piece :=
  h.items.flatMap (·.pieces) ++ h.starter.toList.flatMap (·.pieces)

/-- The pieces of an assignment. -/
def Assignment.pieces (a : Assignment) : List Piece := words a.type ++ words a.assignee

/-- The pieces of an assignment, if there is one. -/
def assignmentPieces (a : Option Assignment) : List Piece := a.toList.flatMap (·.pieces)

/-- The pieces of an argument list, if there is one. -/
def argumentPieces (a : Option Arguments) : List Piece := a.toList.flatMap (·.pieces)

/-- The pieces of a call, without those in its body. -/
def Call.pieces (c : Call) : List Piece :=
  .place c.span :: (assignmentPieces c.assignment ++ words c.sender ++ words c.receiver ++
    words c.method ++ argumentPieces c.arguments)

/-- The pieces of an asynchronous message. -/
def AsyncMessage.pieces (m : AsyncMessage) : List Piece :=
  .place m.span :: (words m.sender ++ words m.receiver ++ texts m.content)

/-- The pieces of a creation, without those in its body. -/
def Creation.pieces (c : Creation) : List Piece :=
  .place c.span :: (assignmentPieces c.assignment ++ words c.constructor ++
    argumentPieces c.arguments)

/-- The pieces of a return. -/
def Return.pieces (r : Return) : List Piece :=
  .place r.span :: (texts r.expression ++ r.message.toList.flatMap (·.pieces))

/-- The pieces of a divider. -/
def Divider.pieces (d : Divider) : List Piece := .place d.span :: texts d.note

/-- The pieces of a reference. -/
def Reference.pieces (r : Reference) : List Piece := .place r.span :: r.names.map .word

mutual

/-- The pieces of a statement. -/
def Statement.pieces : Statement → List Piece
  | .unrecognized span text => [.text ⟨text, span⟩]
  | .recognized c span text => .text ⟨text, span⟩ :: c.pieces

/-- The pieces of a construct. -/
def Construct.pieces : Construct → List Piece
  | .call c body => c.pieces ++ body.pieces
  | .asyncMessage m => m.pieces
  | .creation c body => c.pieces ++ body.pieces
  | .ret r => r.pieces
  | .divider d => d.pieces
  | .reference r => r.pieces
  | .block _ bs span => .place span :: piecesIn bs

/-- The pieces of a block. -/
def Block.pieces : Block → List Piece
  | .missing => []
  | .present ss span => .place span :: piecesOf ss

/-- The pieces of some statements. -/
def piecesOf : List Statement → List Piece
  | [] => []
  | s :: rest => s.pieces ++ piecesOf rest

/-- The pieces of some branches. -/
def piecesIn : List Branch → List Piece
  | [] => []
  | .mk _ guard body :: rest =>
    guard.toList.flatMap (·.pieces) ++ body.pieces ++ piecesIn rest

end

/-- The pieces of a program, besides its own place. -/
def Program.pieces (p : Program) : List Piece :=
  p.head.toList.flatMap (·.pieces) ++ p.block.pieces

end Syntax

/-! ### Where pieces come from -/

/-- The piece was read off lexemes: off one of them, or off some in a row. -/
inductive Syntax.Piece.From (stop : Span) (s : List Lexeme) : Piece → Prop where
  | word {l : Lexeme} (h : l ∈ s) : From stop s (.word l.token)
  | text {taken rest : List Lexeme} (h : taken ++ rest <:+ s) :
    From stop s (.text (Scan.tokenOf stop taken rest))
  | place {taken rest : List Lexeme} (h : taken ++ rest <:+ s) :
    From stop s (.place (Scan.spanOf stop taken rest))

theorem Syntax.Piece.From.of_suffix {stop : Span} {r s : List Lexeme} {p : Piece}
    (h : p.From stop r) (hr : r <:+ s) : p.From stop s := by
  cases h with
  | word h => exact .word (hr.subset h)
  | text h => exact .text (h.trans hr)
  | place h => exact .place (h.trans hr)

/-- All the pieces were read off the lexemes. -/
def ReadOff (stop : Span) (s : List Lexeme) (ps : List Piece) : Prop := ∀ p ∈ ps, p.From stop s

namespace ReadOff

variable {stop : Span} {r s : List Lexeme} {p : Piece} {ps qs : List Piece}

theorem nil : ReadOff stop s [] := fun _ hp => nomatch hp

theorem cons (hp : p.From stop s) (h : ReadOff stop s ps) : ReadOff stop s (p :: ps) :=
  List.forall_mem_cons.mpr ⟨hp, h⟩

theorem append (h : ReadOff stop s ps) (h' : ReadOff stop s qs) : ReadOff stop s (ps ++ qs) :=
  List.forall_mem_append.mpr ⟨h, h'⟩

theorem of_suffix (h : ReadOff stop r ps) (hr : r <:+ s) : ReadOff stop s ps :=
  fun p hp => (h p hp).of_suffix hr

theorem flatMap {α : Type} {f : α → List Piece} {xs : List α}
    (h : ∀ x ∈ xs, ReadOff stop s (f x)) : ReadOff stop s (xs.flatMap f) := by
  intro p hp
  obtain ⟨x, hx, hp⟩ := List.mem_flatMap.mp hp
  exact h x hx p hp

theorem single {α : Type} {f : α → List Piece} {x : α} (h : ReadOff stop s (f x)) :
    ReadOff stop s ((some x).toList.flatMap f) := by
  refine flatMap fun y hy => ?_
  cases List.mem_singleton.mp hy
  exact h

/-- A place is that of what was taken up to an end of the lexemes. -/
theorem spanUpTo (hr : r <:+ s) (h : ReadOff stop s ps) :
    ReadOff stop s (.place (Scan.spanUpTo stop s r) :: ps) :=
  cons (.place ⟨[], Scan.upTo_append_of_suffix hr⟩) h

theorem text {taken rest : List Lexeme} (h : taken ++ rest <:+ s) :
    ReadOff stop s (texts (some (Scan.tokenOf stop taken rest))) := cons (.text h) nil

theorem unlessEmpty {taken rest : List Lexeme} (h : taken ++ rest <:+ s) :
    ReadOff stop s (texts (Scan.tokenUnlessEmpty stop taken rest)) := by
  unfold Scan.tokenUnlessEmpty
  split
  · exact nil
  · exact text h

theorem word {l : Lexeme} (h : l ∈ s) : ReadOff stop s (words (some l.token)) := cons (.word h) nil

end ReadOff

/-! ### Single lexemes -/

section Lexemes

variable (stop : Span) (s : List Lexeme)

theorem readOff_name : ReadOff stop s (words (Scan.name s).1) := by
  cases s with
  | nil => exact .nil
  | cons l rest =>
    rw [Scan.name]
    split
    · exact .word List.mem_cons_self
    · exact .nil

theorem readOff_tokenOfKind (kind : LexemeKind) :
    ReadOff stop s (words (Scan.tokenOfKind kind s).1) := by
  cases s with
  | nil => exact .nil
  | cons l rest =>
    rw [Scan.tokenOfKind]
    split
    · exact .word List.mem_cons_self
    · exact .nil

end Lexemes

/-! ### The head -/

section Heads

variable (stop : Span) (s : List Lexeme)

theorem readOff_starter : ReadOff stop s (Head.starter stop s).1.pieces :=
  .spanUpTo (Head.starter_suffix stop s) ((readOff_name stop _).of_suffix (List.drop_suffix 3 s))

theorem readOff_participantType : ReadOff stop s (words (Head.participantType s).1) := by
  unfold Head.participantType
  split
  · exact (readOff_name stop _).of_suffix (List.tail_suffix s)
  · exact .nil

theorem readOff_stereotype : ReadOff stop s (texts (Head.stereotype stop s).1) := by
  unfold Head.stereotype
  split
  · refine .text ?_
    rw [List.takeWhile_append_dropWhile]
    exact List.tail_suffix s
  · exact .nil

theorem readOff_label : ReadOff stop s (words (Head.label s).1) := by
  unfold Head.label
  split
  · exact (readOff_name stop _).of_suffix (List.tail_suffix s)
  · exact .nil

theorem readOff_declaration : ReadOff stop s (Head.declaration stop s).1.pieces := by
  -- each part is read where the one before it stopped
  have htype := Head.participantType_suffix s
  have hstereotype := (Head.stereotype_suffix stop _).trans htype
  have hname := (Scan.name_suffix _).trans hstereotype
  have hlabel := (Head.label_suffix _).trans hname
  have hcolor := (Scan.tokenOfKind_suffix .color _).trans hlabel
  refine .spanUpTo (Head.declaration_suffix stop s) ?_
  have hnamed := ((readOff_participantType stop s).append
    ((readOff_stereotype stop _).of_suffix htype)).append
    ((readOff_name stop _).of_suffix hstereotype)
  have hlabeled := hnamed.append ((readOff_label stop _).of_suffix hname)
  have hcolored := hlabeled.append ((readOff_tokenOfKind stop _ .color).of_suffix hlabel)
  exact hcolored.append ((readOff_tokenOfKind stop _ .number).of_suffix hcolor)

theorem readOff_members (fuel : Nat) :
    ReadOff stop s ((Head.members stop fuel s).1.flatMap (·.pieces)) := by
  induction fuel generalizing s with
  | zero => exact .nil
  | succ fuel ih =>
    have hskip := Scan.skipSeparators_suffix s
    unfold Head.members
    dsimp only
    split
    · exact .nil
    · split
      -- a member is read, or one lexeme is passed over
      · have hothers := (ih _).of_suffix (Head.declaration_suffix stop (Scan.skipSeparators s))
        refine ReadOff.of_suffix ?_ hskip
        rw [List.flatMap_cons]
        exact (readOff_declaration stop _).append hothers
      · exact (ih _).of_suffix ((List.tail_suffix _).trans hskip)

theorem readOff_group : ReadOff stop s (Head.group stop s).1.pieces := by
  have htail := List.tail_suffix s
  have hbrace := ((Scan.skip_suffix .openBrace _).trans
    (Scan.tokenOfKind_suffix .name s.tail)).trans htail
  refine .spanUpTo (Head.group_suffix stop s) ?_
  have hmembers := (readOff_members stop _ ((Scan.skip .openBrace
    (Scan.tokenOfKind .name s.tail).2).length + 1)).of_suffix hbrace
  exact ((readOff_tokenOfKind stop _ .name).of_suffix htail).append hmembers

/-- The entries that are read go behind those read before. -/
theorem readOff_entries {whole : List Lexeme} (fuel : Nat) (h : Syntax.Head)
    (hwhole : s <:+ whole) (hh : ReadOff stop whole h.pieces) :
    ReadOff stop whole (Head.entries stop fuel h s).1.pieces := by
  -- on the bound, for all entries read before
  induction fuel generalizing s h with
  | zero => exact hh
  | succ fuel ih =>
    have hskip := (Scan.skipSeparators_suffix s).trans hwhole
    have hitem : ∀ item : HeadItem, ReadOff stop (Scan.skipSeparators s) item.pieces →
        ReadOff stop whole ({ h with items := h.items ++ [item] } : Syntax.Head).pieces := by
      intro item hitem p hp
      simp only [Syntax.Head.pieces, List.flatMap_append, List.flatMap_cons, List.flatMap_nil,
        List.append_nil, List.mem_append] at hp
      rcases hp with (hp | hp) | hp
      · exact hh p (List.mem_append_left _ hp)
      · exact hitem.of_suffix hskip p hp
      · exact hh p (List.mem_append_right _ hp)
    unfold Head.entries
    dsimp only
    split
    · refine ih _ _ ((Head.starter_suffix stop _).trans hskip) ?_
      have hstarter := (readOff_starter stop (Scan.skipSeparators s)).of_suffix hskip
      exact .append (fun p hp => hh p (List.mem_append_left _ hp)) (.single hstarter)
    · split
      · exact ih _ _ ((Head.group_suffix stop _).trans hskip)
          (hitem (.group _) (readOff_group stop _))
      · split
        · exact ih _ _ ((Head.declaration_suffix stop _).trans hskip)
            (hitem (.participant _) (readOff_declaration stop _))
        · exact hh

theorem readOff_head :
    ReadOff stop s ((Head.ofLexemes stop s).1.toList.flatMap (·.pieces)) := by
  have hentries := readOff_entries stop s (s.length + 1) ⟨[], none⟩ (List.suffix_refl s) .nil
  unfold Head.ofLexemes
  dsimp only
  split
  · exact .nil
  · exact .single hentries

end Heads

/-! ### Expressions -/

namespace Expression

/-- The parts between commas stand in the text one behind the other, the first one at its front. -/
theorem isInfix_of_mem_splitCommas (depth : Nat) (s : List Lexeme) :
    (∀ part ∈ (splitCommas depth s).head?, part <+: s) ∧
      ∀ part ∈ splitCommas depth s, part <:+: s := by
  have hpush : ∀ (l : Lexeme) (rest : List Lexeme) (parts : List (List Lexeme)),
      (∀ part ∈ parts.head?, part <+: rest) ∧ (∀ part ∈ parts, part <:+: rest) →
      (∀ part ∈ (pushPart l parts).head?, part <+: l :: rest) ∧
        ∀ part ∈ pushPart l parts, part <:+: l :: rest := by
    intro l rest parts hparts
    cases parts with
    | nil =>
      have hsingle : [l] <+: l :: rest := ⟨rest, rfl⟩
      simp [pushPart, hsingle, hsingle.isInfix]
    | cons first others =>
      have hfirst : l :: first <+: l :: rest :=
        (List.prefix_cons_inj l).mpr (hparts.1 first rfl)
      refine ⟨fun part hpart => ?_, List.forall_mem_cons.mpr ⟨hfirst.isInfix, ?_⟩⟩
      · cases hpart
        exact hfirst
      · intro part hpart
        exact (hparts.2 part (List.mem_cons_of_mem _ hpart)).trans (List.suffix_cons l rest).isInfix
  induction s generalizing depth with
  | nil => simp [splitCommas]
  | cons l rest ih =>
    unfold splitCommas
    split
    · -- a comma ends an empty part, and is no part itself
      refine ⟨fun part hpart => ?_, List.forall_mem_cons.mpr ⟨List.nil_infix, ?_⟩⟩
      · cases hpart
        exact List.nil_prefix
      · intro part hpart
        exact ((ih 0).2 part hpart).trans (List.suffix_cons l rest).isInfix
    · exact hpush l rest _ (ih _)
    · exact hpush l rest _ (ih _)
    · exact hpush l rest _ (ih _)

/-- What stands before the closing parenthesis is the front of the text. -/
theorem isPrefix_of_splitAtClosing? {depth : Nat} {s inner after : List Lexeme}
    (h : splitAtClosing? depth s = some (inner, after)) : inner <+: s := by
  induction s generalizing depth inner after with
  | nil => cases h
  | cons l rest ih =>
    have hpush : ∀ depth, (splitAtClosing? depth rest).map (Scan.push l) = some (inner, after) →
        inner <+: l :: rest := by
      intro depth h
      obtain ⟨⟨i, a⟩, hi, heq⟩ := Option.map_eq_some_iff.mp h
      cases heq
      exact (List.prefix_cons_inj l).mpr (ih hi)
    unfold splitAtClosing? at h
    split at h
    · cases h
      exact List.nil_prefix
    · exact hpush _ h
    · exact hpush _ h
    · exact hpush _ h

theorem isInfix_of_argumentList? {s inner : List Lexeme} (h : argumentList? s = some inner) :
    inner <:+: s := by
  have hskip : Scan.skipNewlines s <:+ s := List.dropWhile_suffix _
  unfold argumentList? at h
  split at h
  · next l rest heq =>
    rw [heq] at hskip
    split at h
    · obtain ⟨⟨i, a⟩, hi, hp⟩ := Option.bind_eq_some_iff.mp h
      split at hp
      · cases hp
        exact (isPrefix_of_splitAtClosing? hi).isInfix.trans
          ((List.suffix_cons l rest).trans hskip).isInfix
      · cases hp
    · cases h
  · cases h

/-- The target and the method of an invocation are words of its text. -/
theorem invocation?_eq_some {s inner : List Lexeme} {target : Option Token} {method : Token}
    (h : invocation? s = some (target, method, inner)) :
    (∀ t ∈ target, ∃ l ∈ s, l.token = t) ∧ (∃ l ∈ s, l.token = method) ∧ inner <:+: s := by
  have hskip : ∀ r, Scan.skipNewlines r <:+ r := fun r => List.dropWhile_suffix _
  have hfirst := hskip s
  unfold invocation? at h
  split at h
  · cases h
  · next first rest heq =>
    rw [heq] at hfirst
    have hrest := (List.suffix_cons first rest).trans hfirst
    have hsecond := (hskip rest).trans hrest
    split at h
    · cases h
    · split at h
      · cases h
      · next second behind heq2 =>
        rw [heq2] at hsecond
        have hbehind := (List.suffix_cons second behind).trans hsecond
        have hthird := (hskip behind).trans hbehind
        split at h
        · split at h
          · cases h
          · next third last heq3 =>
            rw [heq3] at hthird
            split at h
            · cases h
            · -- a target, a dot and a method
              obtain ⟨i, hi, hp⟩ := Option.map_eq_some_iff.mp h
              cases hp
              refine ⟨fun t ht => ?_, ⟨third, hthird.subset List.mem_cons_self, rfl⟩,
                (isInfix_of_argumentList? hi).trans
                  ((List.suffix_cons third last).trans hthird).isInfix⟩
              cases ht
              exact ⟨first, hfirst.subset List.mem_cons_self, rfl⟩
        · obtain ⟨i, hi, hp⟩ := Option.map_eq_some_iff.mp h
          cases hp
          exact ⟨fun t ht => (nomatch ht), ⟨first, hfirst.subset List.mem_cons_self, rfl⟩,
            (isInfix_of_argumentList? hi).trans hsecond.isInfix⟩

end Expression

theorem readOff_expressions {stop : Span} {s : List Lexeme} {es : List Syntax.Expression}
    (h : ∀ e ∈ es, ReadOff stop s e.pieces) : ReadOff stop s (expressionPieces es) := by
  induction es with
  | nil => exact .nil
  | cons e rest ih =>
    obtain ⟨hfirst, hothers⟩ := List.forall_mem_cons.mp h
    exact hfirst.append (ih hothers)

/-- A text that is kept as it is stands where it was read. -/
theorem readOff_raw {stop : Span} {part rest s : List Lexeme} (hne : part ≠ [])
    (hpart : part ++ rest <:+ s) : ReadOff stop s [.text (Scan.tokenOf .nowhere part [])] := by
  have htoken : Scan.tokenOf .nowhere part [] = Scan.tokenOf stop part rest := by
    rw [Scan.tokenOf, Scan.spanOf_congr hne .nowhere stop [] rest]
    rfl
  rw [htoken]
  exact .text hpart

/-- The pieces of an expression are read off its text, wherever that stands. -/
theorem readOff_expression {stop : Span} {part rest s : List Lexeme} {e : Syntax.Expression}
    (h : Expression.ofLexemes? part = some e) (hpart : part ++ rest <:+ s) :
    ReadOff stop s e.pieces := by
  -- on the length: the arguments of an invocation are shorter than its text
  induction hn : part.length using Nat.strongRecOn generalizing part rest e with
  | ind n ih =>
    subst hn
    have hmem : ∀ l ∈ part, l ∈ s := fun l hl => hpart.subset (List.mem_append_left _ hl)
    unfold Expression.ofLexemes? at h
    split at h
    · cases h
    · next hsignificant =>
      have hne : part ≠ [] := by
        rintro rfl
        exact hsignificant rfl
      split at h
      · next l hlength hhead =>
        have hl : l ∈ part :=
          (List.mem_filter.mp (List.mem_of_mem_head? hhead)).1
        split at h
        · cases h
          exact .word (hmem l hl)
        · cases h
          exact readOff_raw hne hpart
      · split at h
        · next target method inner hfound =>
          cases h
          obtain ⟨htarget, ⟨l, hl, rfl⟩, hinner⟩ := Expression.invocation?_eq_some hfound
          have hshort := Expression.length_lt_of_invocation? hfound
          have hwords : ReadOff stop s (words target) := by
            cases target with
            | none => exact .nil
            | some t =>
              obtain ⟨l, hl, rfl⟩ := htarget t rfl
              exact .word (hmem l hl)
          refine (hwords.append (.word (hmem l hl))).append (readOff_expressions ?_)
          intro e he
          obtain ⟨⟨p, hp⟩, -, he⟩ := List.mem_filterMap.mp he
          obtain ⟨front, back, hfront⟩ :=
            ((Expression.isInfix_of_mem_splitCommas 0 inner).2 p hp).trans hinner
          have hlt := Nat.lt_of_le_of_lt (Expression.length_le_of_mem_splitCommas hp) hshort
          have hbehind : p ++ (back ++ rest) <:+ s := by
            refine List.IsSuffix.trans ⟨front, ?_⟩ hpart
            rw [← hfront]
            simp only [List.append_assoc]
          exact ih _ hlt he hbehind rfl
        · cases h
          exact readOff_raw hne hpart

end SequenceDiagram
