import SequenceDiagram.Proofs.Document.Rejection
import SequenceDiagram.Proofs.Syntax.Groups

namespace SequenceDiagram

open Syntax

/-!
# The verdict over a source

Whether a source is understood depends on its statements alone.

* `sameFaults`: the faults in some statements are the same in every frame that has an owner, and in
  every frame that has none.
* `faults_interpret_head`: no head, and no starter from outside, makes a difference to the faults.
* `groups_lose_what_declares_nothing`: what a group loses was passed over because no declaration
  starts there, and it is never reported.
-/

/-! ### Faults in different frames -/

/-- Two messages were read in the same way: both were, or both were rejected for one reason. -/
inductive SameOutcome : Except Rejection Message → Except Rejection Message → Prop where
  | error (reason : Rejection) : SameOutcome (.error reason) (.error reason)
  | ok (m n : Message) : SameOutcome (.ok m) (.ok n)

namespace Frame

variable {frame frame' : Frame} (id id' : NodeId)

theorem sameOutcome_call (howner : frame.owner.isSome = frame'.owner.isSome) (c : Call) :
    SameOutcome (frame.call id c) (frame'.call id' c) := by
  unfold call
  cases callSignature c with
  | none => exact .error _
  | some signature =>
    cases Token.text? c.receiver with
    | some receiver => exact .ok _ _
    | none =>
      cases h : frame.owner <;> cases h' : frame'.owner <;> simp [h, h'] at howner
      · exact .error _
      · exact .ok _ _

theorem sameOutcome_creation (c : Creation) :
    SameOutcome (frame.creation id c) (frame'.creation id' c) := by
  unfold creation
  cases Token.text? c.constructor with
  | none => exact .error _
  | some constructor => exact .ok _ _

theorem sameOutcome_asyncMessage (m : AsyncMessage) :
    SameOutcome (frame.asyncMessage id m) (frame'.asyncMessage id' m) := by
  unfold asyncMessage
  cases Token.text? m.receiver with
  | none => exact .error _
  | some receiver => exact .ok _ _

/-- A block is read like the statements in it. -/
theorem faults_block (frame : Frame) (next : NodeId) (body : Block) :
    (frame.block next body).faults = (frame.statements next body.statements).faults := by
  cases body <;> rfl

/-- **Faults depend only on whether there is an owner.** -/
theorem sameFaults : Syntax.Steps
    (fun s => ∀ (frame frame' : Frame) id id', frame.owner.isSome = frame'.owner.isSome →
      (frame.statement id s).faults = (frame'.statement id' s).faults)
    (fun ss => ∀ (frame frame' : Frame) next next', frame.owner.isSome = frame'.owner.isSome →
      (frame.statements next ss).faults = (frame'.statements next' ss).faults)
    (fun bs => ∀ (frame frame' : Frame) next next' kind,
      frame.owner.isSome = frame'.owner.isSome →
      (frame.branches next kind bs).faults = (frame'.branches next' kind bs).faults) where
  unrecognized span text frame frame' id id' howner := rfl
  call c body span text hbody frame frame' id id' howner := by
    have houtcome := sameOutcome_call id id' howner c
    unfold statement construct
    generalize frame.call id c = x at *
    generalize frame'.call id' c = y at *
    cases houtcome with
    | error reason => rfl
    | ok m n =>
      show (block _ _ body).faults = (block _ _ body).faults
      rw [faults_block, faults_block]
      exact hbody _ _ _ _ rfl
  creation c body span text hbody frame frame' id id' howner := by
    have houtcome : SameOutcome (frame.creation id c) (frame'.creation id' c) :=
      sameOutcome_creation id id' c
    unfold statement construct
    generalize frame.creation id c = x at *
    generalize frame'.creation id' c = y at *
    cases houtcome with
    | error reason => rfl
    | ok m n =>
      show (block _ _ body).faults = (block _ _ body).faults
      rw [faults_block, faults_block]
      exact hbody _ _ _ _ rfl
  asyncMessage m span text frame frame' id id' howner := by
    have houtcome : SameOutcome (frame.asyncMessage id m) (frame'.asyncMessage id' m) :=
      sameOutcome_asyncMessage id id' m
    unfold statement construct
    generalize frame.asyncMessage id m = x at *
    generalize frame'.asyncMessage id' m = y at *
    cases houtcome <;> rfl
  ret r span text frame frame' id id' howner := rfl
  divider d span text frame frame' id id' howner := rfl
  reference r span text frame frame' id id' howner := rfl
  block kind bs inner span text hbs frame frame' id id' howner :=
    hbs (frame.inside id) (frame'.inside id') (id + 1) (id' + 1) kind howner
  nil frame frame' next next' howner := rfl
  cons s rest hs hrest frame frame' next next' howner := by
    show _ ++ _ = _ ++ _
    rw [hs frame frame' next next' howner, hrest frame frame' _ _ howner]
  noBranch frame frame' next next' kind howner := rfl
  branch role guard body rest hbody hrest frame frame' next next' kind howner := by
    show (Frame.block _ _ body).faults ++ _ = (Frame.block _ _ body).faults ++ _
    rw [faults_block, faults_block, hbody frame frame' next next' howner,
      hrest frame frame' _ _ kind howner]

end Frame

/-- **The head makes no difference to the faults**, and neither does the starter. -/
theorem faults_interpret_head (program : Program) (head : Option Syntax.Head)
    (starter starter' : Option String) :
    (interpret { program with head := head } starter).faults =
      (interpret program starter').faults :=
  Frame.sameFaults.statements program.statements _ _ 0 0 rfl

/-! ### What groups lose -/

/-- **A group loses what declares nothing, and says nothing about it.** Every group of a source
    stands somewhere among the lexemes. A lexeme in its braces is a separator, or it lies in exactly
    one member; or it lies in none, and then no declaration starts there, and it does not close the
    group. Whether the source is understood does not depend on the head and the groups in it. -/
theorem groups_lose_what_declares_nothing (source : String) :
    (∀ h ∈ (parse source).head, ∀ g, HeadItem.group g ∈ h.items →
      ∃ body after, g.StandsIn (lex source) body after ∧
        ∀ front l back, body = front ++ l :: back → l.isSeparator = false →
          (∃! d, d ∈ g.members ∧ l.span.Within d.span) ∨
            (∀ d ∈ g.members, ¬ l.span.Within d.span) ∧ PassedOver l (back ++ after)) ∧
      ∀ head starter, (interpret { parse source with head := head } starter).success =
        (interpret (parse source) none).success := by
  refine ⟨?_, ?_⟩
  · intro h hh g hg
    obtain ⟨body, after, hstands, hgrouped⟩ := standsIn_parse hh hg
    refine ⟨body, after, hstands, ?_⟩
    intro front l back hbody hseparator
    have hstand : ∃ p, StandFrom p body := by
      have hlex := standFrom_lex source
      cases hstands with
      | @closed before title _ behind opening closing hlexemes =>
        have hsplit : lex source = (before ++ title ++ [opening]) ++ body ++
            (closing :: behind) := by
          rw [hlexemes]
          simp
        rw [hsplit, standFrom_append₃] at hlex
        exact ⟨_, hlex.2.1⟩
      | @unclosed before title _ opening hlexemes =>
        have hsplit : lex source = (before ++ title ++ [opening]) ++ body := by
          rw [hlexemes]
          simp
        rw [hsplit, standFrom_append] at hlex
        exact ⟨_, hlex.2⟩
    obtain ⟨p, hstand⟩ := hstand
    exact hgrouped.covered hstand hbody hseparator
  · intro head starter
    unfold Interpretation.success
    rw [faults_interpret_head]

instance (s t : Span) : Decidable (s.Within t) := inferInstanceAs (Decidable (_ ∧ _))

/-- The first name in this group is lost, and all is well. -/
theorem group_loses_a_name_silently :
    let source := "group \x7b A, B \x7d"
    (∃ h ∈ (parse source).head, ∃ g, HeadItem.group g ∈ h.items ∧
      ∃ l ∈ lex source, l.text = ['A'] ∧ l.isSeparator = false ∧ l.span.Within g.span ∧
        ∀ d ∈ g.members, ¬ l.span.Within d.span) ∧
      ∀ starter, (interpret (parse source) starter).success = true := by
  intro source
  constructor
  · have hfound : ((parse source).head.any fun h => h.items.any fun item =>
        HeadItem.casesOn item (fun _ => false) fun g => (lex source).any fun l =>
          decide (l.text = ['A'] ∧ l.isSeparator = false ∧ l.span.Within g.span ∧
            ∀ d ∈ g.members, ¬ l.span.Within d.span)) = true := by
      decide +kernel
    obtain ⟨h, hhead, hitems⟩ := (Option.any_eq_true _ _).mp hfound
    obtain ⟨item, hitem, hlexemes⟩ := List.any_eq_true.mp hitems
    cases item with
    | participant d => cases hlexemes
    | group g =>
      obtain ⟨l, hl, hlost⟩ := List.any_eq_true.mp hlexemes
      exact ⟨h, hhead, g, hitem, l, hl, of_decide_eq_true hlost⟩
  · intro starter
    have hverdict : (interpret (parse source) none).success = true := by decide +kernel
    rw [← hverdict, Interpretation.success, Interpretation.success]
    exact congrArg List.isEmpty (faults_interpret_head (parse source) _ starter none)

end SequenceDiagram
