import SequenceDiagram.Proofs.Document.Places
import SequenceDiagram.Proofs.Participant.Collection
import SequenceDiagram.Syntax.Program

namespace SequenceDiagram

open Syntax

/-!
# Everyone in a document has a lifeline

The participants are collected in one walk over a program, and the names of a document are resolved
in another. Both agree on who is named.

* `Document.mentions` are all names in a document.
* `mentionSteps` runs both walks side by side: if the names that the first walk has noted at its end
  are known, and so are those of the frame, then the document mentions only known names.
* `barSteps` does the same for the receivers of calls alone, and `mem_orderedNames_of_opened` is what
  follows: whoever gets a bar has a lifeline.
* `mentions_have_lifelines` is the result for programs. The one name without a lifeline is the
  sentinel, in a document that has no lifelines at all.
-/

/-! ### Mentions -/

/-- The names in a message. -/
def Message.mentions (m : Message) : List String := [m.sender, m.receiver, m.origin]

/-- The names in a fragment, besides those in its sections. -/
def Fragment.mentions (f : Fragment) : List String := f.origin :: f.participants

/-- All names in the messages and the fragments of a document, at every depth. -/
def Document.mentions (d : Document) : List String :=
  d.messages.flatMap (·.mentions) ++ d.fragments.flatMap (·.fragment.mentions)

/-- The names in a node, besides those in the nodes inside it. -/
def Node.mentions : Node → List String
  | .message m _ => m.mentions
  | .fragment f _ => f.mentions
  | .divider _ _ _ => []
  | .rejected _ => []

/-- What a document mentions is mentioned at one of its places. -/
theorem Document.exists_place_of_mem_mentions {d : Document} {name : String}
    (h : name ∈ d.mentions) : ∃ x ∈ d.places, name ∈ x.node.mentions := by
  rw [mentions, List.mem_append, List.mem_flatMap, List.mem_flatMap] at h
  rcases h with ⟨m, hm, hname⟩ | ⟨f, hf, hname⟩
  · obtain ⟨x, hx, body, hnode⟩ := exists_place_of_mem_messages hm
    refine ⟨x, hx, ?_⟩
    rw [hnode]
    exact hname
  · obtain ⟨x, hx, hnode⟩ := exists_place_of_mem_fragments hf
    refine ⟨x, hx, ?_⟩
    rw [hnode]
    exact hname

/-- Who takes part in some nodes is mentioned in one of them. -/
theorem namesSteps (name : String) : Node.Steps
    (fun n => name ∈ n.names → ∀ a, ∃ x ∈ n.places a, name ∈ x.node.mentions)
    (fun ns => name ∈ namesOf ns → ∀ a, ∃ x ∈ placesOf a ns, name ∈ x.node.mentions)
    (fun ss => name ∈ (ss.flatMap fun s => namesOf s.body) →
      ∀ a, ∃ x ∈ placesIn a ss, name ∈ x.node.mentions) where
  message m body hbody h a := by
    rw [Node.names, List.mem_cons, List.mem_cons] at h
    have htop : (⟨a, .message m body⟩ : Place) ∈ Node.places a (.message m body) :=
      List.mem_cons_self
    -- the sender, the receiver, or somebody in the body
    rcases h with rfl | rfl | h
    · exact ⟨_, htop, by simp [Node.mentions, Message.mentions]⟩
    · exact ⟨_, htop, by simp [Node.mentions, Message.mentions]⟩
    · obtain ⟨x, hx, hname⟩ := hbody h (some m.id)
      exact ⟨x, List.mem_cons_of_mem _ hx, hname⟩
  fragment f sections _ h a :=
    ⟨⟨a, .fragment f sections⟩, List.mem_cons_self, List.mem_cons_of_mem _ h⟩
  divider id note source h a := by cases h
  rejected y h a := by cases h
  nil h a := by cases h
  cons n rest hn hrest h a := by
    rw [namesOf, List.mem_append] at h
    rcases h with h | h
    · obtain ⟨x, hx, hname⟩ := hn h a
      exact ⟨x, List.mem_append_left _ hx, hname⟩
    · obtain ⟨x, hx, hname⟩ := hrest h a
      exact ⟨x, List.mem_append_right _ hx, hname⟩
  noSection h a := by cases h
  inSection label condition body rest hbody hrest h a := by
    rw [List.flatMap_cons, List.mem_append] at h
    rcases h with h | h
    · obtain ⟨x, hx, hname⟩ := hbody h a
      exact ⟨x, List.mem_append_left _ hx, hname⟩
    · obtain ⟨x, hx, hname⟩ := hrest h a
      exact ⟨x, List.mem_append_right _ hx, hname⟩

/-! ### The two walks side by side -/

section Walks

variable {known : String → Prop}

/-- The frame names only known participants. -/
structure Frame.Known (known : String → Prop) (frame : Frame) : Prop where
  origin : known frame.origin
  caller : ∀ name, frame.caller = some name → known name
  owner : ∀ name, frame.owner = some name → known name

/-- The places mention only known names. -/
def Known (known : String → Prop) (places : List Place) : Prop :=
  ∀ x ∈ places, ∀ name ∈ x.node.mentions, known name

theorem Known.append {places others : List Place} (h : Known known places)
    (hothers : Known known others) : Known known (places ++ others) :=
  List.forall_mem_append.mpr ⟨h, hothers⟩

theorem Known.node {around : Option NodeId} {n : Node} (hn : ∀ name ∈ n.mentions, known name)
    (h : Known known n.inner) : Known known (n.places around) :=
  Node.forall_places hn h

/-- A rejected statement mentions nobody. -/
theorem Known.reject (frame : Frame) (id : NodeId) (s : Statement) (reason : Rejection)
    (around : Option NodeId) : Known known ((frame.reject id s reason).value.places around) :=
  .node (fun _ hname => by cases hname) (fun _ hx => by cases hx)

theorem Known.message {around : Option NodeId} {m : Message} {body : List Node}
    (hsender : known m.sender) (hreceiver : known m.receiver) (horigin : known m.origin)
    (h : Known known (placesOf (some m.id) body)) :
    Known known (Node.places around (.message m body)) := by
  refine .node ?_ h
  intro name hname
  simp only [Node.mentions, Message.mentions, List.mem_cons, List.not_mem_nil, or_false] at hname
  rcases hname with rfl | rfl | rfl
  · exact hsender
  · exact hreceiver
  · exact horigin

/-- The participants of a fragment are those that its sections mention, and the others. -/
theorem Known.fragment {frame : Frame} (hframe : frame.Known known) (id : NodeId)
    (kind : FragmentKind) (source : Span) {sections : List Section} {others : List String}
    (around : Option NodeId) (h : Known known (placesIn (some id) sections))
    (hothers : ∀ name ∈ others, known name) :
    Known known ((frame.fragment id kind source sections others).places around) := by
  refine .node ?_ h
  intro name hname
  rcases List.mem_cons.mp hname with rfl | hname
  · exact hframe.origin
  · rcases List.mem_append.mp (List.mem_eraseDups.mp hname) with hname | hname
    · obtain ⟨x, hx, hmention⟩ := (namesSteps name).sections sections hname (some id)
      exact h x hx name hmention
    · exact hothers name hname

/-- A frame inside a fragment names the same participants. -/
theorem Frame.Known.inside {frame : Frame} (h : frame.Known known) (id : NodeId) :
    (frame.inside id).Known known :=
  ⟨h.origin, h.caller, h.owner⟩

/-- The frame in the body of a message names its sender and its receiver. -/
theorem Frame.Known.within {m : Message} (hsender : known m.sender) (hreceiver : known m.receiver) :
    (Frame.within m).Known known where
  origin := hreceiver
  caller name hname := by
    cases hname
    exact hsender
  owner name hname := by
    cases hname
    exact hreceiver

/-- Who is written is known, and who stands in for a name that is not written is as well. -/
theorem known_getD {token : Option Token} {name : String}
    (htoken : ∀ text, Token.text? token = some text → known text) (hname : known name) :
    known ((Token.text? token).getD name) := by
  cases h : Token.text? token with
  | none => exact hname
  | some text => exact htoken text h

/-- **Both walks agree on names.** Wherever the reading of a statement takes a name from, from the
    text or from its frame, the other walk has noted it, or it was known before. -/
theorem mentionSteps : Syntax.Steps
    (fun s => ∀ inCall context frame id, Frame.Known known frame →
      (∀ name ∈ (Context.statement inCall context s).ledger.names, known name) →
      ∀ a, Known known ((frame.statement id s).value.places a))
    (fun ss => ∀ inCall context frame next, Frame.Known known frame →
      (∀ name ∈ (Context.statements inCall context ss).ledger.names, known name) →
      ∀ a, Known known (placesOf a (frame.statements next ss).value))
    (fun bs => ∀ inCall context frame next kind, Frame.Known known frame →
      (∀ name ∈ (Context.branches inCall context bs).ledger.names, known name) →
      ∀ a, Known known (placesIn a (frame.branches next kind bs).value)) where
  unrecognized span text inCall context frame id hframe hnames a := .reject frame id _ _ a
  call c body span text hbody inCall context frame id hframe hnames a := by
    rw [Context.statement, Context.construct, Context.block_eq] at hnames
    rw [Frame.statement, Frame.construct]
    cases hc : frame.call id c with
    | error reason => exact .reject frame id _ _ a
    | ok m =>
      -- the names of the call are noted before those of its body
      have hnoted : ∀ name ∈ (context.call inCall c).ledger.names, known name :=
        fun name hname => hnames name ((Context.extends_statements _ _ _).names hname)
      obtain ⟨signature, receiver, _, hreceiver, rfl⟩ := Frame.call_ok hc
      have hsender : known ((Token.text? c.sender).getD frame.origin) :=
        known_getD (fun text h => hnoted text (context.mem_names_call inCall (.inl h)))
          hframe.origin
      -- a receiver that is not written is the owner of the frame
      have hknown : known receiver := by
        rcases Option.or_eq_some_iff.mp hreceiver with h | ⟨_, h⟩
        · exact hnoted receiver (context.mem_names_call inCall (.inr h))
        · exact hframe.owner receiver h
      simp only [Frame.block_eq]
      exact .message hsender hknown hframe.origin
        (hbody true _ _ _ (.within hsender hknown) hnames _)
  creation c body span text hbody inCall context frame id hframe hnames a := by
    rw [Context.statement, Context.construct, Context.block_eq] at hnames
    rw [Frame.statement, Frame.construct]
    cases hc : frame.creation id c with
    | error reason => exact .reject frame id _ _ a
    | ok m =>
      have hnoted : ∀ name ∈ (context.creation inCall c).ledger.names, known name :=
        fun name hname => hnames name ((Context.extends_statements _ _ _).names hname)
      obtain ⟨constructor, signature, editable, hconstructor, rfl⟩ := Frame.creation_ok hc
      have hknown : known (creationName c.assignment constructor) :=
        hnoted _ (context.mem_names_creation inCall hconstructor)
      -- a creation is always sent by the origin of its frame
      simp only [Frame.block_eq]
      exact .message hframe.origin hknown hframe.origin
        (hbody true _ _ _ (.within hframe.origin hknown) hnames _)
  asyncMessage m span text inCall context frame id hframe hnames a := by
    rw [Frame.statement, Frame.construct]
    cases hm : frame.asyncMessage id m with
    | error reason => exact .reject frame id _ _ a
    | ok m' =>
      obtain ⟨receiver, hreceiver, rfl⟩ := Frame.asyncMessage_ok hm
      refine .message (known_getD (fun text h => ?_) hframe.origin) ?_ hframe.origin
        (fun _ hx => by cases hx)
      · exact hnames text (context.mem_names_asyncMessage inCall (.inl h))
      · exact hnames receiver (context.mem_names_asyncMessage inCall (.inr hreceiver))
  ret r span text inCall context frame id hframe hnames a := by
    -- only a return that is written as a message names anyone
    have hnoted : ∀ text, Token.text? (r.message.bind (·.sender)) = some text ∨
        Token.text? (r.message.bind (·.receiver)) = some text → known text := by
      intro text h
      obtain ⟨expression, message, source⟩ := r
      cases message with
      | none => rcases h with h | h <;> cases h
      | some m => exact hnames text (context.mem_names_asyncMessage inCall h)
    -- where nobody is written, a return goes to the caller, if there is one
    have hcaller : known (frame.caller.getD frame.origin) := by
      cases h : frame.caller with
      | none => exact hframe.origin
      | some caller => exact hframe.caller caller h
    exact .message (known_getD (fun text h => hnoted text (.inl h)) hframe.origin)
      (known_getD (fun text h => hnoted text (.inr h)) hcaller) hframe.origin
      (fun _ hx => by cases hx)
  divider d span text inCall context frame id hframe hnames a :=
    .node (fun _ hname => by cases hname) (fun _ hx => by cases hx)
  reference r span text inCall context frame id hframe hnames a := by
    -- a reference has no sections: those who take part are all written
    refine Known.fragment hframe id .reference r.span a (fun _ hx => by cases hx) ?_
    intro name hname
    obtain ⟨hmem, hne⟩ := List.mem_filter.mp hname
    obtain ⟨token, htoken, rfl⟩ := List.mem_map.mp hmem
    exact hnames _ (context.mem_names_useAll htoken (of_decide_eq_true hne))
  block kind bs inner span text hbs inCall context frame id hframe hnames a :=
    Known.fragment hframe id _ _ a (hbs inCall context _ _ kind (hframe.inside id) hnames _)
      (fun _ hname => by cases hname)
  nil inCall context frame next hframe hnames a x hx := by cases hx
  cons s rest hs hrest inCall context frame next hframe hnames a := by
    refine .append (hs inCall context frame next hframe ?_ a) (hrest _ _ _ _ hframe hnames a)
    -- the names of the first statement are still there after the rest
    exact fun name hname => hnames name ((Context.extends_statements _ _ rest).names hname)
  noBranch inCall context frame next kind hframe hnames a x hx := by cases hx
  branch role guard body rest hbody hrest inCall context frame next kind hframe hnames a := by
    rw [Context.branches, Context.branch, Context.block_eq] at hnames
    rw [Frame.branches, Frame.branch]
    simp only [Frame.block_eq]
    refine .append (hbody inCall context frame next hframe ?_ a)
      (hrest _ _ _ _ kind hframe hnames a)
    exact fun name hname => hnames name ((Context.extendSteps.branches rest _ _).names hname)

/-! ### Bars -/

/-- The bars that are opened at the places stand on known lifelines. -/
def BarsKnown (known : String → Prop) (places : List Place) : Prop :=
  ∀ x ∈ places, ∀ name, x.node.opened = some name → known name

theorem BarsKnown.nil : BarsKnown known [] := by
  intro x hx
  cases hx

theorem BarsKnown.append {places others : List Place} (h : BarsKnown known places)
    (hothers : BarsKnown known others) : BarsKnown known (places ++ others) :=
  List.forall_mem_append.mpr ⟨h, hothers⟩

/-- A node that opens no bar adds none to those inside it. -/
theorem BarsKnown.node {around : Option NodeId} {n : Node} (hopened : n.opened = none)
    (h : BarsKnown known n.inner) : BarsKnown known (n.places around) := by
  refine Node.forall_places (fun name hname => ?_) h
  rw [show n.opened = some name from hname] at hopened
  cases hopened

/-- A message opens a bar on the lifeline of its receiver, if at all. -/
theorem BarsKnown.message {around : Option NodeId} {m : Message} {body : List Node}
    (hreceiver : known m.receiver) (h : BarsKnown known (placesOf (some m.id) body)) :
    BarsKnown known (Node.places around (.message m body)) := by
  refine Node.forall_places (fun name hname => ?_) h
  obtain ⟨-, hname⟩ := Option.ite_none_right_eq_some.mp hname
  cases hname
  exact hreceiver

/-- **Whoever gets a bar is noted.** The receiver of a call is written, or it owns the frame; so,
    other than for the senders, the origin of the frame does not matter. -/
theorem barSteps : Syntax.Steps
    (fun s => ∀ inCall context (frame : Frame) id, (∀ name, frame.owner = some name → known name) →
      (∀ name ∈ (Context.statement inCall context s).ledger.names, known name) →
      ∀ a, BarsKnown known ((frame.statement id s).value.places a))
    (fun ss => ∀ inCall context (frame : Frame) next,
      (∀ name, frame.owner = some name → known name) →
      (∀ name ∈ (Context.statements inCall context ss).ledger.names, known name) →
      ∀ a, BarsKnown known (placesOf a (frame.statements next ss).value))
    (fun bs => ∀ inCall context (frame : Frame) next kind,
      (∀ name, frame.owner = some name → known name) →
      (∀ name ∈ (Context.branches inCall context bs).ledger.names, known name) →
      ∀ a, BarsKnown known (placesIn a (frame.branches next kind bs).value)) where
  unrecognized span text inCall context frame id howner hnames a := .node rfl .nil
  call c body span text hbody inCall context frame id howner hnames a := by
    rw [Context.statement, Context.construct, Context.block_eq] at hnames
    rw [Frame.statement, Frame.construct]
    cases hc : frame.call id c with
    | error reason => exact .node rfl .nil
    | ok m =>
      have hnoted : ∀ name ∈ (context.call inCall c).ledger.names, known name :=
        fun name hname => hnames name ((Context.extends_statements _ _ _).names hname)
      have hreceiver : known m.receiver := by
        obtain ⟨signature, receiver, -, hreceiver, rfl⟩ := Frame.call_ok hc
        rcases Option.or_eq_some_iff.mp hreceiver with h | ⟨_, h⟩
        · exact hnoted receiver (context.mem_names_call inCall (.inr h))
        · exact howner receiver h
      simp only [Frame.block_eq]
      refine .message hreceiver (hbody true _ _ _ (fun name hname => ?_) hnames _)
      cases hname
      exact hreceiver
  creation c body span text hbody inCall context frame id howner hnames a := by
    rw [Context.statement, Context.construct, Context.block_eq] at hnames
    rw [Frame.statement, Frame.construct]
    cases hc : frame.creation id c with
    | error reason => exact .node rfl .nil
    | ok m =>
      have hnoted : ∀ name ∈ (context.creation inCall c).ledger.names, known name :=
        fun name hname => hnames name ((Context.extends_statements _ _ _).names hname)
      have hreceiver : known m.receiver := by
        obtain ⟨constructor, signature, editable, hconstructor, rfl⟩ := Frame.creation_ok hc
        exact hnoted _ (context.mem_names_creation inCall hconstructor)
      simp only [Frame.block_eq]
      refine .message hreceiver (hbody true _ _ _ (fun name hname => ?_) hnames _)
      cases hname
      exact hreceiver
  asyncMessage m span text inCall context frame id howner hnames a := by
    rw [Frame.statement, Frame.construct]
    cases hm : frame.asyncMessage id m with
    | error reason => exact .node rfl .nil
    | ok m' =>
      obtain ⟨receiver, -, rfl⟩ := Frame.asyncMessage_ok hm
      exact .node rfl .nil
  ret r span text inCall context frame id howner hnames a := .node rfl .nil
  divider d span text inCall context frame id howner hnames a := .node rfl .nil
  reference r span text inCall context frame id howner hnames a := .node rfl .nil
  block kind bs inner span text hbs inCall context frame id howner hnames a :=
    BarsKnown.node rfl (hbs inCall context (frame.inside id) _ kind howner hnames _)
  nil inCall context frame next howner hnames a := .nil
  cons s rest hs hrest inCall context frame next howner hnames a := by
    refine .append (hs inCall context frame next howner ?_ a) (hrest _ _ _ _ howner hnames a)
    exact fun name hname => hnames name ((Context.extends_statements _ _ rest).names hname)
  noBranch inCall context frame next kind howner hnames a := .nil
  branch role guard body rest hbody hrest inCall context frame next kind howner hnames a := by
    rw [Context.branches, Context.branch, Context.block_eq] at hnames
    rw [Frame.branches, Frame.branch]
    simp only [Frame.block_eq]
    refine .append (hbody inCall context frame next howner ?_ a)
      (hrest _ _ _ _ kind howner hnames a)
    exact fun name hname => hnames name ((Context.extendSteps.branches rest _ _).names hname)

end Walks

/-! ### Programs -/

/-- A name has a lifeline. The sentinel needs none if there are no lifelines at all. -/
def HasLifeline (context : Context) (name : String) : Prop :=
  name ∈ orderedNames context ∨ (name = sentinel ∧ orderedNames context = [])

/-- The first lifeline stands in if nobody else does; the sentinel, if there is none. -/
theorem hasLifeline_first (context : Context) :
    HasLifeline context ((orderedNames context).head?.getD sentinel) := by
  unfold HasLifeline
  cases orderedNames context with
  | nil => exact .inr ⟨rfl, rfl⟩
  | cons first rest => exact .inl List.mem_cons_self

/-- The participant in whose frame a program stands has a lifeline. -/
theorem hasLifeline_topOrigin (program : Program) (starter : Option String) :
    HasLifeline (collect program starter) (topOrigin program starter) := by
  have hstarter : effectiveStarter program starter = (collect program starter).starterName := by
    rw [effectiveStarter, Context.starterName, starter_collect]
  unfold topOrigin
  rw [hstarter, Context.starterName]
  cases h : (collect program starter).starter with
  | some name =>
    have hname : name ∈ orderedNames (collect program starter) :=
      mem_orderedNames.mpr (.inr (mem_names_collect h))
    -- a starter may be called like the sentinel, and then it is treated as one
    by_cases hsentinel : name = sentinel
    · rw [Option.getD_some, if_neg (not_not_intro hsentinel)]
      by_cases himplicit : (collect program starter).implicitSender
      · rw [if_pos himplicit]
        exact .inl (hsentinel ▸ hname)
      · rw [if_neg himplicit]
        exact hasLifeline_first _
    · rw [Option.getD_some, if_pos hsentinel]
      exact .inl hname
  | none =>
    rw [Option.getD_none, if_neg (not_not_intro rfl)]
    by_cases himplicit : (collect program starter).implicitSender
    · -- the sentinel leads, as nobody else starts
      rw [if_pos himplicit]
      refine .inl (mem_orderedNames.mpr (.inl ?_))
      rw [leadingName?, h]
      exact if_pos himplicit
    · rw [if_neg himplicit]
      exact hasLifeline_first _

/-- Who is mentioned in the document of a program has a lifeline. -/
theorem hasLifeline_of_mem_mentions {program : Program} {starter : Option String} {name : String}
    (h : name ∈ (interpret program starter).document.mentions) :
    HasLifeline (collect program starter) name := by
  obtain ⟨context, hcollect, _⟩ := collect_eq program starter
  have hframe : Frame.Known (HasLifeline (collect program starter))
      ⟨none, topOrigin program starter, none, none⟩ :=
    { origin := hasLifeline_topOrigin program starter
      caller := fun _ h => nomatch h
      owner := fun _ h => nomatch h }
  have hnoted : ∀ name ∈ (context.statements false program.statements).ledger.names,
      HasLifeline (collect program starter) name := by
    rw [← hcollect]
    exact fun name hname => .inl (mem_orderedNames.mpr (.inr hname))
  -- both walks start at the top, with the frame and the context that they start with
  obtain ⟨x, hx, hmention⟩ := Document.exists_place_of_mem_mentions h
  exact mentionSteps.statements program.statements false context _ 0 hframe hnoted none x hx
    name hmention

/-- Whoever gets a bar in the document of a program has a lifeline, without exception. -/
theorem mem_orderedNames_of_opened {program : Program} {starter : Option String} {x : Place}
    (hx : x ∈ (interpret program starter).document.places) {name : String}
    (h : x.node.opened = some name) : name ∈ orderedNames (collect program starter) := by
  obtain ⟨context, hcollect, _⟩ := collect_eq program starter
  have hnoted : ∀ name ∈ (context.statements false program.statements).ledger.names,
      name ∈ orderedNames (collect program starter) := by
    rw [← hcollect]
    exact fun name hname => mem_orderedNames.mpr (.inr hname)
  exact barSteps.statements program.statements false context _ 0 (fun _ howner => nomatch howner)
    hnoted none x hx name h

/-- **Everyone has a lifeline.** Every name that a document mentions is among the lifelines of its
    program; the only exception is the sentinel, and only if there are no lifelines. -/
theorem mentions_have_lifelines (program : Program) (starter : Option String) (name : String)
    (h : name ∈ (interpret program starter).document.mentions) :
    name ∈ (orderParticipants (collect program starter)).map (·.name) ∨
      (name = sentinel ∧ orderParticipants (collect program starter) = []) := by
  rw [map_name_orderParticipants, orderParticipants_eq_nil_iff]
  exact hasLifeline_of_mem_mentions h

/-- Who is called from the body of a call inside a fragment has a lifeline. -/
theorem nested_receiver_has_lifeline :
    let program := parse "opt \x7b A.m \x7b B.n \x7d \x7d"
    "B" ∈ (interpret program none).document.mentions ∧
      ("B" ∈ (orderParticipants (collect program none)).map (·.name) ∨
        ("B" = sentinel ∧ orderParticipants (collect program none) = [])) := by
  intro program
  have hmention : "B" ∈ (interpret program none).document.mentions := by decide +kernel
  exact ⟨hmention, mentions_have_lifelines program none "B" hmention⟩

end SequenceDiagram
