import Mathlib.Data.List.Forall2
import SequenceDiagram.Proofs.Document.OpenSenders

namespace SequenceDiagram

open Syntax

/-!
# Which statements are rejected

A statement is rejected for what is written in it, and for standing outside of every call, but never
for what became of the statements before it, around it or inside it.

* `Construct.Uninterpretable` are the constructs that cannot be interpreted, and `Construct.Means`
  says what the others stand for. `Statement.Becomes` puts both together.
* `Entered` are the lists of statements that are read, each with the nodes that they are read as:
  those at the top, in the bodies of accepted calls and creations, and in sections.
* `Frame.forall₂_statements`: the statements of a list become one node each, in their order.
* `Entered.isReading` and `Entered.outside_iff` are invariants of the lists on the way down, and
  `Entered.covers` says that these lists have all nodes of the document.
* `faultSteps`: the faults are reported in the order of the rejected nodes.
* `construct?_ofCandidates` is about statements that have several readings.
* `rejected_iff_uninterpretable` is the result.
-/

/-! ### What a statement becomes -/

namespace Syntax

/-- A construct that cannot be interpreted. Inside of a call, a call may do without a receiver. -/
def Construct.Uninterpretable (inCall : Bool) : Construct → Prop
  | .call c _ => ¬ Token.isNamed c.method ∨ ¬ Token.isNamed c.receiver ∧ inCall = false
  | .asyncMessage m => ¬ Token.isNamed m.receiver
  | .creation c _ => ¬ Token.isNamed c.constructor
  | .ret _ => False
  | .divider _ => False
  | .reference _ => False
  | .block _ _ _ => False

/-- A statement that cannot be interpreted: it has no construct, or one that cannot be. -/
def Statement.Uninterpretable (inCall : Bool) (s : Statement) : Prop :=
  ∀ c, s.construct? = some c → c.Uninterpretable inCall

theorem Statement.uninterpretable_unrecognized (inCall : Bool) (span : Span) (text : String) :
    (Statement.unrecognized span text).Uninterpretable inCall := fun _ hc => nomatch hc

theorem Statement.uninterpretable_recognized_iff {inCall : Bool} {c : Construct} {span : Span}
    {text : String} : (Statement.recognized c span text).Uninterpretable inCall ↔
      c.Uninterpretable inCall := by
  simp [Uninterpretable, construct?]

/-- The part that a branch plays in its block. -/
def Branch.role : Branch → BranchRole
  | .mk role _ _ => role

/-- A construct stands for a node: for a message or a fragment of its own kind, or for a divider,
    with the place of the construct in the source. -/
inductive Construct.Means : Construct → Node → Prop
  | call {c : Call} {body : Block} {m : Message} {inner : List Node} :
      m.kind = .sync → m.source = c.span → callSignature c = some m.signature →
      m.written = Token.text? c.receiver → Means (.call c body) (.message m inner)
  | creation {c : Creation} {body : Block} {m : Message} {inner : List Node} :
      m.kind = .creation → m.source = c.span →
      (∃ constructor, Token.text? c.constructor = some constructor ∧
        m.written = some (creationName c.assignment constructor)) →
      Means (.creation c body) (.message m inner)
  | asyncMessage {a : AsyncMessage} {m : Message} :
      m.kind = .async → m.source = a.span → m.written = Token.text? a.receiver →
      Means (.asyncMessage a) (.message m [])
  | ret {r : Return} {m : Message} :
      m.kind = .ret → m.source = r.span → Means (.ret r) (.message m [])
  | divider {d : Divider} {id : NodeId} :
      Means (.divider d) (.divider id ((displayOf d.note).getD "") d.span)
  | reference {r : Reference} {f : Fragment} :
      f.kind = .reference → f.source = r.span →
      Means (.reference r) (.fragment f [.mk "ref" (r.names.head?.map (·.text)) []])
  | block {kind : BlockKind} {bs : List Branch} {span : Span} {f : Fragment}
      {sections : List Section} :
      f.kind = .block kind → f.source = span →
      sections.map (·.label) = bs.map (·.role.keyword kind) →
      Means (.block kind bs span) (.fragment f sections)

/-- What becomes of a statement: it is rejected exactly if it cannot be interpreted, and keeps its
    text then; or else it becomes what its construct stands for. -/
structure Statement.Becomes (inCall : Bool) (s : Statement) (n : Node) : Prop where
  rejected_iff : (∃ x, n = .rejected x) ↔ s.Uninterpretable inCall
  kept : ∀ x, n = .rejected x → x.source = s.span ∧ x.text = s.text
  means : ∀ c, s.construct? = some c → ¬ c.Uninterpretable inCall → c.Means n

end Syntax

/-! ### What is entered -/

/-- Some statements are read as some nodes, on the way from the statements `top` with the nodes
    `nodes` to those inside them. `inCall` says whether a call or a creation was entered on the
    way. -/
inductive Entered (top : List Statement) (nodes : List Node) :
    Bool → List Statement → List Node → Prop
  | top : Entered top nodes false top nodes
  | call {inCall : Bool} {ss : List Statement} {ns inner : List Node} {c : Call} {body : Block}
      {span : Span} {text : String} {m : Message} : Entered top nodes inCall ss ns →
      (.recognized (.call c body) span text, .message m inner) ∈ ss.zip ns →
      Entered top nodes true body.statements inner
  | creation {inCall : Bool} {ss : List Statement} {ns inner : List Node} {c : Creation}
      {body : Block} {span : Span} {text : String} {m : Message} : Entered top nodes inCall ss ns →
      (.recognized (.creation c body) span text, .message m inner) ∈ ss.zip ns →
      Entered top nodes true body.statements inner
  | branch {inCall : Bool} {ss : List Statement} {ns inner : List Node} {kind : BlockKind}
      {bs : List Branch} {place span : Span} {text : String} {f : Fragment}
      {sections : List Section} {role : BranchRole} {guard : Option Condition} {body : Block}
      {label : String} {condition : Option String} : Entered top nodes inCall ss ns →
      (.recognized (.block kind bs place) span text, .fragment f sections) ∈ ss.zip ns →
      (.mk role guard body, .mk label condition inner) ∈ bs.zip sections →
      Entered top nodes inCall body.statements inner

/-! ### One statement -/

namespace Frame

variable (frame : Frame) (id : NodeId)

/-- A call fails for want of a method, or of a receiver in a frame without an owner. -/
theorem exists_call_error_iff (c : Call) (body : Block) :
    (∃ reason, frame.call id c = .error reason) ↔
      (Construct.call c body).Uninterpretable frame.owner.isSome := by
  rw [Construct.Uninterpretable, call, callSignature, ← Token.isSome_text?, ← Token.isSome_text?]
  cases Token.text? c.method <;> cases Token.text? c.receiver <;> cases frame.owner <;> simp

theorem exists_asyncMessage_error_iff (m : AsyncMessage) (inCall : Bool) :
    (∃ reason, frame.asyncMessage id m = .error reason) ↔
      (Construct.asyncMessage m).Uninterpretable inCall := by
  rw [Construct.Uninterpretable, asyncMessage, ← Token.isSome_text?]
  cases Token.text? m.receiver <;> simp

theorem exists_creation_error_iff (c : Creation) (body : Block) (inCall : Bool) :
    (∃ reason, frame.creation id c = .error reason) ↔
      (Construct.creation c body).Uninterpretable inCall := by
  rw [Construct.Uninterpretable, creation, ← Token.isSome_text?]
  cases Token.text? c.constructor <;> simp

/-- A construct fails exactly if it cannot be interpreted. -/
theorem exists_error_iff (c : Construct) :
    (∃ reason, frame.construct id c = .error reason) ↔
      c.Uninterpretable frame.owner.isSome := by
  cases c with
  | call c body =>
    rw [construct, ← frame.exists_call_error_iff id]
    cases frame.call id c <;> simp
  | creation c body =>
    rw [construct, ← frame.exists_creation_error_iff id]
    cases frame.creation id c <;> simp
  | asyncMessage m =>
    rw [construct, ← frame.exists_asyncMessage_error_iff id]
    cases frame.asyncMessage id m <;> simp
  | ret r => simp [construct, Construct.Uninterpretable]
  | divider d => simp [construct, Construct.Uninterpretable]
  | reference r => simp [construct, Construct.Uninterpretable]
  | block kind bs span => simp [construct, Construct.Uninterpretable]

/-- The branches of a block become one section each, in their order. -/
theorem forall₂_branches (next : NodeId) (kind : BlockKind) (bs : List Branch) :
    List.Forall₂ (fun b x => ∃ id, x = (frame.branch id kind b).value) bs
      (frame.branches next kind bs).value := by
  induction bs generalizing next with
  | nil => exact .nil
  | cons b rest ih =>
    rw [branches]
    exact .cons ⟨next, rfl⟩ (ih _)

/-- A section has the keyword of its branch. -/
theorem map_label_branches (next : NodeId) (kind : BlockKind) (bs : List Branch) :
    (frame.branches next kind bs).value.map (·.label) = bs.map (·.role.keyword kind) := by
  induction bs generalizing next with
  | nil => rfl
  | cons b rest ih =>
    obtain ⟨role, guard, body⟩ := b
    rw [branches, List.map_cons, ← ih]
    rfl

/-- A call that is read was accepted, and its body is read inside of its message. -/
theorem exists_of_construct_call {frame : Frame} {id : NodeId} {c : Call} {body : Block}
    {reading : Reading Node} (h : frame.construct id (.call c body) = .ok reading) :
    ∃ m, frame.call id c = .ok m ∧
      reading.value = .message m (statements (.within m) (id + 1) body.statements).value := by
  rw [construct] at h
  cases hc : frame.call id c with
  | error reason =>
    rw [hc] at h
    cases h
  | ok m =>
    rw [hc] at h
    cases h
    refine ⟨m, rfl, ?_⟩
    rw [block_eq]
    rfl

/-- A creation that is read was accepted, and its body is read inside of its message. -/
theorem exists_of_construct_creation {frame : Frame} {id : NodeId} {c : Creation} {body : Block}
    {reading : Reading Node} (h : frame.construct id (.creation c body) = .ok reading) :
    ∃ m, frame.creation id c = .ok m ∧
      reading.value = .message m (statements (.within m) (id + 1) body.statements).value := by
  rw [construct] at h
  cases hc : frame.creation id c with
  | error reason =>
    rw [hc] at h
    cases h
  | ok m =>
    rw [hc] at h
    cases h
    refine ⟨m, rfl, ?_⟩
    rw [block_eq]
    rfl

/-- What a construct is read as is what it stands for. -/
theorem means_of_construct_ok {frame : Frame} {id : NodeId} {c : Construct} {reading : Reading Node}
    (h : frame.construct id c = .ok reading) : c.Means reading.value := by
  cases c with
  | call c body =>
    obtain ⟨m, hm, hvalue⟩ := exists_of_construct_call h
    obtain ⟨signature, receiver, hsignature, _, rfl⟩ := call_ok hm
    rw [hvalue]
    exact .call rfl rfl hsignature rfl
  | creation c body =>
    obtain ⟨m, hm, hvalue⟩ := exists_of_construct_creation h
    obtain ⟨constructor, signature, editable, hconstructor, rfl⟩ := creation_ok hm
    rw [hvalue]
    exact .creation rfl rfl ⟨constructor, hconstructor, rfl⟩
  | asyncMessage a =>
    rw [construct] at h
    cases ha : frame.asyncMessage id a with
    | error reason =>
      rw [ha] at h
      cases h
    | ok m =>
      rw [ha] at h
      cases h
      obtain ⟨receiver, hreceiver, rfl⟩ := asyncMessage_ok ha
      exact .asyncMessage rfl rfl hreceiver.symm
  | ret r =>
    cases h
    exact .ret rfl rfl
  | divider d =>
    cases h
    exact .divider
  | reference r =>
    cases h
    exact .reference rfl rfl
  | block kind bs span =>
    cases h
    exact .block rfl rfl (map_label_branches _ _ _ _)

/-- What becomes of a statement in a frame. -/
theorem becomes_statement (s : Statement) :
    s.Becomes frame.owner.isSome (frame.statement id s).value := by
  cases s with
  | unrecognized span text =>
    refine ⟨iff_of_true ⟨_, rfl⟩ (Statement.uninterpretable_unrecognized _ span text), ?_, ?_⟩
    · intro x hx
      cases hx
      exact ⟨rfl, rfl⟩
    · intro c hc
      cases hc
  | recognized c span text =>
    have hfails := frame.exists_error_iff id c
    rw [statement]
    cases hc : frame.construct id c with
    | error reason =>
      have hrejected := hfails.mp ⟨reason, hc⟩
      refine ⟨iff_of_true ⟨_, rfl⟩ (Statement.uninterpretable_recognized_iff.mpr hrejected),
        ?_, ?_⟩
      · intro x hx
        cases hx
        exact ⟨rfl, rfl⟩
      · intro c' hc' haccepted
        cases hc'
        exact absurd hrejected haccepted
    | ok reading =>
      have haccepted : ¬ c.Uninterpretable frame.owner.isSome := by
        intro h
        obtain ⟨reason, hreason⟩ := hfails.mpr h
        rw [hc] at hreason
        cases hreason
      have hmeans := means_of_construct_ok hc
      -- a construct never stands for a rejected node
      have hnode : ∀ x, reading.value ≠ .rejected x := by
        intro x hx
        rw [hx] at hmeans
        cases hmeans
      refine ⟨iff_of_false (not_exists.mpr hnode)
        (mt Statement.uninterpretable_recognized_iff.mp haccepted), ?_, ?_⟩
      · intro x hx
        exact absurd hx (hnode x)
      · intro c' hc' _
        cases hc'
        exact hmeans

/-- A statement that is read as another node than a rejected one is read as its construct. -/
theorem exists_construct_ok {frame : Frame} {id : NodeId} {c : Construct} {span : Span}
    {text : String} {n : Node} (h : n = (frame.statement id (.recognized c span text)).value)
    (hn : ∀ x, n ≠ .rejected x) :
    ∃ reading, frame.construct id c = .ok reading ∧ n = reading.value := by
  rw [statement] at h
  cases hc : frame.construct id c with
  | error reason =>
    rw [hc] at h
    exact absurd h (hn _)
  | ok reading =>
    rw [hc] at h
    exact ⟨reading, rfl, h⟩

/-- **Nothing gets lost among siblings.** The statements of a list become one node each, in their
    order, and what becomes of one does not depend on the others. -/
theorem forall₂_statements (next : NodeId) (ss : List Statement) :
    List.Forall₂ (fun s n => ∃ id, n = (frame.statement id s).value) ss
      (frame.statements next ss).value := by
  induction ss generalizing next with
  | nil => exact .nil
  | cons s rest ih =>
    rw [statements]
    exact .cons ⟨next, rfl⟩ (ih _)

end Frame

/-! ### Lists of statements that are entered -/

/-- The nodes are what becomes of the statements in some frame, inside of a call or not. -/
def IsReading (inCall : Bool) (ss : List Statement) (ns : List Node) : Prop :=
  ∃ frame : Frame, ∃ next, frame.owner.isSome = inCall ∧ ns = (frame.statements next ss).value

theorem IsReading.pair {inCall : Bool} {ss : List Statement} {ns : List Node} {s : Statement}
    {n : Node} (h : IsReading inCall ss ns) (hmem : (s, n) ∈ ss.zip ns) :
    ∃ frame : Frame, ∃ id, frame.owner.isSome = inCall ∧ n = (frame.statement id s).value := by
  obtain ⟨frame, next, howner, rfl⟩ := h
  obtain ⟨id, hn⟩ := (List.forall₂_iff_zip.mp (frame.forall₂_statements next ss)).2 hmem
  exact ⟨frame, id, howner, hn⟩

theorem IsReading.forall₂_becomes {inCall : Bool} {ss : List Statement} {ns : List Node}
    (h : IsReading inCall ss ns) : List.Forall₂ (·.Becomes inCall ·) ss ns := by
  obtain ⟨frame, next, rfl, rfl⟩ := h
  refine (frame.forall₂_statements next ss).imp fun s n hn => ?_
  obtain ⟨id, rfl⟩ := hn
  exact frame.becomes_statement id s

/-- A call that was read as a message has its body read as what stands inside the message. -/
theorem IsReading.call {inCall : Bool} {ss : List Statement} {ns inner : List Node} {c : Call}
    {body : Block} {span : Span} {text : String} {m : Message} (h : IsReading inCall ss ns)
    (hmem : (.recognized (.call c body) span text, .message m inner) ∈ ss.zip ns) :
    IsReading true body.statements inner := by
  obtain ⟨frame, id, _, hn⟩ := h.pair hmem
  obtain ⟨reading, hreading, hread⟩ := Frame.exists_construct_ok hn fun x hx => nomatch hx
  obtain ⟨m', _, hvalue⟩ := Frame.exists_of_construct_call hreading
  rw [hvalue] at hread
  cases hread
  exact ⟨.within m, id + 1, rfl, rfl⟩

theorem IsReading.creation {inCall : Bool} {ss : List Statement} {ns inner : List Node}
    {c : Creation} {body : Block} {span : Span} {text : String} {m : Message}
    (h : IsReading inCall ss ns)
    (hmem : (.recognized (.creation c body) span text, .message m inner) ∈ ss.zip ns) :
    IsReading true body.statements inner := by
  obtain ⟨frame, id, _, hn⟩ := h.pair hmem
  obtain ⟨reading, hreading, hread⟩ := Frame.exists_construct_ok hn fun x hx => nomatch hx
  obtain ⟨m', _, hvalue⟩ := Frame.exists_of_construct_creation hreading
  rw [hvalue] at hread
  cases hread
  exact ⟨.within m, id + 1, rfl, rfl⟩

/-- A section keeps the owner of the frame around its block. -/
theorem IsReading.branch {inCall : Bool} {ss : List Statement} {ns inner : List Node}
    {kind : BlockKind} {bs : List Branch} {place span : Span} {text : String} {f : Fragment}
    {sections : List Section} {role : BranchRole} {guard : Option Condition} {body : Block}
    {label : String} {condition : Option String} (h : IsReading inCall ss ns)
    (hmem : (.recognized (.block kind bs place) span text, .fragment f sections) ∈ ss.zip ns)
    (hbranch : (.mk role guard body, .mk label condition inner) ∈ bs.zip sections) :
    IsReading inCall body.statements inner := by
  obtain ⟨frame, id, howner, hn⟩ := h.pair hmem
  cases hn
  have hbranches := (frame.inside id).forall₂_branches (id + 1) kind bs
  obtain ⟨next, hsection⟩ := (List.forall₂_iff_zip.mp hbranches).2 hbranch
  rw [Frame.branch, Frame.block_eq] at hsection
  cases hsection
  exact ⟨frame.inside id, next, howner, rfl⟩

/-- The statements of a program are entered in the frame of the program. -/
theorem isReading_interpret (program : Program) (starter : Option String) :
    IsReading false program.statements (interpret program starter).document.nodes :=
  ⟨⟨none, topOrigin program starter, none, none⟩, 0, rfl, rfl⟩

/-- An element of the second list has a partner in a first list of the same length. -/
theorem exists_mem_zip {α β : Type} {xs : List α} {ys : List β} (h : xs.length = ys.length) {y : β}
    (hy : y ∈ ys) : ∃ x, (x, y) ∈ xs.zip ys := by
  have hsnd : (xs.zip ys).map Prod.snd = ys := List.map_snd_zip (Nat.le_of_eq h.symm)
  rw [← hsnd] at hy
  obtain ⟨⟨x, _⟩, hmem, rfl⟩ := List.mem_map.mp hy
  exact ⟨x, hmem⟩

namespace Entered

variable {top : List Statement} {nodes : List Node}

/-- What is entered is read in a frame, with an owner exactly inside of a call. -/
theorem isReading (htop : IsReading false top nodes) {inCall : Bool} {ss : List Statement}
    {ns : List Node} (h : Entered top nodes inCall ss ns) : IsReading inCall ss ns := by
  -- by induction on the way down
  induction h with
  | top => exact htop
  | call _ hmem ih => exact ih.call hmem
  | creation _ hmem ih => exact ih.creation hmem
  | branch _ hmem hbranch ih => exact ih.branch hmem hbranch

/-! ### Nothing is left out -/

/-- The node stands in a list that is entered. -/
def Has (top : List Statement) (nodes : List Node) (n : Node) : Prop :=
  ∃ inCall ss ns, Entered top nodes inCall ss ns ∧ n ∈ ns

/-- A statement is entered with what its construct stands for, or with a rejected node. -/
theorem means_of_pair (htop : IsReading false top nodes) {inCall : Bool} {ss : List Statement}
    {ns : List Node} {c : Construct} {span : Span} {text : String} {n : Node}
    (h : Entered top nodes inCall ss ns) (hpair : (.recognized c span text, n) ∈ ss.zip ns)
    (hn : ∀ x, n ≠ .rejected x) : c.Means n := by
  have hs := (List.forall₂_iff_zip.mp (h.isReading htop).forall₂_becomes).2 hpair
  refine hs.means c rfl fun hbad => ?_
  obtain ⟨x, hx⟩ := hs.rejected_iff.mpr (Statement.uninterpretable_recognized_iff.mpr hbad)
  exact hn x hx

/-- A node that is entered stands for the construct of a statement that is entered with it. -/
theorem Has.exists_means (htop : IsReading false top nodes) {n : Node} (h : Has top nodes n)
    (hn : ∀ x, n ≠ .rejected x) : ∃ inCall ss ns c span text, Entered top nodes inCall ss ns ∧
      (.recognized c span text, n) ∈ ss.zip ns ∧ c.Means n := by
  obtain ⟨inCall, ss, ns, hentered, hmem⟩ := h
  obtain ⟨hlength, hbecomes⟩ :=
    List.forall₂_iff_zip.mp (hentered.isReading htop).forall₂_becomes
  obtain ⟨s, hpair⟩ := exists_mem_zip hlength hmem
  cases s with
  | unrecognized span text =>
    obtain ⟨x, hx⟩ := (hbecomes hpair).rejected_iff.mpr
      (Statement.uninterpretable_unrecognized inCall span text)
    exact absurd hx (hn x)
  | recognized c span text =>
    exact ⟨inCall, ss, ns, c, span, text, hentered, hpair,
      hentered.means_of_pair htop hpair hn⟩

/-- What stands inside a message that is entered is entered. -/
theorem Has.inner (htop : IsReading false top nodes) {m : Message} {inner : List Node}
    (h : Has top nodes (.message m inner)) : ∀ n ∈ inner, Has top nodes n := by
  obtain ⟨inCall, ss, ns, c, span, text, hentered, hpair, hmeans⟩ :=
    h.exists_means htop fun x hx => nomatch hx
  intro n hn
  cases hmeans with
  | call => exact ⟨_, _, _, hentered.call hpair, hn⟩
  | creation => exact ⟨_, _, _, hentered.creation hpair, hn⟩
  | asyncMessage => cases hn
  | ret => cases hn

/-- What stands in a section of a fragment that is entered is entered. -/
theorem Has.inSection (htop : IsReading false top nodes) {f : Fragment} {sections : List Section}
    (h : Has top nodes (.fragment f sections)) :
    ∀ x ∈ sections, ∀ n ∈ x.body, Has top nodes n := by
  obtain ⟨inCall, ss, ns, c, span, text, hentered, hpair, hmeans⟩ :=
    h.exists_means htop fun x hx => nomatch hx
  intro x hx n hn
  cases hmeans with
  | reference =>
    -- the one section of a reference is empty
    rw [List.mem_singleton] at hx
    subst hx
    cases hn
  | block _ _ hlabels =>
    have hlength := congrArg List.length hlabels
    rw [List.length_map, List.length_map] at hlength
    obtain ⟨⟨role, guard, body⟩, hbranch⟩ := exists_mem_zip hlength.symm hx
    obtain ⟨label, condition, inner⟩ := x
    exact ⟨_, _, _, hentered.branch hpair hbranch, hn⟩

/-- **No node of a document is left out** by the lists that are entered. -/
theorem covers (program : Program) (starter : Option String) :
    let d := (interpret program starter).document
    ∀ x ∈ d.places, Has program.statements d.nodes x.node := by
  intro d
  have htop := isReading_interpret program starter
  refine (descentSteps (p := Has program.statements d.nodes) ?_).nodes d.nodes ?_ none
  · intro m n hm hn
    cases m with
    | message m body => exact hm.inner htop n hn
    | fragment f sections =>
      obtain ⟨x, hx, hn⟩ := List.mem_flatMap.mp hn
      exact hm.inSection htop x hx n hn
    | divider id note source => cases hn
    | rejected x => cases hn
  · intro n hn
    exact ⟨false, program.statements, d.nodes, .top, hn⟩

/-! ### Inside and outside of calls -/

/-- What is directly inside a node is clear if the node opens no bar, and is clear itself. -/
theorem clear_iff_of_mem {d : Document} (hd : d.WellIndexed) {around : Option NodeId}
    {ns : List Node} (hsub : placesOf around ns ⊆ d.places) {n : Node} (hn : n ∈ ns) :
    n.inner ⊆ d.places ∧ (d.Clear (some n.id) ↔ n.opened = none ∧ d.Clear around) := by
  have hplaces : n.places around ⊆ d.places :=
    List.Subset.trans (places_subset_placesOf around hn) hsub
  rw [n.places_eq] at hplaces
  obtain ⟨hx, hinner⟩ := List.cons_subset.mp hplaces
  exact ⟨hinner, hd.clear_iff hx⟩

/-- On the way down, a call was entered exactly if some node around the list opens a bar. -/
theorem exists_around {d : Document} (hd : d.WellIndexed) (htop : IsReading false top d.nodes)
    {inCall : Bool} {ss : List Statement} {ns : List Node}
    (h : Entered top d.nodes inCall ss ns) :
    ∃ around, placesOf around ns ⊆ d.places ∧ (inCall = false ↔ d.Clear around) := by
  -- by induction on the way down: a message with a body opens a bar, a fragment does not
  induction h with
  | top => exact ⟨none, List.Subset.refl _, iff_of_true rfl fun a ha => nomatch ha⟩
  | @call inCall ss ns inner c body span text m hentered hmem ih =>
    obtain ⟨around, hsub, _⟩ := ih
    obtain ⟨hinner, hclear⟩ := clear_iff_of_mem hd hsub (List.of_mem_zip hmem).2
    refine ⟨some m.id, hinner, iff_of_false Bool.noConfusion fun h => ?_⟩
    have hopened := (hclear.mp h).1
    cases hentered.means_of_pair htop hmem (fun x hx => nomatch hx) with
    | call hkind => simp [Node.opened, hkind, MessageKind.activates] at hopened
  | @creation inCall ss ns inner c body span text m hentered hmem ih =>
    obtain ⟨around, hsub, _⟩ := ih
    obtain ⟨hinner, hclear⟩ := clear_iff_of_mem hd hsub (List.of_mem_zip hmem).2
    refine ⟨some m.id, hinner, iff_of_false Bool.noConfusion fun h => ?_⟩
    have hopened := (hclear.mp h).1
    cases hentered.means_of_pair htop hmem (fun x hx => nomatch hx) with
    | creation hkind => simp [Node.opened, hkind, MessageKind.activates] at hopened
  | @branch inCall ss ns inner kind bs place span text f sections role guard body label condition
      hentered hmem hbranch ih =>
    obtain ⟨around, hsub, hcall⟩ := ih
    obtain ⟨hinner, hclear⟩ := clear_iff_of_mem hd hsub (List.of_mem_zip hmem).2
    have hsection := placesOf_subset_placesIn (some f.id) (List.of_mem_zip hbranch).2
    refine ⟨some f.id, List.Subset.trans hsection hinner, hcall.trans ?_⟩
    -- a fragment opens no bar
    exact ⟨fun h => hclear.mpr ⟨rfl, h⟩, fun h => (hclear.mp h).2⟩

/-- A list is entered outside of every call exactly if no node around its nodes opens a bar. -/
theorem outside_iff {d : Document} (hd : d.WellIndexed) (htop : IsReading false top d.nodes)
    {inCall : Bool} {ss : List Statement} {ns : List Node} (h : Entered top d.nodes inCall ss ns)
    {n : Node} (hn : n ∈ ns) : inCall = false ↔ d.Outside n.id := by
  obtain ⟨around, hsub, hcall⟩ := h.exists_around hd htop
  have hplaces := List.Subset.trans (places_subset_placesOf around hn) hsub
  rw [n.places_eq] at hplaces
  rw [hcall, ← hd.outside_iff (hplaces List.mem_cons_self)]

end Entered

/-! ### Faults -/

/-- The rejected statement that a node is. -/
def Node.rejected? : Node → Option Rejected
  | .rejected x => some x
  | _ => none

theorem Node.rejected?_eq_some {n : Node} {x : Rejected} :
    n.rejected? = some x ↔ n = .rejected x := by
  cases n <;> simp [rejected?]

/-- The rejected statements of a document, in the order of the source. -/
def Document.rejections (d : Document) : List Rejected := d.places.filterMap (·.node.rejected?)

/-- What is reported about a rejected statement. -/
def Rejected.fault (x : Rejected) : Fault := ⟨x.source.line, x.source.column, x.reason⟩

/-- **The faults are those of the rejected nodes.** A fault is noted while the nodes around it are
    not finished yet, but never out of order: what stands inside a node is read between the node and
    those after it. -/
theorem faultSteps : Frame.Steps
    (fun _ _ reading => ∀ a, reading.faults =
      ((reading.value.places a).filterMap (·.node.rejected?)).map (·.fault))
    (fun _ _ reading => ∀ a, reading.faults =
      ((placesOf a reading.value).filterMap (·.node.rejected?)).map (·.fault))
    (fun _ _ reading => ∀ a, reading.faults =
      ((placesIn a reading.value).filterMap (·.node.rejected?)).map (·.fault)) where
  rejected frame id s reason a := rfl
  opening frame id m inner hm hinner a := by
    show inner.faults = ((placesOf (some m.id) inner.value).filterMap (·.node.rejected?)).map _
    exact hinner (some m.id)
  passing frame id m hm a := rfl
  divider frame id note source a := rfl
  reference frame id x a := rfl
  block frame id kind source inner hinner a := by
    show inner.faults = ((placesIn (some id) inner.value).filterMap (·.node.rejected?)).map _
    exact hinner (some id)
  nil frame next a := rfl
  cons frame next first rest hfirst hrest a := by
    show first.faults ++ rest.faults =
      ((first.value.places a ++ placesOf a rest.value).filterMap (·.node.rejected?)).map _
    rw [List.filterMap_append, List.map_append, ← hfirst a, ← hrest a]
  noSection frame next a := rfl
  inSection frame next label condition inner rest hinner hrest a := by
    show inner.faults ++ rest.faults =
      ((placesOf a inner.value ++ placesIn a rest.value).filterMap (·.node.rejected?)).map _
    rw [List.filterMap_append, List.map_append, ← hinner a, ← hrest a]

theorem faults_interpret (program : Program) (starter : Option String) :
    (interpret program starter).faults =
      (interpret program starter).document.rejections.map (·.fault) :=
  faultSteps.statements ⟨none, topOrigin program starter, none, none⟩ 0 program.statements none

/-! ### Several readings of one statement -/

/-- A list has no leading construct exactly if it is empty. -/
theorem leading?_eq_none_iff {candidates : List Construct} :
    Construct.leading? candidates = none ↔ candidates = [] := by
  cases candidates with
  | nil => exact iff_of_true rfl rfl
  | cons c rest =>
    rw [Construct.leading?]
    cases Construct.leading? rest with
    | none => simp
    | some d => by_cases h : d.rank < c.rank <;> simp [h]

/-- The construct is the first one by precedence: none before it in the list has a rank as small as
    its own, and none behind it has a smaller one. -/
def Leads (c : Construct) (candidates : List Construct) : Prop :=
  ∃ before after, candidates = before ++ c :: after ∧ (∀ x ∈ before, c.rank < x.rank) ∧
    ∀ x ∈ after, c.rank ≤ x.rank

theorem leads_of_leading? {candidates : List Construct} {c : Construct}
    (h : Construct.leading? candidates = some c) : Leads c candidates := by
  induction candidates generalizing c with
  | nil => cases h
  | cons x rest ih =>
    rw [Construct.leading?] at h
    cases hrest : Construct.leading? rest with
    | none =>
      rw [hrest] at h
      cases h
      rw [leading?_eq_none_iff.mp hrest]
      exact ⟨[], [], rfl, by simp, by simp⟩
    | some d =>
      simp only [hrest] at h
      obtain ⟨before, after, heq, hbefore, hafter⟩ := ih hrest
      by_cases hlt : d.rank < x.rank
      · rw [if_pos hlt] at h
        cases h
        refine ⟨x :: before, after, by rw [heq, List.cons_append], ?_, hafter⟩
        exact List.forall_mem_cons.mpr ⟨hlt, hbefore⟩
      · rw [if_neg hlt] at h
        cases h
        have hle : x.rank ≤ d.rank := Nat.le_of_not_lt hlt
        refine ⟨[], rest, rfl, by simp, ?_⟩
        -- the rest is led by a construct that is no stronger
        intro y hy
        rw [heq] at hy
        rcases List.mem_append.mp hy with hy | hy
        · exact Nat.le_trans hle (Nat.le_of_lt (hbefore y hy))
        · rcases List.mem_cons.mp hy with rfl | hy
          · exact hle
          · exact Nat.le_trans hle (hafter y hy)

/-- A statement with several readings has the construct that comes first by precedence, and none
    only if it has no reading. -/
theorem construct?_ofCandidates (candidates : List Construct) (span : Span) (text : String) :
    match (Statement.ofCandidates candidates span text).construct? with
    | some c => Leads c candidates
    | none => candidates = [] := by
  unfold Statement.ofCandidates
  cases h : Construct.leading? candidates with
  | some c => exact leads_of_leading? h
  | none => exact leading?_eq_none_iff.mp h

/-! ### The result -/

/-- **Exactly the statements that cannot be interpreted are rejected, and nothing else is lost.** In
    every list of statements that is entered, each statement becomes one node, in the same order; it
    is rejected if and only if it has no construct, or one that cannot be interpreted there, and it
    becomes what its construct stands for if not. Inside of a call means that some node around it
    opens a bar. The lists have all nodes of the document, and the construct of a statement with
    several readings is the first one by precedence. -/
theorem rejected_iff_uninterpretable (program : Program) (starter : Option String) :
    let d := (interpret program starter).document
    (∀ inCall ss ns, Entered program.statements d.nodes inCall ss ns →
      List.Forall₂ (·.Becomes inCall ·) ss ns ∧
        ∀ n ∈ ns, inCall = false ↔ ∀ a ∈ d.ancestors n.id, d.activation? a = none) ∧
    (∀ x ∈ d.places, ∃ inCall ss ns, Entered program.statements d.nodes inCall ss ns ∧
      x.node ∈ ns) ∧
    ∀ candidates span text, match (Statement.ofCandidates candidates span text).construct? with
      | some c => Leads c candidates
      | none => candidates = [] := by
  intro d
  have hd : d.WellIndexed := interpret_wellIndexed program starter
  have htop : IsReading false program.statements d.nodes := isReading_interpret program starter
  refine ⟨fun inCall ss ns h => ⟨?_, ?_⟩, Entered.covers program starter, construct?_ofCandidates⟩
  · exact (h.isReading htop).forall₂_becomes
  · intro n hn
    exact h.outside_iff hd htop hn

/-- A statement that is rejected leaves those around it alone, and a call without a receiver is
    rejected at the top only. -/
example : (interpret (parse "m()\nA.m \x7b b =\n m() \x7d") none).document.places.map
    (fun x => (x.around, x.node.rejected?.map (·.reason))) =
      [(none, some (.missingReceiver "m()")), (none, none), (some 1, some .missingMethod),
        (some 1, none)] := by
  decide +kernel

end SequenceDiagram
