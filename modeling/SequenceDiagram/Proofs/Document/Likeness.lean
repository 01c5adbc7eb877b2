import SequenceDiagram.Document.Queries
import SequenceDiagram.Proofs.Participant.Likeness

namespace SequenceDiagram

open Syntax

/-!
# Documents of programs that are alike

The **outline** of a document has no offsets and no source texts. Nothing else in a document depends
on what programs that are alike may differ in.

* `Node.outline`, and how the queries on nodes commute with it.
* `outline_interpret`: programs that are alike have the same outline, the same table and the same
  faults.
-/

/-! ### Outlines -/

/-- The line and the column where a span starts. -/
def Span.place (s : Span) : Span := ⟨0, 0, s.line, s.column⟩

theorem Span.SamePlace.place {s t : Span} (h : s.SamePlace t) : s.place = t.place := by
  rw [Span.place, Span.place, h.1, h.2]

/-- The message without offsets. -/
def Message.outline (m : Message) : Message := { m with source := m.source.place }

/-- The fragment without offsets. -/
def Fragment.outline (f : Fragment) : Fragment := { f with source := f.source.place }

mutual

/-- The node without offsets and without source texts. -/
def Node.outline : Node → Node
  | .message m body => .message m.outline (outlineOf body)
  | .fragment f sections => .fragment f.outline (outlineIn sections)
  | .divider id note _ => .divider id note .nowhere
  | .rejected r => .rejected ⟨r.id, r.reason, "", .nowhere, ⟨none, none, none⟩⟩

/-- The nodes without offsets and without source texts. -/
def outlineOf : List Node → List Node
  | [] => []
  | n :: rest => n.outline :: outlineOf rest

/-- The sections without offsets and without source texts. -/
def outlineIn : List Section → List Section
  | [] => []
  | .mk label condition body :: rest => .mk label condition (outlineOf body) :: outlineIn rest

end

/-- The fragment and its sections without offsets and without source texts. -/
def FragmentTree.outline (f : FragmentTree) : FragmentTree :=
  ⟨f.fragment.outline, outlineIn f.sections⟩

/-- The document without offsets and without source texts. -/
def Document.outline (d : Document) : Document := { d with nodes := outlineOf d.nodes }

/-! ### Queries on outlines -/

theorem namesSteps_outline : Node.Steps (fun n => n.outline.names = n.names)
    (fun ns => namesOf (outlineOf ns) = namesOf ns)
    (fun ss => (outlineIn ss).flatMap (fun s => namesOf s.body) =
      ss.flatMap fun s => namesOf s.body) where
  message m body hbody := congrArg (m.sender :: m.receiver :: ·) hbody
  fragment f sections _ := rfl
  divider id note source := rfl
  rejected r := rfl
  nil := rfl
  cons n rest hn hrest := by rw [outlineOf, namesOf, namesOf, hn, hrest]
  noSection := rfl
  inSection label condition body rest hbody hrest := by
    rw [outlineIn, List.flatMap_cons, List.flatMap_cons, hrest]
    exact congrArg (· ++ _) hbody

theorem messagesSteps_outline : Node.Steps (fun n => n.outline.messages = n.messages.map (·.outline))
    (fun ns => messagesOf (outlineOf ns) = (messagesOf ns).map (·.outline))
    (fun ss => messagesIn (outlineIn ss) = (messagesIn ss).map (·.outline)) where
  message m body hbody := congrArg (m.outline :: ·) hbody
  fragment f sections hsections := hsections
  divider id note source := rfl
  rejected r := rfl
  nil := rfl
  cons n rest hn hrest := by rw [outlineOf, messagesOf, messagesOf, hn, hrest, List.map_append]
  noSection := rfl
  inSection label condition body rest hbody hrest := by
    rw [outlineIn, messagesIn, messagesIn, hbody, hrest, List.map_append]

theorem fragmentsSteps_outline :
    Node.Steps (fun n => n.outline.fragments = n.fragments.map (·.outline))
    (fun ns => fragmentsOf (outlineOf ns) = (fragmentsOf ns).map (·.outline))
    (fun ss => fragmentsIn (outlineIn ss) = (fragmentsIn ss).map (·.outline)) where
  message m body hbody := hbody
  fragment f sections hsections :=
    congrArg ((⟨f.outline, outlineIn sections⟩ : FragmentTree) :: ·) hsections
  divider id note source := rfl
  rejected r := rfl
  nil := rfl
  cons n rest hn hrest := by rw [outlineOf, fragmentsOf, fragmentsOf, hn, hrest, List.map_append]
  noSection := rfl
  inSection label condition body rest hbody hrest := by
    rw [outlineIn, fragmentsIn, fragmentsIn, hbody, hrest, List.map_append]

theorem levelsSteps_outline : Node.Steps (fun n => n.outline.levels = n.levels)
    (fun ns => levelsOf (outlineOf ns) = levelsOf ns)
    (fun ss => nestingLevels (outlineIn ss) = nestingLevels ss) where
  message m body hbody := hbody
  fragment f sections hsections := congrArg (· + 1) hsections
  divider id note source := rfl
  rejected r := rfl
  nil := rfl
  cons n rest hn hrest := by rw [outlineOf, levelsOf, levelsOf, hn, hrest]
  noSection := rfl
  inSection label condition body rest hbody hrest := by
    rw [outlineIn, nestingLevels, nestingLevels, hbody, hrest]

namespace Document

theorem messages_outline (d : Document) : d.outline.messages = d.messages.map (·.outline) :=
  messagesSteps_outline.nodes d.nodes

theorem fragments_outline (d : Document) : d.outline.fragments = d.fragments.map (·.outline) :=
  fragmentsSteps_outline.nodes d.nodes

end Document

theorem nestingLevels_outline (ss : List Section) : nestingLevels (outlineIn ss) = nestingLevels ss :=
  levelsSteps_outline.sections ss

/-- The outline of a fragment is a fragment of outlines. -/
theorem outline_fragment (frame : Frame) (id : NodeId) (kind : FragmentKind) (source : Span)
    (sections : List Section) (others : List String) :
    (frame.fragment id kind source sections others).outline =
      frame.fragment id kind source.place (outlineIn sections) others := by
  unfold Frame.fragment
  rw [namesSteps_outline.sections sections]
  rfl

/-! ### Messages -/

section Messages

variable {t : String → String → Prop}

theorem SameDisplay.displayOf {s u : Option Token} (h : SameDisplay s u) :
    SequenceDiagram.displayOf s = SequenceDiagram.displayOf u := congrArg (·.filter (· ≠ "")) h

theorem Variable.of_congr {a b : Option Assignment} (h : Option.Rel Assignment.Alike a b) :
    Variable.of a = Variable.of b := by
  unfold Variable.of
  rw [(Assignment.Alike.assignee h).text?, (Assignment.Alike.type h).text?]

theorem callSignature_congr {c d : Call} (h : c.Alike LooksLike d) :
    callSignature c = callSignature d := by
  unfold callSignature
  rw [h.method.text?]
  rcases rel_cases h.arguments with ⟨hc, hd⟩ | ⟨a, b, hc, hd, htext⟩
  · rw [hc, hd]
  · rw [hc, hd]
    exact congrArg (Option.map · _) (funext htext.asArguments)

namespace Frame

variable (frame : Frame) (id : NodeId)

theorem call_congr {c d : Call} (h : c.Alike LooksLike d) (hspan : c.span.SamePlace d.span) :
    (frame.call id c).map (·.outline) = (frame.call id d).map (·.outline) := by
  unfold Frame.call
  rw [callSignature_congr h, h.receiver.text?, h.sender.text?, Variable.of_congr h.assignment]
  cases callSignature d with
  | none => rfl
  | some signature =>
    cases (Token.text? d.receiver).or frame.owner with
    | none => rfl
    | some receiver =>
      simp only [Except.map, Message.outline, hspan.place]

theorem creation_congr {c d : Creation} (h : c.Alike LooksLike d)
    (hspan : c.span.SamePlace d.span) :
    (frame.creation id c).map (·.outline) = (frame.creation id d).map (·.outline) := by
  have harguments : (c.arguments.map fun a => displayText a.text) =
      d.arguments.map fun a => displayText a.text := by
    rcases rel_cases h.arguments with ⟨hc, hd⟩ | ⟨a, b, hc, hd, htext⟩
    · rw [hc, hd]
    · rw [hc, hd]
      exact congrArg some htext.alone
  unfold Frame.creation
  rw [h.constructor.text?, harguments, Variable.of_congr h.assignment]
  cases Token.text? d.constructor with
  | none => rfl
  | some constructor =>
    simp only [Except.map, Message.outline, hspan.place, creationName_congr h.assignment]

theorem asyncMessage_congr {m n : AsyncMessage} (h : m.Alike n)
    (hspan : m.span.SamePlace n.span) :
    (frame.asyncMessage id m).map (·.outline) = (frame.asyncMessage id n).map (·.outline) := by
  unfold Frame.asyncMessage
  rw [h.receiver.text?, h.sender.text?, h.content.displayOf]
  cases Token.text? n.receiver with
  | none => rfl
  | some receiver => simp only [Except.map, Message.outline, hspan.place]

theorem ret_congr {r s : Return} (h : r.Alike s) (hspan : r.span.SamePlace s.span) :
    (frame.ret id r).outline = (frame.ret id s).outline := by
  unfold Frame.ret
  rcases rel_cases h.message with ⟨hr, hs⟩ | ⟨m, n, hr, hs, hm⟩
  · rw [hr, hs]
    simp only [Message.outline, hspan.place, h.expression.displayOf]
  · rw [hr, hs]
    simp only [Message.outline, hspan.place, Option.bind_some, hm.sender.text?, hm.receiver.text?,
      hm.content.displayOf]

/-- The frame of a body says nothing about offsets. -/
theorem within_congr {m n : Message} (h : m.outline = n.outline) : within m = within n := by
  show within m.outline = within n.outline
  rw [h]

end Frame

/-- Two messages have the same outline, or there is the same reason for which they are none. -/
theorem outline_cases {x y : Except Rejection Message}
    (h : x.map (·.outline) = y.map (·.outline)) :
    (∃ reason, x = .error reason ∧ y = .error reason) ∨
      ∃ m n, x = .ok m ∧ y = .ok n ∧ m.outline = n.outline := by
  cases x with
  | error reason =>
    cases y with
    | error other =>
      cases h
      exact .inl ⟨reason, rfl, rfl⟩
    | ok n => cases h
  | ok m =>
    cases y with
    | error other => cases h
    | ok n => exact .inr ⟨m, n, rfl, rfl, Except.ok.inj h⟩

end Messages

/-! ### Readings -/

/-- Two readings have the same table and the same faults, and their values have the same outline. -/
structure Reading.Agrees {α β : Type} (outline : α → β) (x y : Reading α) : Prop where
  value : outline x.value = outline y.value
  entries : x.entries = y.entries
  faults : x.faults = y.faults

namespace Reading.Agrees

theorem nothing {α β : Type} (outline : List α → β) :
    Agrees outline (.nothing : Reading (List α)) .nothing := ⟨rfl, rfl, rfl⟩

theorem cons {x y : Reading Node} {xs ys : Reading (List Node)} (h : Agrees Node.outline x y)
    (hrest : Agrees outlineOf xs ys) : Agrees outlineOf (x.cons xs) (y.cons ys) where
  value := by
    show x.value.outline :: outlineOf xs.value = y.value.outline :: outlineOf ys.value
    rw [h.value, hrest.value]
  entries := by
    show x.entries ++ xs.entries = y.entries ++ ys.entries
    rw [h.entries, hrest.entries]
  faults := by
    show x.faults ++ xs.faults = y.faults ++ ys.faults
    rw [h.faults, hrest.faults]

/-- A section in front of others. -/
theorem consSection {x y : Reading (List Node)} {xs ys : Reading (List Section)}
    (h : Agrees outlineOf x y) (hrest : Agrees outlineIn xs ys) (label : String)
    (condition : Option String) :
    Agrees outlineIn (.cons ⟨.mk label condition x.value, x.entries, x.faults⟩ xs)
      (.cons ⟨.mk label condition y.value, y.entries, y.faults⟩ ys) where
  value := by
    show Section.mk label condition (outlineOf x.value) :: outlineIn xs.value =
      Section.mk label condition (outlineOf y.value) :: outlineIn ys.value
    rw [h.value, hrest.value]
  entries := by
    show x.entries ++ xs.entries = y.entries ++ ys.entries
    rw [h.entries, hrest.entries]
  faults := by
    show x.faults ++ xs.faults = y.faults ++ ys.faults
    rw [h.faults, hrest.faults]

theorem node {α β : Type} {outline : α → β} {x y : Reading α} {make other : α → Node}
    (h : Agrees outline x y) (entry : Entry)
    (hmake : outline x.value = outline y.value →
      (make x.value).outline = (other y.value).outline) :
    Agrees Node.outline (.node entry x make) (.node entry y other) where
  value := hmake h.value
  entries := congrArg (entry :: ·) h.entries
  faults := h.faults

theorem leaf {n m : Node} (entry : Entry) (h : n.outline = m.outline) :
    Agrees Node.outline (.leaf entry n) (.leaf entry m) := ⟨h, rfl, rfl⟩

/-- Two statements in the same place are rejected in the same way. -/
theorem reject {s u : Statement} (frame : Frame) (id : NodeId) (reason : Rejection)
    (h : s.span.SamePlace u.span) :
    Agrees Node.outline (frame.reject id s reason) (frame.reject id u reason) where
  value := rfl
  entries := rfl
  faults := by
    show [Fault.mk s.span.line s.span.column reason] = [Fault.mk u.span.line u.span.column reason]
    rw [h.1, h.2]

/-- A message with its body. -/
theorem opening {m n : Message} {x y : Reading (List Node)} (frame : Frame)
    (houtline : m.outline = n.outline) (h : Agrees outlineOf x y) :
    Agrees Node.outline (.node ⟨frame.parent, some m.receiver⟩ x (.message m))
      (.node ⟨frame.parent, some n.receiver⟩ y (.message n)) := by
  rw [show m.receiver = n.receiver from congrArg (·.receiver) houtline]
  refine h.node _ fun hvalue => ?_
  show Node.message m.outline _ = Node.message n.outline _
  rw [houtline, hvalue]

end Reading.Agrees

/-- The statements of programs that are alike are read alike in every frame. -/
theorem readingSteps_alike : Syntax.Steps
    (fun s => ∀ u (frame : Frame) id, Statement.Alike LooksLike s u →
      Reading.Agrees Node.outline (frame.statement id s) (frame.statement id u))
    (fun ss => ∀ us (frame : Frame) next, Statements.Alike LooksLike ss us →
      Reading.Agrees outlineOf (frame.statements next ss) (frame.statements next us))
    (fun bs => ∀ cs (frame : Frame) next kind, Branches.Alike LooksLike bs cs →
      Reading.Agrees outlineIn (frame.branches next kind bs) (frame.branches next kind cs)) where
  unrecognized span text u frame id h := by
    cases h with
    | unrecognized hspan => exact .reject frame id _ hspan
  call c body span text hbody u frame id h := by
    cases h with
    | recognized h hconstruct hspan =>
      cases h with
      | call h hinner =>
        simp only [Frame.statement, Frame.construct, Frame.block_eq]
        rcases outline_cases (frame.call_congr id h hconstruct) with
          ⟨reason, hx, hy⟩ | ⟨m, n, hx, hy, houtline⟩
        · rw [hx, hy]
          exact .reject frame id reason hspan
        · rw [hx, hy]
          dsimp only
          rw [Frame.within_congr houtline]
          exact .opening frame houtline (hbody _ _ _ hinner.statements)
  creation c body span text hbody u frame id h := by
    cases h with
    | recognized h hconstruct hspan =>
      cases h with
      | creation h hinner =>
        simp only [Frame.statement, Frame.construct, Frame.block_eq]
        rcases outline_cases (frame.creation_congr id h hconstruct) with
          ⟨reason, hx, hy⟩ | ⟨m, n, hx, hy, houtline⟩
        · rw [hx, hy]
          exact .reject frame id reason hspan
        · rw [hx, hy]
          dsimp only
          rw [Frame.within_congr houtline]
          exact .opening frame houtline (hbody _ _ _ hinner.statements)
  asyncMessage m span text u frame id h := by
    cases h with
    | recognized h hconstruct hspan =>
      cases h with
      | asyncMessage h =>
        simp only [Frame.statement, Frame.construct]
        rcases outline_cases (frame.asyncMessage_congr id h hconstruct) with
          ⟨reason, hx, hy⟩ | ⟨m, n, hx, hy, houtline⟩
        · rw [hx, hy]
          exact .reject frame id reason hspan
        · rw [hx, hy]
          exact .leaf _ (congrArg (Node.message · []) houtline)
  ret r span text u frame id h := by
    cases h with
    | recognized h hconstruct hspan =>
      cases h with
      | ret h => exact .leaf _ (congrArg (Node.message · []) (frame.ret_congr id h hconstruct))
  divider d span text u frame id h := by
    cases h with
    | recognized h hconstruct hspan =>
      cases h with
      | @divider _ e h =>
        refine .leaf _ ?_
        show Node.divider id ((displayOf d.note).getD "") _ =
          Node.divider id ((displayOf e.note).getD "") _
        rw [h.displayOf]
  reference r span text u frame id h := by
    cases h with
    | recognized h hconstruct hspan =>
      cases h with
      | @reference _ s h =>
        refine .leaf _ ?_
        have hplace : r.span.place = s.span.place := hconstruct.place
        have hhead := congrArg List.head? h
        have htail := congrArg List.tail h
        rw [List.head?_map, List.head?_map] at hhead
        rw [← List.map_tail, ← List.map_tail] at htail
        unfold Frame.reference
        rw [outline_fragment, outline_fragment, hplace, hhead, htail]
  block kind bs inner span text hbs u frame id h := by
    cases h with
    | recognized h hconstruct hspan =>
      cases h with
      | @block _ _ cs _ other h =>
        refine (hbs cs (frame.inside id) (id + 1) kind h).node _ fun hvalue => ?_
        have hplace : inner.place = other.place := hconstruct.place
        show (frame.fragment id (.block kind) inner _ []).outline =
          (frame.fragment id (.block kind) other _ []).outline
        rw [outline_fragment, outline_fragment, hvalue, hplace]
  nil us frame next h := by
    cases h
    exact .nothing _
  cons s rest hs hrest us frame next h := by
    cases h with
    | cons h hothers =>
      have hfirst := hs _ frame next h
      simp only [Frame.statements]
      rw [hfirst.entries]
      exact hfirst.cons (hrest _ _ _ hothers)
  noBranch cs frame next kind h := by
    cases h
    exact .nothing _
  branch role guard body rest hbody hrest cs frame next kind h := by
    cases h with
    | @cons _ _ other _ inner _ cs hguard hinner hothers =>
      have hfirst := hbody _ frame next hinner.statements
      have hcondition : (guard.map fun c => displayText (unquote c.text.text)) =
          other.map fun c => displayText (unquote c.text.text) := by
        rcases rel_cases hguard with ⟨rfl, rfl⟩ | ⟨a, b, rfl, rfl, htext⟩
        · rfl
        · exact congrArg some htext.unquoted
      simp only [Frame.branches, Frame.branch, Frame.block_eq, hcondition]
      refine hfirst.consSection ?_ _ _
      rw [hfirst.entries]
      exact hrest _ _ _ _ hothers

/-! ### Programs -/

/-- Programs that are alike have the same starter. -/
theorem declaredStarter_congr {t : String → String → Prop} {p q : Program} (h : p.Alike t q) :
    p.declaredStarter?.map (·.text) = q.declaredStarter?.map (·.text) := by
  unfold Program.declaredStarter?
  rcases rel_cases h.head with ⟨hp, hq⟩ | ⟨x, y, hp, hq, hxy⟩
  · rw [hp, hq]
  · rw [hp, hq]
    exact hxy.starterName

/-- **Programs that are alike have the same document**, but for offsets and source texts, and the
    same faults. -/
theorem outline_interpret {p q : Program} (h : p.Alike LooksLike q) (starter : Option String) :
    (interpret p starter).document.outline = (interpret q starter).document.outline ∧
      (interpret p starter).faults = (interpret q starter).faults := by
  have heffective : effectiveStarter p starter = effectiveStarter q starter := by
    unfold effectiveStarter
    rw [declaredStarter_congr h]
  have hcollect := agrees_collect h starter
  have horigin : topOrigin p starter = topOrigin q starter := by
    unfold topOrigin
    dsimp only
    rw [heffective, hcollect.implicitSender, hcollect.orderedNames]
  have hreading := readingSteps_alike.statements _ _ ⟨none, topOrigin q starter, none, none⟩ 0
    h.statements
  unfold interpret
  rw [horigin, heffective]
  refine ⟨?_, hreading.faults⟩
  dsimp only [Document.outline]
  rw [hreading.value, hreading.entries]

end SequenceDiagram
