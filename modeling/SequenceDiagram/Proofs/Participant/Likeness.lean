import SequenceDiagram.Proofs.Participant.Collection
import SequenceDiagram.Proofs.Syntax.Likeness

namespace SequenceDiagram

open Syntax

/-!
# What programs that are alike say about their participants

The contexts collected from programs that are alike agree in everything but the places of the names.

* `Context.Agrees` compares contexts; there is one lemma for each step of the walk.
* `agrees_collect` is the walk over two programs that are alike.
* `Agrees.orderParticipants`: the lifelines are the same, in the same order.
-/

/-! ### Tokens with the same text -/

namespace SameText

variable {s t : Option Token}

theorem text? (h : SameText s t) : Token.text? s = Token.text? t :=
  congrArg (·.filter (· ≠ "")) h

theorem isNamed (h : SameText s t) : Token.isNamed s = Token.isNamed t := by
  rw [← Token.isSome_text?, ← Token.isSome_text?, h.text?]

theorem isNone (h : SameText s t) : s.isNone = t.isNone := by
  have hnone := congrArg Option.isNone h
  rwa [Option.isNone_map, Option.isNone_map] at hnone

end SameText

theorem Assignment.Alike.assignee {a b : Option Assignment}
    (h : Option.Rel Assignment.Alike a b) :
    SameText (a.bind (·.assignee)) (b.bind (·.assignee)) := by
  cases h with
  | none => rfl
  | some h => exact h.assignee

theorem Assignment.Alike.type {a b : Option Assignment} (h : Option.Rel Assignment.Alike a b) :
    SameText (a.bind (·.type)) (b.bind (·.type)) := by
  cases h with
  | none => rfl
  | some h => exact h.type

theorem creationName_congr {a b : Option Assignment} (h : Option.Rel Assignment.Alike a b)
    (constructor : String) : creationName a constructor = creationName b constructor := by
  unfold creationName
  rw [(Assignment.Alike.assignee h).text?]

/-! ### Records without places -/

/-- The record without the places of its name. -/
def Participant.unplaced (p : Participant) : Participant := { p with positions := [] }

/-- The mention without its place. -/
def Mention.unplaced (m : Mention) : Mention := { m with position := none }

/-- Records say the same but for the places of the names. -/
theorem entriesAfter_unplaced (entries : List Participant) (name : String) (m : Mention) :
    (Ledger.entriesAfter entries name m).map (·.unplaced) =
      Ledger.entriesAfter (entries.map (·.unplaced)) name m.unplaced := by
  have hnames : (entries.map (·.unplaced)).map (·.name) = entries.map (·.name) :=
    List.map_map.trans rfl
  unfold Ledger.entriesAfter
  rw [hnames]
  split
  · rw [List.map_map, List.map_map]
    refine List.map_congr_left fun p _ => ?_
    by_cases h : p.name = name
    · simp only [Function.comp, if_pos h, if_pos (show p.unplaced.name = name from h)]
      rfl
    · simp only [Function.comp, if_neg h, if_neg (show ¬p.unplaced.name = name from h)]
  · rw [List.map_append]
    rfl

namespace Context

/-- Two contexts differ at most in the places of the names. -/
structure Agrees (c d : Context) : Prop where
  entries : c.ledger.entries.map (·.unplaced) = d.ledger.entries.map (·.unplaced)
  starter : c.starter = d.starter
  implicitSender : c.implicitSender = d.implicitSender

namespace Agrees

variable {c d : Context}

theorem refl (c : Context) : c.Agrees c := ⟨rfl, rfl, rfl⟩

theorem mention (h : c.Agrees d) (name : String) {m n : Mention} (hm : m.unplaced = n.unplaced) :
    (c.mention name m).Agrees (d.mention name n) where
  entries := by
    show (Ledger.entriesAfter _ _ _).map _ = (Ledger.entriesAfter _ _ _).map _
    rw [entriesAfter_unplaced, entriesAfter_unplaced, h.entries, hm]
  starter := h.starter
  implicitSender := h.implicitSender

theorem use (h : c.Agrees d) {s t : Option Token} (ht : SameText s t) :
    (c.use s).Agrees (d.use t) := by
  rcases ht.cases with ⟨rfl, rfl⟩ | ⟨a, b, rfl, rfl, htext⟩
  · exact h
  · unfold Context.use
    by_cases hempty : b.text = ""
    · simpa [Option.filter, htext, hempty] using h
    · have hmention := h.mention b.text (m := .of a.span) (n := .of b.span) rfl
      simpa [Option.filter, htext, hempty] using hmention

theorem send (h : c.Agrees d) (inCall : Bool) {s t : Option Token} (ht : SameText s t) :
    (c.send inCall s).Agrees (d.send inCall t) := by
  unfold Context.send
  rw [ht.isNone]
  split
  · exact ⟨h.entries, h.starter, rfl⟩
  · exact h

/-! ### The head -/

theorem declare (h : c.Agrees d) (groupId : Option String) {x y : Declaration} (hxy : x.Alike y) :
    (c.declare groupId x).Agrees (d.declare groupId y) := by
  have hwidth : (x.width.bind fun w => Binary32.ofText? w.text) =
      y.width.bind fun w => Binary32.ofText? w.text := by
    have hbind := congrArg (·.bind Binary32.ofText?) hxy.width
    simp only [Option.bind_map] at hbind
    exact hbind
  have hlabel := hxy.label.sameDisplay
  have hstereotype := hxy.stereotype
  have htype := hxy.type.sameDisplay
  have hcolor := hxy.color.sameDisplay
  unfold SameDisplay at hlabel hstereotype htype hcolor
  unfold Context.declare
  dsimp only
  rw [hlabel, hstereotype, htype, hcolor, hwidth]
  rcases hxy.name.cases with ⟨hx, hy⟩ | ⟨a, b, hx, hy, htext⟩
  · rw [hx, hy]
    exact h
  · rw [hx, hy]
    dsimp only
    rw [htext]
    exact h.mention _ rfl

theorem members (h : c.Agrees d) (groupId : Option String) {xs ys : List Declaration}
    (hxs : List.Forall₂ Declaration.Alike xs ys) :
    (xs.foldl (·.declare groupId) c).Agrees (ys.foldl (·.declare groupId) d) := by
  induction hxs generalizing c d with
  | nil => exact h
  | cons hx _ ih => exact ih (h.declare groupId hx)

theorem headItem (h : c.Agrees d) {x y : HeadItem} (hxy : x.Alike y) :
    (c.headItem x).Agrees (d.headItem y) := by
  cases hxy with
  | participant hxy => exact h.declare none hxy
  | group hxy =>
    have hname := hxy.name
    unfold SameText at hname
    unfold Context.headItem
    dsimp only
    rw [hname]
    exact h.members _ hxy.members

theorem headItems (h : c.Agrees d) {xs ys : List HeadItem}
    (hxs : List.Forall₂ HeadItem.Alike xs ys) :
    (xs.foldl Context.headItem c).Agrees (ys.foldl Context.headItem d) := by
  induction hxs generalizing c d with
  | nil => exact h
  | cons hx _ ih => exact ih (h.headItem hx)

theorem start (h : c.Agrees d) (name : String) (p q : Option Span) :
    (c.start name p).Agrees (d.start name q) :=
  have hmention := h.mention name (m := { isStarter := true, position := p })
    (n := { isStarter := true, position := q }) rfl
  ⟨hmention.entries, rfl, hmention.implicitSender⟩

theorem head (h : c.Agrees d) (useStarter : Bool) {x y : Syntax.Head} (hxy : x.Alike y) :
    (c.head useStarter x).Agrees (d.head useStarter y) := by
  have hitems := h.headItems hxy.items
  unfold Context.head
  rcases hxy.starterName.cases with ⟨hx, hy⟩ | ⟨a, b, hx, hy, htext⟩
  · rw [hx, hy]
    exact hitems
  · rw [hx, hy]
    cases useStarter with
    | false => exact hitems
    | true =>
      simp only [Option.filter, if_true, htext]
      exact hitems.start _ _ _

/-! ### Statements -/

theorem asyncMessage (h : c.Agrees d) (inCall : Bool) {m n : AsyncMessage} (hm : m.Alike n) :
    (c.asyncMessage inCall m).Agrees (d.asyncMessage inCall n) := by
  unfold Context.asyncMessage
  rw [hm.receiver.isNamed]
  dsimp only
  split
  · exact ((h.send inCall hm.sender).use hm.sender).use hm.receiver
  · exact (h.use hm.sender).use hm.receiver

theorem call (h : c.Agrees d) (inCall : Bool) {t : String → String → Prop} {x y : Call}
    (hxy : x.Alike t y) : (c.call inCall x).Agrees (d.call inCall y) := by
  unfold Context.call
  rw [hxy.receiver.isNamed, hxy.method.isNamed]
  dsimp only
  split
  · exact ((h.send inCall hxy.sender).use hxy.sender).use hxy.receiver
  · exact (h.use hxy.sender).use hxy.receiver

theorem creation (h : c.Agrees d) (inCall : Bool) {t : String → String → Prop} {x y : Creation}
    (hxy : x.Alike t y) : (c.creation inCall x).Agrees (d.creation inCall y) := by
  have hsent : (if Token.isNamed x.constructor then c.send inCall none else c).Agrees
      (if Token.isNamed y.constructor then d.send inCall none else d) := by
    rw [hxy.constructor.isNamed]
    split
    · exact h.send inCall rfl
    · exact h
  unfold Context.creation
  rcases hxy.constructor.cases with ⟨hx, hy⟩ | ⟨a, b, hx, hy, htext⟩
  · rw [hx, hy] at hsent ⊢
    exact hsent
  · rw [hx, hy] at hsent ⊢
    dsimp only
    rw [htext, creationName_congr hxy.assignment]
    exact hsent.mention _ rfl

theorem ret (h : c.Agrees d) (inCall : Bool) {r s : Return} (hr : r.Alike s) :
    (c.ret inCall r).Agrees (d.ret inCall s) := by
  unfold Context.ret
  rcases rel_cases hr.message with ⟨hr, hs⟩ | ⟨m, n, hr, hs, hm⟩
  · rw [hr, hs]
    exact h.send inCall rfl
  · rw [hr, hs]
    exact h.asyncMessage inCall hm

theorem uses (h : c.Agrees d) {xs ys : List Token} (hxs : xs.map (·.text) = ys.map (·.text)) :
    (xs.foldl (fun context name => context.use (some name)) c).Agrees
      (ys.foldl (fun context name => context.use (some name)) d) := by
  induction xs generalizing c d ys with
  | nil =>
    obtain rfl := List.map_eq_nil_iff.mp hxs.symm
    exact h
  | cons x xs ih =>
    cases ys with
    | nil => cases hxs
    | cons y ys =>
      obtain ⟨hx, hxs⟩ := List.cons.inj hxs
      exact ih (h.use (show SameText (some x) (some y) from congrArg some hx)) hxs

theorem reference (h : c.Agrees d) {r s : Reference}
    (hr : r.names.map (·.text) = s.names.map (·.text)) :
    (c.reference r).Agrees (d.reference s) := by
  refine h.uses ?_
  rw [List.map_tail, hr, List.map_tail]

/-- The walks over statements that are alike keep in step. -/
theorem steps (t : String → String → Prop) : Syntax.Steps
    (fun s => ∀ u inCall c d, Statement.Alike t s u → Agrees c d →
      Agrees (statement inCall c s) (statement inCall d u))
    (fun ss => ∀ us inCall c d, Statements.Alike t ss us → Agrees c d →
      Agrees (statements inCall c ss) (statements inCall d us))
    (fun bs => ∀ cs inCall c d, Branches.Alike t bs cs → Agrees c d →
      Agrees (branches inCall c bs) (branches inCall d cs)) where
  unrecognized span text u inCall c d h hcd := by
    cases h
    exact hcd
  call x body span text hbody u inCall c d h hcd := by
    cases h with
    | recognized h _ _ =>
      cases h with
      | call h hinner =>
        simp only [statement, construct, block_eq]
        exact hbody _ _ _ _ hinner.statements (hcd.call inCall h)
  creation x body span text hbody u inCall c d h hcd := by
    cases h with
    | recognized h _ _ =>
      cases h with
      | creation h hinner =>
        simp only [statement, construct, block_eq]
        exact hbody _ _ _ _ hinner.statements (hcd.creation inCall h)
  asyncMessage m span text u inCall c d h hcd := by
    cases h with
    | recognized h _ _ =>
      cases h with
      | asyncMessage h => exact hcd.asyncMessage inCall h
  ret r span text u inCall c d h hcd := by
    cases h with
    | recognized h _ _ =>
      cases h with
      | ret h => exact hcd.ret inCall h
  divider x span text u inCall c d h hcd := by
    cases h with
    | recognized h _ _ =>
      cases h
      exact hcd
  reference r span text u inCall c d h hcd := by
    cases h with
    | recognized h _ _ =>
      cases h with
      | reference h => exact hcd.reference h
  block kind bs inner span text hbs u inCall c d h hcd := by
    cases h with
    | recognized h _ _ =>
      cases h with
      | block h => exact hbs _ _ _ _ h hcd
  nil us inCall c d h hcd := by
    cases h
    exact hcd
  cons s rest hs hrest us inCall c d h hcd := by
    cases h with
    | cons h hothers =>
      simp only [statements]
      exact hrest _ _ _ _ hothers (hs _ _ _ _ h hcd)
  noBranch cs inCall c d h hcd := by
    cases h
    exact hcd
  branch role guard body rest hbody hrest cs inCall c d h hcd := by
    cases h with
    | cons _ hinner hothers =>
      simp only [branches, branch, block_eq]
      exact hrest _ _ _ _ hothers (hbody _ _ _ _ hinner.statements hcd)

end Agrees

end Context

/-! ### Programs -/

/-- **Programs that are alike say the same about their participants**, but for the places. -/
theorem agrees_collect {t : String → String → Prop} {p q : Program} (h : p.Alike t q)
    (starter : Option String) : (collect p starter).Agrees (collect q starter) := by
  unfold collect
  refine (Context.Agrees.steps t).statements _ _ _ _ _ h.statements ?_
  rcases rel_cases h.head with ⟨hp, hq⟩ | ⟨x, y, hp, hq, hxy⟩
  · rw [hp, hq]
    exact .refl _
  · have hhead := fun useStarter => (Context.Agrees.refl .empty).head useStarter hxy
    rw [hp, hq]
    cases effectiveOverride starter with
    | none => exact hhead true
    | some name => exact (hhead false).start name none none

namespace Context.Agrees

variable {c d : Context}

/-- The record of a name, but for its places. -/
theorem get? (h : c.Agrees d) (name : String) :
    (c.ledger.get? name).map (·.unplaced) = (d.ledger.get? name).map (·.unplaced) := by
  have hfind : ∀ entries : List Participant, (entries.find? (·.name = name)).map (·.unplaced) =
      (entries.map (·.unplaced)).find? (·.name = name) := fun entries => by
    rw [List.find?_map]
    rfl
  rw [Ledger.get?, Ledger.get?, hfind, hfind, h.entries]

/-- The names of the records that are declared, and of the others. -/
theorem filter_names (h : c.Agrees d) (p : Bool → Bool) :
    (c.ledger.entries.filter fun e => p e.explicit).map (·.name) =
      (d.ledger.entries.filter fun e => p e.explicit).map (·.name) := by
  have hfilter : ∀ entries : List Participant,
      (entries.filter fun e => p e.explicit).map (·.name) =
        ((entries.map (·.unplaced)).filter fun e => p e.explicit).map (·.name) := fun entries => by
    rw [List.filter_map, List.map_map]
    rfl
  rw [hfilter, hfilter d.ledger.entries, h.entries]

theorem orderedNames (h : c.Agrees d) :
    SequenceDiagram.orderedNames c = SequenceDiagram.orderedNames d := by
  have hlead : leadingName? c = leadingName? d := by
    unfold leadingName?
    rw [h.starter, h.implicitSender]
    cases d.starter with
    | none => rfl
    | some starter =>
      have hany := congrArg (Option.any (·.explicit)) (h.get? starter)
      rw [Option.any_map, Option.any_map] at hany
      dsimp only
      rw [show (c.ledger.get? starter).any (·.explicit) = _ from hany]
      rfl
  unfold SequenceDiagram.orderedNames
  simp only [List.map_append]
  rw [hlead, h.filter_names (fun e => e), h.filter_names (fun e => !e)]

/-- The lifelines are the same. -/
theorem orderParticipants (h : c.Agrees d) :
    SequenceDiagram.orderParticipants c = SequenceDiagram.orderParticipants d := by
  unfold SequenceDiagram.orderParticipants
  rw [h.orderedNames]
  refine List.map_congr_left fun name _ => ?_
  have hlabel := congrArg (·.bind (·.label)) (h.get? name.1)
  simp only [Option.bind_map] at hlabel
  exact congrArg (OrderedParticipant.mk name.1 name.2) hlabel

end Context.Agrees

end SequenceDiagram
