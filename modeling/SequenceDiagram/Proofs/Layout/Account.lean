import SequenceDiagram.Proofs.Document.Rejection
import SequenceDiagram.Proofs.Layout.Afresh

namespace SequenceDiagram

open Syntax

/-!
# The account of a layout

Whatever a document has is found in its layout once: placed, reported as having no place, or
reported as not understood.

* `Dealt` pairs elements with what was made of them: an entry, or else a diagnostic.
* `dealt_map`: the results of a layout, one for each element, fall apart into such pairs.
* `Dealt.diagnostics_eq_nil_iff`: no diagnostic is left exactly if the entries have the keys of all
  elements.
* `interpret_ids_increase`: the walks over a document meet the nodes by their numbers.
* `layout_accounts_for_document` is the balance of a whole layout.
-/

/-! ### Elements, entries and diagnostics -/

/-- Each element has an entry, or else a diagnostic, and both are in the order of the elements. -/
inductive Dealt {α β : Type} (entry : α → β → Prop) (report : α → Diagnostic → Prop) :
    List α → List β → List Diagnostic → Prop
  | nil : Dealt entry report [] [] []
  | placed {x : α} {xs : List α} {y : β} {ys : List β} {ds : List Diagnostic} : entry x y →
      Dealt entry report xs ys ds → Dealt entry report (x :: xs) (y :: ys) ds
  | reported {x : α} {xs : List α} {ys : List β} {d : Diagnostic} {ds : List Diagnostic} :
      report x d → Dealt entry report xs ys ds → Dealt entry report (x :: xs) ys (d :: ds)

namespace Dealt

variable {α β κ : Type} {entry : α → β → Prop} {report : α → Diagnostic → Prop} {xs : List α}
  {ys : List β} {ds : List Diagnostic}

theorem length_eq (h : Dealt entry report xs ys ds) : xs.length = ys.length + ds.length := by
  induction h with
  | nil => rfl
  | placed _ _ ih =>
    rw [List.length_cons, List.length_cons, ih]
    omega
  | reported _ _ ih =>
    rw [List.length_cons, List.length_cons, ih]
    omega

/-- Without diagnostics, the entries have the keys of the elements. -/
theorem map_eq (left : α → κ) (right : β → κ) (hkey : ∀ x y, entry x y → right y = left x)
    (h : Dealt entry report xs ys ds) (hds : ds = []) : ys.map right = xs.map left := by
  induction h with
  | nil => rfl
  | placed hentry _ ih => rw [List.map_cons, List.map_cons, hkey _ _ hentry, ih hds]
  | reported => cases hds

/-- There is no diagnostic exactly if the entries have the keys of all elements. -/
theorem diagnostics_eq_nil_iff (left : α → κ) (right : β → κ)
    (hkey : ∀ x y, entry x y → right y = left x) (h : Dealt entry report xs ys ds) :
    ds = [] ↔ ys.map right = xs.map left := by
  constructor
  · intro hds
    exact h.map_eq left right hkey hds
  · intro heq
    have hlength : ys.length = xs.length := by
      simpa only [List.length_map] using congrArg List.length heq
    rw [h.length_eq] at hlength
    exact List.length_eq_zero_iff.mp (by omega)

/-- What is known of the elements of the list can be added to what their diagnostics say. -/
theorem imp {report' : α → Diagnostic → Prop} (h : Dealt entry report xs ys ds)
    (himp : ∀ x ∈ xs, ∀ d, report x d → report' x d) : Dealt entry report' xs ys ds := by
  induction h with
  | nil => exact .nil
  | placed hentry _ ih => exact .placed hentry (ih (List.forall_mem_cons.mp himp).2)
  | reported hreport _ ih =>
    obtain ⟨hfirst, hothers⟩ := List.forall_mem_cons.mp himp
    exact .reported (hfirst _ hreport) (ih hothers)

end Dealt

/-- Results, one for each element, fall apart into entries and diagnostics. -/
theorem dealt_map {α β : Type} {f : α → Except Diagnostic β} {entry : α → β → Prop}
    {report : α → Diagnostic → Prop} (hok : ∀ x y, f x = .ok y → entry x y)
    (herror : ∀ x d, f x = .error d → report x d) (xs : List α) :
    Dealt entry report xs (placed (xs.map f)) (unplaced (xs.map f)) := by
  induction xs with
  | nil => exact .nil
  | cons x rest ih =>
    rw [List.map_cons]
    cases hx : f x with
    | ok y => exact .placed (hok x y hx) ih
    | error d => exact .reported (herror x d hx) ih

/-! ### Messages and fragments -/

/-- A diagnostic is about what stands at some place of the source. -/
def Diagnostic.Points (source : Span) (d : Diagnostic) : Prop :=
  d.line = source.line ∧ d.column = source.column

/-- The entry keeps the number and the kind of the message. -/
def MessageLayout.Keeps (m : Message) (l : MessageLayout) : Prop := l.id = m.id ∧ l.kind = m.kind

/-- The entry keeps the number and the kind of the fragment. -/
def FragmentLayout.Keeps (f : FragmentTree) (l : FragmentLayout) : Prop :=
  l.id = f.fragment.id ∧ l.kind = f.fragment.kind

section Parts

variable (measure : TextMeasure) (config : LayoutConfig) (c : Coordinates) (d : Document)

/-- A message is placed with its number and its kind, or reported at its place in the source. -/
theorem dealt_messages (messages : List Message) :
    Dealt MessageLayout.Keeps (fun m => Diagnostic.Points m.source) messages
      (placed (messages.map (messageLayout measure config c d)))
      (unplaced (messages.map (messageLayout measure config c d))) := by
  apply dealt_map
  · intro m l hl
    rw [messageLayout_eq] at hl
    cases hof : MessageLayout.of c config m
        ⟨d.depth m.id m.origin, d.depth m.id m.sender, d.depth m.id m.receiver⟩ with
    | error reason =>
      rw [hof] at hl
      cases hl
    | ok l' =>
      rw [hof] at hl
      cases hl
      obtain ⟨_, _, _, _, _, _, rfl⟩ := MessageLayout.exists_anchors hof
      exact ⟨rfl, rfl⟩
  · intro m e he
    rw [messageLayout_eq] at he
    cases hof : MessageLayout.of c config m
        ⟨d.depth m.id m.origin, d.depth m.id m.sender, d.depth m.id m.receiver⟩ with
    | error reason =>
      rw [hof] at he
      cases he
      exact ⟨rfl, rfl⟩
    | ok l =>
      rw [hof] at he
      cases he

/-- A fragment is placed with its number and its kind, or reported at its place in the source. -/
theorem dealt_fragments (fragments : List FragmentTree) :
    Dealt FragmentLayout.Keeps (fun f => Diagnostic.Points f.fragment.source) fragments
      (placed (fragments.map (fragmentLayout measure config c d)))
      (unplaced (fragments.map (fragmentLayout measure config c d))) := by
  apply dealt_map
  · intro f l hl
    obtain ⟨conditionWidth, heq⟩ := fragmentLayout_eq measure config c d f
    rw [heq] at hl
    cases hof : FragmentBox.of c config f (d.depth f.fragment.id f.fragment.origin) with
    | error reason =>
      rw [hof] at hl
      cases hl
    | ok box =>
      rw [hof] at hl
      cases hl
      exact ⟨rfl, rfl⟩
  · intro f e he
    obtain ⟨conditionWidth, heq⟩ := fragmentLayout_eq measure config c d f
    rw [heq] at he
    cases hof : FragmentBox.of c config f (d.depth f.fragment.id f.fragment.origin) with
    | error reason =>
      rw [hof] at he
      cases he
      exact ⟨rfl, rfl⟩
    | ok box =>
      rw [hof] at he
      cases he

end Parts

/-- The diagnostics of a layout are those of the messages, and then those of the fragments. -/
theorem exists_dealt (measure : TextMeasure) (config : LayoutConfig) (source : String)
    (version : Nat) (starter : Option String) :
    let d := (interpret (parse source) starter).document
    let l := computeLayout measure config source version starter
    ∃ forMessages forFragments, l.diagnostics = forMessages ++ forFragments ∧
      Dealt MessageLayout.Keeps (fun m => Diagnostic.Points m.source) d.messages l.messages
        forMessages ∧
      Dealt FragmentLayout.Keeps (fun f => Diagnostic.Points f.fragment.source) d.fragments
        l.fragments forFragments := by
  intro d l
  have hlayout : l = _ := computeLayout_eq measure config source version starter
  rw [hlayout]
  exact ⟨_, _, rfl, dealt_messages measure config _ _ d.messages,
    dealt_fragments measure config _ _ d.fragments⟩

/-- The faults of a layout are those of the rejected nodes. -/
theorem faults_computeLayout (measure : TextMeasure) (config : LayoutConfig) (source : String)
    (version : Nat) (starter : Option String) :
    (computeLayout measure config source version starter).faults =
      (interpret (parse source) starter).document.rejections.map (·.fault) := by
  rw [computeLayout_eq]
  exact faults_interpret (parse source) starter

/-! ### The order of the document -/

/-- The rejected nodes, the messages and the fragments of a document go by their numbers. -/
theorem interpret_ids_increase (program : Program) (starter : Option String) :
    let d := (interpret program starter).document
    (d.rejections.map (·.id)).Pairwise (· < ·) ∧ (d.messages.map (·.id)).Pairwise (· < ·) ∧
      (d.fragments.map (·.fragment.id)).Pairwise (· < ·) := by
  intro d
  have hd : d.WellIndexed := interpret_wellIndexed program starter
  refine ⟨hd.ids_increase fun n x h => ?_, hd.messages_increase, hd.fragments_increase⟩
  rw [Node.rejected?_eq_some.mp h]
  rfl

/-! ### The balance -/

/-- **Nothing is lost or reported twice.** The errors of a layout are the rejected nodes of its
    document in their order, one text for each. Each message has one entry or one diagnostic, and so
    has each fragment; the entries keep the order, the numbers and the kinds, and the diagnostics
    are those of the messages before those of the fragments. All of this goes by the numbers of the
    nodes, which increase. The layout is a success exactly if no node is rejected and everything is
    placed. -/
theorem layout_accounts_for_document (measure : TextMeasure) (config : LayoutConfig)
    (source : String) (version : Nat) (starter : Option String) :
    let d := (interpret (parse source) starter).document
    let l := computeLayout measure config source version starter
    (l.errors = d.rejections.map fun x => toString x.source.line ++ ":" ++
      toString x.source.column ++ " " ++ x.reason.message) ∧
    (∃ forMessages forFragments, l.diagnostics = forMessages ++ forFragments ∧
      Dealt MessageLayout.Keeps (fun m => Diagnostic.Points m.source) d.messages l.messages
        forMessages ∧
      Dealt FragmentLayout.Keeps (fun f => Diagnostic.Points f.fragment.source) d.fragments
        l.fragments forFragments) ∧
    ((d.rejections.map (·.id)).Pairwise (· < ·) ∧ (d.messages.map (·.id)).Pairwise (· < ·) ∧
      (d.fragments.map (·.fragment.id)).Pairwise (· < ·)) ∧
    (l.success = true ↔ d.rejections = [] ∧ l.messages.map (·.id) = d.messages.map (·.id) ∧
      l.fragments.map (·.id) = d.fragments.map (·.fragment.id)) := by
  intro d l
  have hfaults : l.faults = d.rejections.map (·.fault) :=
    faults_computeLayout measure config source version starter
  obtain ⟨forMessages, forFragments, hdiagnostics, hmessages, hfragments⟩ :=
    exists_dealt measure config source version starter
  refine ⟨?_, ⟨forMessages, forFragments, hdiagnostics, hmessages, hfragments⟩, ?_, ?_⟩
  · show l.faults.map _ = _
    rw [hfaults, List.map_map]
    rfl
  · exact interpret_ids_increase (parse source) starter
  · -- no fault and no diagnostic, of either kind
    show (l.faults.isEmpty && l.diagnostics.isEmpty) = true ↔ _
    rw [Bool.and_eq_true, List.isEmpty_iff, List.isEmpty_iff, hfaults, List.map_eq_nil_iff,
      hdiagnostics, List.append_eq_nil_iff,
      hmessages.diagnostics_eq_nil_iff (·.id) (·.id) fun m e h => h.1,
      hfragments.diagnostics_eq_nil_iff (·.fragment.id) (·.id) fun f e h => h.1]

end SequenceDiagram
