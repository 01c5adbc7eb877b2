import SequenceDiagram.Proofs.Memory
import SequenceDiagram.Syntax.Program

namespace SequenceDiagram.DepthMemo

/-!
# Calls of one memo

One memo of depths is asked about any documents in any order, and may be emptied in between. It
forgets what it knows only when it is asked for a depth, and not by the other questions themselves.

* `Call` is what can be asked, `Call.run` asks the memo, and `Call.exact` computes the answer afresh.
* `VersionsTell`: until the memo is emptied, documents of one version are one document.
* `Serves` is the invariant: what the memo holds, it holds for one of the documents that it was asked
  about under the same version. `depth_serves` keeps it for one depth, `Call.run_serves` for a call.
* `answers_eq_exact` is the result.
-/

/-! ### Calls -/

/-- What can be asked of a memo. -/
inductive Call where
  | depth (d : Document) (id : NodeId) (participant : String)
  | maxDepth (d : Document) (id : NodeId)
  | layers (d : Document)
  | reset

/-- What a memo answers. -/
inductive Answer where
  | height (n : Nat)
  | layers (layers : Document.Layers)
  | nothing
  deriving DecidableEq

namespace Call

/-- The document that a call asks about. -/
def document? : Call → Option Document
  | depth d _ _ => some d
  | maxDepth d _ => some d
  | layers d => some d
  | reset => none

/-- The answer that is computed afresh. -/
def exact : Call → Answer
  | depth d id participant => .height (d.depth id participant)
  | maxDepth d id => .height (d.maxDepth id)
  | layers d => .layers d.layers
  | reset => .nothing

/-- The answer of a memo, which asks itself for each depth. -/
def run : Call → StateM DepthMemo Answer
  | depth d id participant => do return .height (← DepthMemo.depth d id participant)
  | maxDepth d id => do return .height (← d.maxDepthWith (DepthMemo.depth d) id)
  | layers d => do return .layers (← d.layersWith (DepthMemo.depth d))
  | reset => do
    set DepthMemo.empty
    return .nothing

end Call

/-- The answers of a memo to some calls, one after the other. -/
def answers (memo : DepthMemo) (calls : List Call) : List Answer := ((calls.mapM Call.run).run memo).1

/-- The version of a document tells which one it is, among those that were asked about since the memo
    was emptied; `seen` are those so far. -/
def VersionsTell (seen : List Document) : List Call → Prop
  | [] => True
  | call :: rest =>
    match call.document? with
    | some d => (∀ e ∈ seen, e.version = d.version → e = d) ∧ VersionsTell (d :: seen) rest
    | none => VersionsTell [] rest

/-! ### One depth -/

/-- The memo holds depths of one of the documents, under the version of that document. -/
def Serves (seen : List Document) (memo : DepthMemo) : Prop :=
  ∀ version, memo.version = some version →
    ∃ d ∈ seen, d.version = version ∧ ∀ e ∈ memo.entries, e.2 = d.depth e.1.1 e.1.2

theorem serves_empty (seen : List Document) : empty.Serves seen := fun _ h => nomatch h

theorem Serves.mono {seen seen' : List Document} {memo : DepthMemo} (h : memo.Serves seen)
    (hsub : seen ⊆ seen') : memo.Serves seen' := by
  intro version hversion
  obtain ⟨d, hd, hdepths⟩ := h version hversion
  exact ⟨d, hsub hd, hdepths⟩

/-- If its version tells which one a document is, then the memo holds no depths of another one for
    it. -/
theorem Serves.agrees {seen : List Document} {memo : DepthMemo} (h : memo.Serves seen) {d : Document}
    (htells : ∀ e ∈ seen, e.version = d.version → e = d) : memo.Agrees d := by
  intro hversion
  obtain ⟨e, he, hsame, hdepths⟩ := h d.version hversion
  rw [← htells e he hsame]
  exact hdepths

/-- After it was asked for a depth, the memo is at the version of the document. -/
theorem version_depth (d : Document) (id : NodeId) (participant : String) (memo : DepthMemo) :
    ((depth d id participant).run memo).2.version = some d.version := by
  have hversion : (memo.forVersion d.version).version = some d.version := by
    unfold forVersion
    split
    · assumption
    · rfl
  simp only [depth, StateT.run]
  split <;> exact hversion

/-- **One depth.** The memo answers as if it computed the depth, and holds depths of one document
    after it. -/
theorem depth_serves {seen : List Document} {d : Document} (hd : d ∈ seen)
    (htells : ∀ e ∈ seen, e.version = d.version → e = d) (id : NodeId) (participant : String) :
    Gives (Serves seen) (depth d id participant) (d.depth id participant) := by
  intro memo h
  obtain ⟨hanswer, hagrees⟩ := depth_gives d id participant memo (h.agrees htells)
  have hafter := version_depth d id participant memo
  refine ⟨hanswer, fun version hversion => ?_⟩
  rw [hafter, Option.some.injEq] at hversion
  exact ⟨d, hd, hversion, hagrees hafter⟩

/-! ### One call -/

/-- **One call.** The memo answers as if it computed everything afresh. -/
theorem Call.run_serves {seen : List Document} {call : Call} {d : Document}
    (hcall : call.document? = some d) (hd : d ∈ seen)
    (htells : ∀ e ∈ seen, e.version = d.version → e = d) :
    Gives (Serves seen) call.run call.exact := by
  have hdepth := depth_serves hd htells
  cases call with
  | depth d id participant =>
    cases hcall
    exact (hdepth id participant).bind (.pure _)
  | maxDepth d id =>
    cases hcall
    exact (Gives.maxDepthWith hdepth id).bind (.pure _)
  | layers d =>
    cases hcall
    exact (Gives.layersWith hdepth).bind (.pure _)
  | reset => cases hcall

/-! ### All calls -/

theorem answers_cons (memo : DepthMemo) (call : Call) (rest : List Call) :
    memo.answers (call :: rest) = (call.run.run memo).1 :: (call.run.run memo).2.answers rest := by
  simp only [answers, List.mapM_cons]
  rfl

/-- From each state on, the memo answers as if it computed everything afresh. -/
theorem Serves.answers_eq {seen : List Document} {memo : DepthMemo} (h : memo.Serves seen)
    {calls : List Call} (htells : VersionsTell seen calls) :
    memo.answers calls = calls.map Call.exact := by
  induction calls generalizing seen memo with
  | nil => rfl
  | cons call rest ih =>
    rw [answers_cons, List.map_cons]
    rw [VersionsTell] at htells
    cases hcall : call.document? with
    | some d =>
      rw [hcall] at htells
      -- the document counts as seen from now on
      have hall : ∀ e ∈ d :: seen, e.version = d.version → e = d :=
        List.forall_mem_cons.mpr ⟨fun _ => rfl, htells.1⟩
      have hserves := h.mono (List.subset_cons_self d seen)
      obtain ⟨hanswer, hafter⟩ :=
        Call.run_serves hcall List.mem_cons_self hall memo hserves
      rw [hanswer, ih hafter htells.2]
    | none =>
      rw [hcall] at htells
      cases call with
      | reset => exact congrArg _ (ih (serves_empty []) htells)
      | depth d id participant => cases hcall
      | maxDepth d id => cases hcall
      | layers d => cases hcall

/-- **The memo does not show.** If versions tell the documents apart until the memo is emptied, then
    every answer of a memo that starts empty is the one that is computed afresh. Versions may change
    back and forth, and numbers need not be those of nodes. -/
theorem answers_eq_exact (calls : List Call) (h : VersionsTell [] calls) :
    empty.answers calls = calls.map Call.exact :=
  (serves_empty []).answers_eq h

/-- Two documents in turns, a number that is out of range, and a version that is used again after the
    memo was emptied: the depth of the node with number 1 changes each time. -/
theorem answers_of_two_edits :
    let a := (interpret (parse "A.m \x7b A->A.n \x7d") none).document.withVersion 1
    let b := (interpret (parse "B.x\nA->A.n") none).document.withVersion 2
    let calls : List Call := [.depth a 1 "A", .depth b 1 "A", .maxDepth a 0, .layers b,
      .depth a 7 "A", .reset, .depth (b.withVersion 1) 1 "A"]
    VersionsTell [] calls ∧ empty.answers calls = [.height 1, .height 0, .height 2,
      .layers [("B", 1), ("A", 1)], .height 0, .nothing, .height 0] := by
  intro a b calls
  have htells : VersionsTell [] calls := by
    simp [calls, a, b, VersionsTell, Call.document?, Document.withVersion]
  refine ⟨htells, ?_⟩
  rw [answers_eq_exact calls htells]
  decide +kernel

end SequenceDiagram.DepthMemo
