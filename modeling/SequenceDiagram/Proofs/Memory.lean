import SequenceDiagram.Measure.Cache
import SequenceDiagram.Proofs.Document.Layers

namespace SequenceDiagram

/-!
# Answers from a memory

The memo of depths and the cache of widths may answer only what would have been computed. What they
hold depends on everything that was asked before, so this is said of all states with right entries.

* `Gives`: in all states that keep an invariant, a computation gives one value, and it keeps the
  invariant. It goes through sequences of questions: `Gives.bind`, `Gives.mapM`.
* `DepthMemo.depth_gives`: the memo answers with depths, as long as it holds depths of one document
  under the version of that document.
* `Gives.layersWith` and `Gives.maxDepthWith`: who answers with depths answers with stacks as well.
* `MeasureCache.measure_gives`: the cache answers with widths, whatever it dropped before.
-/

/-! ### Computations that give one value -/

/-- In every state that keeps the invariant, the computation gives the value, and the state after it
    keeps the invariant. -/
def Gives {σ α : Type} (inv : σ → Prop) (x : StateM σ α) (a : α) : Prop :=
  ∀ s, inv s → (x.run s).1 = a ∧ inv (x.run s).2

namespace Gives

variable {σ α β : Type} {inv : σ → Prop}

theorem pure (a : α) : Gives inv (Pure.pure a) a := fun _ hs => ⟨rfl, hs⟩

theorem bind {x : StateM σ α} {f : α → StateM σ β} {a : α} {b : β} (hx : Gives inv x a)
    (hf : Gives inv (f a) b) : Gives inv (x >>= f) b := by
  intro s hs
  obtain ⟨ha, hs'⟩ := hx s hs
  have hrun : (x >>= f).run s = (f (x.run s).1).run (x.run s).2 := rfl
  rw [hrun, ha]
  exact hf _ hs'

theorem mapM {f : α → StateM σ β} {g : α → β} (h : ∀ a, Gives inv (f a) (g a)) (xs : List α) :
    Gives inv (xs.mapM f) (xs.map g) := by
  induction xs with
  | nil =>
    rw [List.mapM_nil]
    exact pure _
  | cons x xs ih =>
    rw [List.mapM_cons]
    exact (h x).bind (ih.bind (pure _))

end Gives

/-! ### Depths -/

namespace DepthMemo

/-- If the memo serves the version of the document, then it holds depths of the document. -/
def Agrees (d : Document) (memo : DepthMemo) : Prop :=
  memo.version = some d.version → ∀ e ∈ memo.entries, e.2 = d.depth e.1.1 e.1.2

theorem agrees_empty (d : Document) : empty.Agrees d := by
  intro h
  cases h

/-- When it is asked about a document, the memo holds depths of that document only. -/
theorem Agrees.forVersion {d : Document} {memo : DepthMemo} (h : memo.Agrees d) :
    ∀ e ∈ (memo.forVersion d.version).entries, e.2 = d.depth e.1.1 e.1.2 := by
  unfold DepthMemo.forVersion
  split
  · next hversion => exact h hversion
  · intro e he
    cases he

/-- The memo answers as if it computed every depth. -/
theorem depth_gives (d : Document) (id : NodeId) (participant : String) :
    Gives (Agrees d) (depth d id participant) (d.depth id participant) := by
  intro memo h
  have hentries := h.forVersion
  cases hlookup : (memo.forVersion d.version).entries.lookup (id, participant) with
  | some kept =>
    have hrun : (depth d id participant).run memo = (kept, memo.forVersion d.version) := by
      simp only [depth, StateT.run, hlookup]
    obtain ⟨_, _, hsplit, -⟩ := List.lookup_eq_some_iff.mp hlookup
    have hmem : ((id, participant), kept) ∈ (memo.forVersion d.version).entries := by
      rw [hsplit]
      exact List.mem_append_right _ List.mem_cons_self
    rw [hrun]
    exact ⟨hentries _ hmem, fun _ => hentries⟩
  | none =>
    have hrun : (depth d id participant).run memo = (d.depth id participant,
        { memo.forVersion d.version with
          entries := ((id, participant), d.depth id participant) ::
            (memo.forVersion d.version).entries }) := by
      simp only [depth, StateT.run, hlookup]
    rw [hrun]
    refine ⟨rfl, fun _ e he => ?_⟩
    rcases List.mem_cons.mp he with rfl | he
    · rfl
    · exact hentries e he

end DepthMemo

/-! ### Stacks -/

namespace Gives

variable {σ : Type} {inv : σ → Prop} {d : Document} {ask : NodeId → String → StateM σ Nat}

theorem stacksWith (h : ∀ id p, Gives inv (ask id p) (d.depth id p))
    (bars : List (NodeId × String)) : Gives inv (Document.stacksWith ask bars)
      (bars.map fun (id, p) => (p, d.depth id p + 1)) := by
  refine .mapM ?_ bars
  intro (id, p)
  exact (h id p).bind (.pure _)

theorem layersWith (h : ∀ id p, Gives inv (ask id p) (d.depth id p)) :
    Gives inv (d.layersWith ask) d.layers := by
  rw [Document.layers_eq]
  exact (stacksWith h d.activations).bind (.pure _)

theorem maxDepthWith (h : ∀ id p, Gives inv (ask id p) (d.depth id p)) (id : NodeId) :
    Gives inv (d.maxDepthWith ask id) (d.maxDepth id) := by
  simp only [Document.maxDepth, Document.maxDepthWith, Document.stacksWith, Id.run_bind, Id.run_pure,
    List.idRun_mapM]
  exact (stacksWith h _).bind (.pure _)

end Gives

/-! ### Widths -/

namespace MeasureCache

/-- The cache holds widths of the measure. -/
def Agrees (inner : TextMeasure) (cache : MeasureCache) : Prop :=
  ∀ e ∈ cache.entries, e.2 = inner e.1.1 e.1.2

variable {inner : TextMeasure}

theorem agrees_empty (capacity : Nat) : (empty capacity).Agrees inner := by
  intro e he
  cases he

theorem Agrees.lookup? {cache : MeasureCache} (h : cache.Agrees inner) {key : String × TextStyle}
    {width : Binary32} (hkey : cache.lookup? key = some width) : width = inner key.1 key.2 := by
  obtain ⟨e, hfind, rfl⟩ := Option.map_eq_some_iff.mp hkey
  have hname : e.1 = key := by simpa using List.find?_some hfind
  rw [← hname]
  exact h e (List.mem_of_find?_eq_some hfind)

theorem Agrees.touch {cache : MeasureCache} (h : cache.Agrees inner) (key : String × TextStyle) :
    (cache.touch key (inner key.1 key.2)).Agrees inner := by
  intro e he
  rcases List.mem_cons.mp he with rfl | he
  · rfl
  · exact h e (List.mem_filter.mp he).1

/-- Whatever the cache drops, the rest is right. -/
theorem Agrees.insert {cache : MeasureCache} (h : cache.Agrees inner) (key : String × TextStyle) :
    (cache.insert key (inner key.1 key.2)).Agrees inner := by
  intro e he
  rcases List.mem_cons.mp (List.mem_of_mem_take he) with rfl | he
  · rfl
  · exact h e he

/-- The cache answers as if it measured every text. -/
theorem measure_gives (inner : TextMeasure) (text : String) (style : TextStyle) :
    Gives (Agrees inner) (measure inner text style) (inner text style) := by
  intro cache h
  cases hlookup : cache.lookup? (text, style) with
  | some width =>
    have hwidth : width = inner text style := h.lookup? hlookup
    have hrun : (measure inner text style).run cache =
        (inner text style, cache.touch (text, style) (inner text style)) := by
      simp only [measure, StateT.run, hlookup, hwidth]
    rw [hrun]
    exact ⟨rfl, h.touch (text, style)⟩
  | none =>
    have hrun : (measure inner text style).run cache =
        (inner text style, cache.insert (text, style) (inner text style)) := by
      simp only [measure, StateT.run, hlookup]
    rw [hrun]
    exact ⟨rfl, h.insert (text, style)⟩

end MeasureCache

end SequenceDiagram
