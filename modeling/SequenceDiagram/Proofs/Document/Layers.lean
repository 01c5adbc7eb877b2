import SequenceDiagram.Document.Depth
import SequenceDiagram.Proofs.Document.Endpoints

namespace SequenceDiagram

/-!
# Depths and stacks of bars

* `Document.WellIndexed.depth_enclosingCall?` walks up one call: the bars around a node on a
  lifeline are those around the nearest call, and the bar of that call if it stands there.
* `Layers.raiseAll` fills the table of the tallest stacks: no stack that it is filled with is taller
  (`le_at_raiseAll`), and each of its stacks is one of those (`at_raiseAll_eq_or`).
* `Document.WellIndexed.depth_le_layers` and `Document.exists_eq_layers`: the table bounds the bars
  around every node, and each of its stacks is reached.
-/

namespace Document

/-! ### Depths -/

/-- Nothing is around a node without a parent. -/
theorem depth_of_top {d : Document} {id : NodeId} (h : d.parent? id = none) (participant : String) :
    d.depth id participant = 0 := by
  rw [depth, ancestors, h]
  rfl

namespace WellIndexed

variable {d : Document}

/-- The bars around a node are those around its parent and the one that the parent opens. -/
theorem depth_of_parent (h : d.WellIndexed) {id a : NodeId} (ha : d.parent? id = some a)
    (participant : String) : d.depth id participant =
      d.depth a participant + if d.activation? a = some participant then 1 else 0 := by
  have hancestors : d.ancestors id = a :: d.ancestors a := by
    rw [h.ancestors_eq id, ha]
  rw [depth, hancestors, List.countP_cons, depth]
  simp only [beq_iff_eq]

/-- A node opens the bar of the call that it is. -/
theorem activation?_eq_call? (h : d.WellIndexed) (id : NodeId) :
    d.activation? id = (d.call? id).map (·.receiver) := by
  by_cases hid : id < d.entries.length
  · obtain ⟨x, hx, rfl⟩ := h.exists_place hid
    rw [h.activation?_eq hx, h.call?_eq hx, x.node.opened_eq]
  · -- the table has no such number, and neither has the tree
    have hout := Nat.le_of_not_lt hid
    rw [activation?, List.getElem?_eq_none hout, call?, h.find_eq_none hout]
    rfl

/-- **Up one call.** The bars around a node are those around the nearest call and the one that the
    call opens; outside of every call there are none. -/
theorem depth_enclosingCall? (h : d.WellIndexed) (id : NodeId) (participant : String) :
    d.depth id participant = match d.enclosingCall? id with
      | some c => d.depth c.id participant + if c.receiver = participant then 1 else 0
      | none => 0 := by
  -- by induction on the number: the parent is the call, or is passed over as it opens no bar
  induction id using Nat.strongRecOn with
  | ind id ih =>
    rw [h.enclosingCall?_eq]
    cases hparent : d.parent? id with
    | none => exact depth_of_top hparent participant
    | some a =>
      have hactivation := h.activation?_eq_call? a
      show d.depth id participant = match (d.call? a).or (d.enclosingCall? a) with
        | some c => d.depth c.id participant + if c.receiver = participant then 1 else 0
        | none => 0
      rw [h.depth_of_parent hparent]
      cases hcall : d.call? a with
      | some c =>
        simp only [hactivation, hcall, Option.some_or, Option.map_some, Option.some.injEq,
          (h.of_call?_eq_some hcall).1]
      | none =>
        simp only [hactivation, hcall, Option.none_or, Option.map_none, reduceCtorEq, if_false,
          Nat.add_zero]
        exact ih a (h.parent_lt hparent)

end WellIndexed

/-! ### The table of the tallest stacks -/

namespace Layers

@[simp] theorem at_nil (participant : String) : Layers.at [] participant = 0 := rfl

theorem at_cons (p : String) (height : Nat) (rest : Layers) (participant : String) :
    Layers.at ((p, height) :: rest) participant =
      if participant = p then height else rest.at participant := by
  unfold Layers.at
  rw [List.lookup_cons]
  by_cases h : participant = p
  · simp [h]
  · rw [beq_false_of_ne h, if_neg h]

/-- A stack counts on its own lifeline, if it is taller than those before. -/
theorem at_raise (layers : Layers) (p : String) (height : Nat) (participant : String) :
    (layers.raise p height).at participant =
      if participant = p then max (layers.at participant) height else layers.at participant := by
  induction layers with
  | nil =>
    rw [raise, at_cons, at_nil]
    split
    · exact (Nat.zero_max height).symm
    · rfl
  | cons first rest ih =>
    obtain ⟨q, tallest⟩ := first
    rw [raise]
    by_cases hq : q = p
    · subst hq
      rw [if_pos rfl, at_cons, at_cons]
      split <;> rfl
    · rw [if_neg hq, at_cons, at_cons, ih]
      by_cases hparticipant : participant = q
      · rw [if_pos hparticipant, if_pos hparticipant, if_neg (hparticipant ▸ hq)]
      · rw [if_neg hparticipant, if_neg hparticipant]

/-- The table with some more stacks. -/
def raiseAll (layers : Layers) (others : List (String × Nat)) : Layers :=
  others.foldl (fun layers s => layers.raise s.1 s.2) layers

theorem raiseAll_cons (layers : Layers) (first : String × Nat) (rest : List (String × Nat)) :
    layers.raiseAll (first :: rest) = (layers.raise first.1 first.2).raiseAll rest := rfl

/-- No stack of the table gets lower. -/
theorem at_le_raiseAll (layers : Layers) (others : List (String × Nat)) (participant : String) :
    layers.at participant ≤ (layers.raiseAll others).at participant := by
  induction others generalizing layers with
  | nil => exact Nat.le_refl _
  | cons first rest ih =>
    refine Nat.le_trans ?_ (ih (layers.raise first.1 first.2))
    rw [at_raise]
    split
    · exact Nat.le_max_left _ _
    · exact Nat.le_refl _

/-- The table bounds the stacks that it was filled with. -/
theorem le_at_raiseAll (layers : Layers) {others : List (String × Nat)} {participant : String}
    {height : Nat} (h : (participant, height) ∈ others) :
    height ≤ (layers.raiseAll others).at participant := by
  induction others generalizing layers with
  | nil => cases h
  | cons first rest ih =>
    rcases List.mem_cons.mp h with rfl | h
    · have hle := at_le_raiseAll (layers.raise participant height) rest participant
      rw [at_raise, if_pos rfl] at hle
      exact Nat.le_trans (Nat.le_max_right _ _) hle
    · exact ih (layers.raise first.1 first.2) h

/-- A stack of the table was there before, or is one of those that it was filled with. -/
theorem at_raiseAll_eq_or (layers : Layers) (others : List (String × Nat)) (participant : String) :
    (layers.raiseAll others).at participant = layers.at participant ∨
      (participant, (layers.raiseAll others).at participant) ∈ others := by
  induction others generalizing layers with
  | nil => exact .inl rfl
  | cons first rest ih =>
    rw [raiseAll_cons]
    rcases ih (layers.raise first.1 first.2) with heq | hmem
    · rw [heq, at_raise]
      split
      · next hfirst =>
        -- of the stack before and the first one, the taller is left
        rcases Nat.le_total (layers.at participant) first.2 with hle | hle
        · rw [Nat.max_eq_right hle]
          exact .inr (hfirst ▸ List.mem_cons_self)
        · rw [Nat.max_eq_left hle]
          exact .inl rfl
      · exact .inl rfl
    · exact .inr (List.mem_cons_of_mem _ hmem)

end Layers

/-- The stacks that end under some bar of a document, each with its lifeline. -/
def barStacks (d : Document) : List (String × Nat) :=
  d.activations.map fun (id, participant) => (participant, d.depth id participant + 1)

/-- The table is filled with these stacks. -/
theorem layers_eq (d : Document) : d.layers = Layers.raiseAll [] d.barStacks := by
  simp only [layers, layersWith, stacksWith, Id.run_bind, Id.run_pure, List.idRun_mapM]
  rfl

theorem mem_activations_iff {d : Document} {id : NodeId} {participant : String} :
    (id, participant) ∈ d.activations ↔ d.activation? id = some participant := by
  simp only [activations, activation?, List.mem_filterMap, List.mem_zipIdx_iff_getElem?,
    Prod.exists, Option.map_eq_some_iff, Option.bind_eq_some_iff, Prod.mk.injEq]
  constructor
  · rintro ⟨e, i, he, p, hp, rfl, rfl⟩
    exact ⟨e, he, hp⟩
  · rintro ⟨e, he, hp⟩
    exact ⟨e, id, he, participant, hp, rfl, rfl⟩

/-- The stack under a bar is one of the document. -/
theorem mem_barStacks_iff {d : Document} {participant : String} {height : Nat} :
    (participant, height) ∈ d.barStacks ↔
      ∃ id, d.activation? id = some participant ∧ d.depth id participant + 1 = height := by
  simp only [barStacks, List.mem_map, Prod.exists, Prod.mk.injEq, mem_activations_iff]
  constructor
  · rintro ⟨id, p, hbar, rfl, hheight⟩
    exact ⟨id, hbar, hheight⟩
  · rintro ⟨id, hbar, hheight⟩
    exact ⟨id, participant, hbar, rfl, hheight⟩

/-- A bar lies on a stack of the table. -/
theorem depth_lt_layers {d : Document} {id : NodeId} {participant : String}
    (h : d.activation? id = some participant) :
    d.depth id participant + 1 ≤ d.layers.at participant := by
  rw [layers_eq]
  exact Layers.le_at_raiseAll [] (mem_barStacks_iff.mpr ⟨id, h, rfl⟩)

/-- Each stack of the table ends under some bar. -/
theorem exists_eq_layers {d : Document} {participant : String}
    (h : 0 < d.layers.at participant) : ∃ id, d.activation? id = some participant ∧
      d.depth id participant + 1 = d.layers.at participant := by
  rw [layers_eq] at h ⊢
  rcases Layers.at_raiseAll_eq_or [] d.barStacks participant with hzero | hmem
  · rw [hzero, Layers.at_nil] at h
    cases h
  · exact mem_barStacks_iff.mp hmem

/-- **The table bounds the bars around every node.** The nearest of them on a lifeline lies on a
    stack of the table. -/
theorem WellIndexed.depth_le_layers {d : Document} (h : d.WellIndexed) (id : NodeId)
    (participant : String) : d.depth id participant ≤ d.layers.at participant := by
  induction id using Nat.strongRecOn with
  | ind id ih =>
    cases hparent : d.parent? id with
    | none =>
      rw [depth_of_top hparent]
      exact Nat.zero_le _
    | some a =>
      rw [h.depth_of_parent hparent]
      split
      · next hbar => exact depth_lt_layers hbar
      · exact ih a (h.parent_lt hparent)

end Document

end SequenceDiagram
