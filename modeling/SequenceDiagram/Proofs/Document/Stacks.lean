import Mathlib.Algebra.BigOperators.Group.Finset.Basic
import Mathlib.Order.Bounds.Defs
import SequenceDiagram.Proofs.Distinct
import SequenceDiagram.Proofs.Document.Paths

namespace SequenceDiagram

open Syntax

/-!
# Stacks of bars along paths

The depths and the tallest stacks are read off the table of a document. In the tree they are what is
counted along its paths.

* `Document.barOwners` are the lifelines with bars, and `Document.keys_layers` says that the table of
  the tallest stacks has an entry for each of them.
* `Document.WellIndexed.isGreatest_layers`: such an entry is the tallest stack along any path.
* `Document.WellIndexed.isGreatest_maxDepth`: the same for the bars at and below a node.
* `Document.sum_depth`: all open bars are those on the single lifelines together.
* `depths_follow_paths` puts them together.
-/

/-! ### Lifelines with bars -/

namespace Document

/-- The lifelines with bars, in the order of the first call or creation that opens one. -/
def barOwners (d : Document) : List String :=
  ((d.messages.filter (·.kind.activates)).map (·.receiver)).eraseDups

namespace Layers

/-- A stack on a new lifeline makes a new entry at the end. -/
theorem keys_raise (layers : Layers) (p : String) (height : Nat) :
    (layers.raise p height).map (·.1) =
      if p ∈ layers.map (·.1) then layers.map (·.1) else layers.map (·.1) ++ [p] := by
  induction layers with
  | nil => simp [raise]
  | cons first rest ih =>
    obtain ⟨q, tallest⟩ := first
    rw [raise]
    by_cases hq : q = p
    · simp [hq]
    · rw [if_neg hq, List.map_cons, ih, List.map_cons]
      by_cases hp : p ∈ rest.map (·.1)
      · rw [if_pos hp, if_pos (List.mem_cons_of_mem _ hp)]
      · rw [if_neg hp, if_neg, List.cons_append]
        simpa [Ne.symm hq] using hp

/-- The entries are made in the order of the first stacks. -/
theorem keys_raiseAll (others : List (String × Nat)) :
    (raiseAll [] others).map (·.1) = (others.map (·.1)).eraseDups := by
  induction others using List.reverseRecOn with
  | nil => rfl
  | append_singleton others last ih =>
    have hraise : raiseAll [] (others ++ [last]) = (raiseAll [] others).raise last.1 last.2 := by
      simp [raiseAll]
    rw [hraise, keys_raise, ih, List.map_append, List.map_singleton, eraseDups_concat]
    simp only [List.mem_eraseDups]

/-- An entry is looked up by its lifeline. -/
theorem at_of_mem {layers : Layers} (h : (layers.map (·.1)).Nodup) {p : String} {height : Nat}
    (hmem : (p, height) ∈ layers) : layers.at p = height := by
  induction layers with
  | nil => cases hmem
  | cons first rest ih =>
    obtain ⟨q, tallest⟩ := first
    rw [List.map_cons, List.nodup_cons] at h
    rw [at_cons]
    rcases List.mem_cons.mp hmem with heq | hrest
    · cases heq
      exact if_pos rfl
    · have hne : p ≠ q := by
        intro heq
        apply h.1
        exact List.mem_map.mpr ⟨(p, height), hrest, heq⟩
      rw [if_neg hne, ih h.2 hrest]

end Layers

variable {d : Document}

/-- The bars are listed in the order of the calls and creations that open them. -/
theorem WellIndexed.owners_activations (h : d.WellIndexed) :
    d.activations.map (·.2) = (d.messages.filter (·.kind.activates)).map (·.receiver) := by
  have htable : d.activations.map (·.2) = d.entries.filterMap (·.activation) := by
    have hfirst := List.filterMap_map (f := Prod.fst) (g := Entry.activation) (l := d.entries.zipIdx)
    rw [List.zipIdx_map_fst] at hfirst
    rw [activations, List.map_filterMap, hfirst]
    simp [Function.comp_def]
  have htree : ∀ n : Node, n.opened =
      (n.message?.filter (·.kind.activates)).map (·.receiver) := by
    intro n
    cases n with
    | message m body => by_cases hm : m.kind.activates <;> simp [Node.opened, Node.message?, hm]
    | fragment f sections => rfl
    | divider id note source => rfl
    | rejected x => rfl
  rw [htable, h.entries_eq, messages, messagesOf_eq none, List.filterMap_map,
    List.filter_filterMap, List.map_filterMap]
  apply List.filterMap_congr
  intro x _
  exact htree x.node

/-- **The table has an entry for each lifeline with bars**, in the order of the first one. -/
theorem WellIndexed.keys_layers (h : d.WellIndexed) : d.layers.map (·.1) = d.barOwners := by
  rw [layers_eq, Layers.keys_raiseAll, barOwners, ← h.owners_activations, barStacks, List.map_map]
  rfl

theorem WellIndexed.mem_barOwners (h : d.WellIndexed) {p : String} :
    p ∈ d.barOwners ↔ ∃ id, d.activation? id = some p := by
  rw [barOwners, List.mem_eraseDups, ← h.owners_activations]
  simp [mem_activations_iff]

/-! ### The tallest stacks -/

/-- **The tallest stack on a lifeline** is the largest number of its bars that are open along a
    path. -/
theorem WellIndexed.isGreatest_layers (h : d.WellIndexed) {p : String} {height : Nat}
    (hmem : (p, height) ∈ d.layers) :
    IsGreatest {k | ∃ above n, d.Path above n ∧ barsOn p (n :: above) = k} height := by
  have hkeys := h.keys_layers
  have hnodup : (d.layers.map (·.1)).Nodup := by
    rw [hkeys]
    exact nodup_eraseDups _
  rw [← Layers.at_of_mem hnodup hmem]
  constructor
  · -- some call opens a bar on the lifeline, and so the tallest stack ends under one
    have howner : p ∈ d.barOwners := by
      rw [← hkeys]
      exact List.mem_map_of_mem hmem
    obtain ⟨id, hbar⟩ := h.mem_barOwners.mp howner
    have hpos : 0 < d.layers.at p := Nat.lt_of_lt_of_le (Nat.succ_pos _) (depth_lt_layers hbar)
    obtain ⟨id, hbar, hheight⟩ := exists_eq_layers hpos
    obtain ⟨above, n, hpath, rfl, hopened⟩ := h.exists_path_of_activation? hbar
    refine ⟨above, n, hpath, ?_⟩
    rw [barsOn_cons, if_pos hopened, ← h.depth_of_path hpath, hheight]
  · rintro k ⟨above, n, hpath, rfl⟩
    rw [barsOn_cons, ← h.depth_of_path hpath]
    split
    · next hopened =>
      apply depth_lt_layers
      rw [h.activation?_of_path hpath, hopened]
    · exact h.depth_le_layers n.id p

/-! ### Stacks at and below a node -/

/-- The heights of the stacks under the bars that are opened at or below a node. -/
def heightsBelow (d : Document) (id : NodeId) : List Nat :=
  (d.activations.filter fun (i, _) => i == id || (d.ancestors i).contains id).map
    fun (i, p) => d.depth i p + 1

/-- The largest of the heights is taken, and zero if there is none. -/
theorem maxDepth_eq (d : Document) (id : NodeId) :
    d.maxDepth id = (d.heightsBelow id).max?.getD 0 := by
  have hfold : d.maxDepth id = (d.heightsBelow id).foldl max 0 := by
    simp only [maxDepth, maxDepthWith, stacksWith, Id.run_bind, Id.run_pure, List.idRun_mapM]
    rw [heightsBelow, List.foldl_map, List.foldl_map]
  rw [hfold, List.foldl_max, Nat.max_eq_right (Nat.zero_le _)]

/-- The stacks along the paths through a node to the calls and creations at and below it. -/
def stacksBelow (d : Document) (id : NodeId) : Set Nat :=
  {k | ∃ above n p, d.Path above n ∧ (∃ a ∈ n :: above, a.id = id) ∧ n.opened = some p ∧
    barsOn p (n :: above) = k}

/-- The heights are those of the stacks along these paths. -/
theorem WellIndexed.mem_heightsBelow (h : d.WellIndexed) {id : NodeId} {k : Nat} :
    k ∈ d.heightsBelow id ↔ k ∈ d.stacksBelow id := by
  have hthrough : ∀ {above : List Node} {n : Node}, d.Path above n →
      ((n.id == id || (d.ancestors n.id).contains id) = true ↔ ∃ a ∈ n :: above, a.id = id) := by
    intro above n hpath
    rw [h.ancestors_of_path hpath]
    simp
  constructor
  · intro hk
    obtain ⟨⟨i, p⟩, hbar, rfl⟩ := List.mem_map.mp hk
    obtain ⟨hbar, hbelow⟩ := List.mem_filter.mp hbar
    obtain ⟨above, n, hpath, rfl, hopened⟩ :=
      h.exists_path_of_activation? (mem_activations_iff.mp hbar)
    refine ⟨above, n, p, hpath, (hthrough hpath).mp hbelow, hopened, ?_⟩
    rw [barsOn_cons, if_pos hopened, ← h.depth_of_path hpath]
  · rintro ⟨above, n, p, hpath, hbelow, hopened, rfl⟩
    have hbar : (n.id, p) ∈ d.activations := by
      rw [mem_activations_iff, h.activation?_of_path hpath, hopened]
    refine List.mem_map.mpr ⟨(n.id, p), List.mem_filter.mpr ⟨hbar, (hthrough hpath).mpr hbelow⟩, ?_⟩
    rw [barsOn_cons, if_pos hopened, ← h.depth_of_path hpath]

/-- **The tallest stack at and below a node**, if a bar is opened there. -/
theorem WellIndexed.isGreatest_maxDepth (h : d.WellIndexed) {id : NodeId}
    (hbars : (d.stacksBelow id).Nonempty) : IsGreatest (d.stacksBelow id) (d.maxDepth id) := by
  obtain ⟨k, hk⟩ := hbars
  have hne : d.heightsBelow id ≠ [] := List.ne_nil_of_mem (h.mem_heightsBelow.mpr hk)
  obtain ⟨tallest, htallest⟩ := Option.ne_none_iff_exists'.mp (mt List.max?_eq_none_iff.mp hne)
  obtain ⟨hmem, hle⟩ := List.max?_eq_some_iff.mp htallest
  rw [maxDepth_eq, htallest, Option.getD_some]
  exact ⟨h.mem_heightsBelow.mp hmem, fun k hk => hle k (h.mem_heightsBelow.mpr hk)⟩

theorem WellIndexed.maxDepth_eq_zero (h : d.WellIndexed) {id : NodeId}
    (hbars : d.stacksBelow id = ∅) : d.maxDepth id = 0 := by
  have hnil : d.heightsBelow id = [] := by
    apply List.eq_nil_iff_forall_not_mem.mpr
    intro k hk
    rw [h.mem_heightsBelow, hbars] at hk
    exact hk
  rw [maxDepth_eq, hnil]
  rfl

/-- A number that no node has has nothing below it. -/
theorem WellIndexed.stacksBelow_of_le (h : d.WellIndexed) {id : NodeId}
    (hid : d.entries.length ≤ id) : d.stacksBelow id = ∅ := by
  apply Set.eq_empty_iff_forall_notMem.mpr
  rintro k ⟨above, n, p, hpath, ⟨a, ha, rfl⟩, -⟩
  have hplace : ∃ higher, d.Path higher a := by
    rcases List.mem_cons.mp ha with rfl | ha
    · exact ⟨above, hpath⟩
    · exact hpath.exists_path_of_mem ha
  obtain ⟨higher, ha⟩ := hplace
  have hlt := h.id_lt ha.mem_places
  exact absurd hid (Nat.not_le_of_lt hlt)

/-! ### All lifelines together -/

/-- **The open bars are those on the single lifelines.** -/
theorem WellIndexed.sum_depth (h : d.WellIndexed) (id : NodeId) :
    d.nestingDepth id = ∑ p ∈ d.barOwners.toFinset, d.depth id p := by
  -- the owners of the bars around the node, one for each bar
  let owners := (d.ancestors id).filterMap d.activation?
  have hall : d.nestingDepth id = owners.length := by
    rw [List.length_filterMap_eq_countP]
    rfl
  have hsingle : ∀ p, d.depth id p = owners.count p := by
    intro p
    rw [List.count_filterMap]
    rfl
  have hsub : owners.toFinset ⊆ d.barOwners.toFinset := by
    intro p hp
    obtain ⟨a, -, ha⟩ := List.mem_filterMap.mp (List.mem_toFinset.mp hp)
    exact List.mem_toFinset.mpr (h.mem_barOwners.mpr ⟨a, ha⟩)
  simp only [hall, hsingle]
  rw [← List.sum_toFinset_count_eq_length owners]
  apply Finset.sum_subset hsub
  intro p _ hp
  exact List.count_eq_zero.mpr fun hmem => hp (List.mem_toFinset.mpr hmem)

end Document

/-- **Depths and stacks follow the tree.** The depth of a node on a lifeline is the number of bars
    that the nodes above it open there. The table of the tallest stacks has an entry for each lifeline
    with bars, in the order of the first call or creation that opens one, with the largest number of
    bars along any path. The tallest stack at and below a node is the largest along the paths through
    it to a call or creation, each counted on the lifeline of the last one; it is zero if there is no
    such path, and so for a number that no node has. The open bars on all lifelines are those on the
    single ones together. -/
theorem depths_follow_paths (program : Program) (starter : Option String) :
    let d := (interpret program starter).document
    (∀ above n p, d.Path above n → d.depth n.id p = barsOn p above) ∧
    d.layers.map (·.1) = d.barOwners ∧
    (∀ e ∈ d.layers,
      IsGreatest {k | ∃ above n, d.Path above n ∧ barsOn e.1 (n :: above) = k} e.2) ∧
    (∀ id, ((d.stacksBelow id).Nonempty → IsGreatest (d.stacksBelow id) (d.maxDepth id)) ∧
      (d.stacksBelow id = ∅ → d.maxDepth id = 0) ∧
      (d.entries.length ≤ id → d.maxDepth id = 0)) ∧
    ∀ id, d.nestingDepth id = ∑ p ∈ d.barOwners.toFinset, d.depth id p := by
  intro d
  have h : d.WellIndexed := interpret_wellIndexed program starter
  refine ⟨fun above n p hpath => h.depth_of_path hpath p, h.keys_layers,
    fun e he => h.isGreatest_layers he, fun id => ⟨h.isGreatest_maxDepth, h.maxDepth_eq_zero, ?_⟩,
    h.sum_depth⟩
  intro hid
  exact h.maxDepth_eq_zero (h.stacksBelow_of_le hid)

/-- Calls of a participant to itself stack up, also through a fragment and a call to someone else. -/
example : (interpret (parse "A.m \x7b B.n \x7b opt \x7b A.o A.p \x7d \x7d \x7d") none).document.layers =
    [("A", 2), ("B", 1)] := by
  decide +kernel

end SequenceDiagram
