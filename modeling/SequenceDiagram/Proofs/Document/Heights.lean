import SequenceDiagram.Proofs.Document.Layers
import SequenceDiagram.Proofs.Syntax.Nesting

namespace SequenceDiagram

/-!
# How high bars can be stacked

A bar is opened by a node, so there are not more of them on top of each other than nodes stand
inside each other.

* `countSteps`: what grows by at most one from a node to those directly inside it is bounded by the
  height of the nodes.
* `Document.WellIndexed.depth_add_height_le`: the bars around a node and the nodes below it share the
  height of the document.
* `Document.WellIndexed.layers_le_height`: no stack is higher than the document.
-/

theorem Node.height_pos (n : Node) : 1 ≤ n.height := by
  cases n <;> exact Nat.succ_le_succ (Nat.zero_le _)

/-- **What is counted on the way down is bounded by the height**, if each node adds at most one. -/
theorem countSteps (count : Option NodeId → Nat) : Node.Steps
    (fun n => ∀ a, (∀ x ∈ n.places a, count (some x.node.id) ≤ count x.around + 1) →
      ∀ x ∈ n.places a, count x.around + x.node.height ≤ count a + n.height)
    (fun ns => ∀ a, (∀ x ∈ placesOf a ns, count (some x.node.id) ≤ count x.around + 1) →
      ∀ x ∈ placesOf a ns, count x.around + x.node.height ≤ count a + heightOf ns)
    (fun ss => ∀ a, (∀ x ∈ placesIn a ss, count (some x.node.id) ≤ count x.around + 1) →
      ∀ x ∈ placesIn a ss, count x.around + x.node.height ≤ count a + heightIn ss) where
  message m body hbody a h x hx := by
    -- what is inside counts from this node on, and has one less of its height
    rw [Node.places] at h hx
    have hm : count (some m.id) ≤ count a + 1 := h _ List.mem_cons_self
    rcases List.mem_cons.mp hx with rfl | hx
    · exact Nat.le_refl _
    · have hle := hbody (some m.id) (fun y hy => h y (List.mem_cons_of_mem _ hy)) x hx
      simp only [Node.height]
      omega
  fragment f sections hsections a h x hx := by
    rw [Node.places] at h hx
    have hf : count (some f.id) ≤ count a + 1 := h _ List.mem_cons_self
    rcases List.mem_cons.mp hx with rfl | hx
    · exact Nat.le_refl _
    · have hle := hsections (some f.id) (fun y hy => h y (List.mem_cons_of_mem _ hy)) x hx
      simp only [Node.height]
      omega
  divider id note source a h x hx := by
    rw [Node.places, List.mem_singleton] at hx
    subst hx
    exact Nat.le_refl _
  rejected y a h x hx := by
    rw [Node.places, List.mem_singleton] at hx
    subst hx
    exact Nat.le_refl _
  nil a h x hx := by simp [placesOf] at hx
  cons n rest hn hrest a h x hx := by
    rw [placesOf] at h hx
    simp only [heightOf]
    rcases List.mem_append.mp hx with hx | hx
    · have hle := hn a (fun y hy => h y (List.mem_append_left _ hy)) x hx
      omega
    · have hle := hrest a (fun y hy => h y (List.mem_append_right _ hy)) x hx
      omega
  noSection a h x hx := by simp [placesIn] at hx
  inSection label condition body rest hbody hrest a h x hx := by
    rw [placesIn] at h hx
    simp only [heightIn]
    rcases List.mem_append.mp hx with hx | hx
    · have hle := hbody a (fun y hy => h y (List.mem_append_left _ hy)) x hx
      omega
    · have hle := hrest a (fun y hy => h y (List.mem_append_right _ hy)) x hx
      omega

namespace Document

/-- How many bars are open on a lifeline inside a node, or at the top. -/
def openBars (d : Document) (participant : String) : Option NodeId → Nat
  | none => 0
  | some id => d.depth id participant + if d.activation? id = some participant then 1 else 0

namespace WellIndexed

variable {d : Document}

/-- The bars around a node are those that are open where it stands. -/
theorem depth_eq_openBars (h : d.WellIndexed) (id : NodeId) (participant : String) :
    d.depth id participant = d.openBars participant (d.parent? id) := by
  cases hparent : d.parent? id with
  | none => exact depth_of_top hparent participant
  | some a => exact h.depth_of_parent hparent participant

/-- The bars around a node and the nodes below it are together not more than the document is high. -/
theorem depth_add_height_le (h : d.WellIndexed) (participant : String) {x : Place}
    (hx : x ∈ d.places) : d.depth x.node.id participant + x.node.height ≤ heightOf d.nodes := by
  have hstep : ∀ y ∈ d.places,
      d.openBars participant (some y.node.id) ≤ d.openBars participant y.around + 1 := by
    intro y hy
    rw [openBars, h.depth_eq_openBars, h.parent?_eq hy]
    split <;> omega
  have hle := (countSteps (d.openBars participant)).nodes d.nodes none hstep x hx
  rw [h.depth_eq_openBars, h.parent?_eq hx]
  rw [openBars] at hle
  omega

/-- **No stack of bars is higher than the document.** -/
theorem layers_le_height (h : d.WellIndexed) (participant : String) :
    d.layers.at participant ≤ heightOf d.nodes := by
  rcases Nat.eq_zero_or_pos (d.layers.at participant) with hzero | hpos
  · omega
  · -- the stack ends under a bar, and the node that opens this bar is one of the document
    obtain ⟨id, hbar, hheight⟩ := exists_eq_layers hpos
    obtain ⟨x, hx, rfl⟩ := h.exists_place (lt_of_activation?_eq_some hbar)
    have hle := h.depth_add_height_le participant hx
    have hnode := x.node.height_pos
    omega

end WellIndexed

end Document

end SequenceDiagram
