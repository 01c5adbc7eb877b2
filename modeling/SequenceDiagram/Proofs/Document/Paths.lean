import SequenceDiagram.Proofs.Document.Layers

namespace SequenceDiagram

/-!
# Paths through a document

A path leads from the top of a document down to a node, each time to a node directly inside the last
one. The table of the document has the same paths, as chains of parents.

* `Document.Path` are the paths, which go by `Node.children`.
* `Document.Path.mem_places` and `Document.exists_path`: the nodes with a path are those of the walk
  through the document.
* `Document.WellIndexed.ancestors_of_path`: the ancestors of a node are the nodes of its path.
* `barsOn` counts the bars on a lifeline along a path, and `Document.WellIndexed.depth_of_path` says
  that this is the depth.
-/

namespace Document

/-! ### Paths -/

/-- A path to a node, with the nodes above it from the nearest to the top. -/
inductive Path (d : Document) : List Node → Node → Prop
  | top {n : Node} : n ∈ d.nodes → Path d [] n
  | down {above : List Node} {m n : Node} : Path d above m → n ∈ m.children → Path d (m :: above) n

variable {d : Document} {above : List Node} {n : Node}

/-- A node with a path is one of the document, and stands right inside the nearest node above it. -/
theorem Path.mem_places (h : d.Path above n) : ⟨above.head?.map (·.id), n⟩ ∈ d.places := by
  induction h with
  | @top n hn =>
    apply places_subset_placesOf none hn
    simp [n.places_eq]
  | down _ hn ih =>
    apply (cons_inner_sublist ih).subset
    exact List.mem_cons_of_mem _ (Node.mem_inner_of_mem_children hn)

/-- The nodes above a node have paths as well. -/
theorem Path.exists_path_of_mem (h : d.Path above n) {m : Node} (hm : m ∈ above) :
    ∃ higher, d.Path higher m := by
  induction h with
  | top => cases hm
  | down h _ ih =>
    rcases List.mem_cons.mp hm with rfl | hm
    · exact ⟨_, h⟩
    · exact ih hm

/-- Every node of a document has a path. -/
theorem exists_path {x : Place} (hx : x ∈ d.places) : ∃ above, d.Path above x.node := by
  refine (descentSteps (p := fun n => ∃ above, d.Path above n) ?_).nodes d.nodes ?_ none x hx
  · intro m n hm hn
    obtain ⟨above, hpath⟩ := hm
    exact ⟨m :: above, hpath.down hn⟩
  · intro n hn
    exact ⟨[], .top hn⟩

/-! ### Paths in the table -/

namespace WellIndexed

/-- **The table has the paths of the tree.** The ancestors of a node are the nodes above it. -/
theorem ancestors_of_path (h : d.WellIndexed) (hpath : d.Path above n) :
    d.ancestors n.id = above.map (·.id) := by
  induction hpath with
  | top hn =>
    have hparent := h.parent?_eq (Path.top hn).mem_places
    rw [h.ancestors_eq, hparent]
    rfl
  | down hm hn ih =>
    have hparent := h.parent?_eq (hm.down hn).mem_places
    rw [h.ancestors_eq, hparent, List.map_cons, ← ih]
    rfl

theorem activation?_of_path (h : d.WellIndexed) (hpath : d.Path above n) :
    d.activation? n.id = n.opened :=
  h.activation?_eq hpath.mem_places

/-- A number of the table is that of a node with a path. -/
theorem exists_path_of_lt (h : d.WellIndexed) {id : NodeId} (hid : id < d.entries.length) :
    ∃ above n, d.Path above n ∧ n.id = id := by
  obtain ⟨x, hx, hxid⟩ := h.exists_place hid
  obtain ⟨above, hpath⟩ := exists_path hx
  exact ⟨above, x.node, hpath, hxid⟩

/-- A number with a bar is that of a node that opens the bar. -/
theorem exists_path_of_activation? (h : d.WellIndexed) {id : NodeId} {participant : String}
    (hbar : d.activation? id = some participant) :
    ∃ above n, d.Path above n ∧ n.id = id ∧ n.opened = some participant := by
  obtain ⟨above, n, hpath, rfl⟩ := h.exists_path_of_lt (lt_of_activation?_eq_some hbar)
  rw [h.activation?_of_path hpath] at hbar
  exact ⟨above, n, hpath, rfl, hbar⟩

end WellIndexed

end Document

/-! ### Bars along a path -/

/-- How many of some nodes open a bar on a lifeline. -/
def barsOn (participant : String) (nodes : List Node) : Nat :=
  nodes.countP fun n => n.opened = some participant

theorem barsOn_cons (participant : String) (n : Node) (rest : List Node) :
    barsOn participant (n :: rest) =
      barsOn participant rest + if n.opened = some participant then 1 else 0 := by
  simp [barsOn, List.countP_cons]

namespace Document.WellIndexed

variable {d : Document} {above : List Node} {n : Node}

/-- **A depth is counted along the path.** The bars around a node are those that the nodes above it
    open. -/
theorem depth_of_path (h : d.WellIndexed) (hpath : d.Path above n) (participant : String) :
    d.depth n.id participant = barsOn participant above := by
  rw [depth, h.ancestors_of_path hpath, List.countP_map, barsOn]
  apply List.countP_congr
  intro m hm
  obtain ⟨higher, hm⟩ := hpath.exists_path_of_mem hm
  simp [h.activation?_of_path hm]

end Document.WellIndexed

end SequenceDiagram
