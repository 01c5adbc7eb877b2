import SequenceDiagram.Proofs.Document.Places

namespace SequenceDiagram

open Syntax

/-!
# The table of a document indexes its tree

The table is written while the statements are read, before it is known whether they are understood,
and apart from the tree. It says the same as the tree all the same:

* `Indexes` is the invariant of a reading: its entries are those of the places of its value, and the
  numbers of these places are the next ones in a row.
* `Document.WellIndexed` states it for a whole document, and `interpret_wellIndexed` says that
  interpreting a program gives such a document.
* From it follow what the table and `find?` say about a place (`WellIndexed.get`,
  `WellIndexed.find`), that a parent has the smaller number (`WellIndexed.parent_lt`), and that the
  ancestors of a place are nodes that it stands inside (`WellIndexed.exists_ancestor`).
-/

/-! ### Readings -/

/-- The entries are those of the places, which are numbered in a row from `next` on. -/
structure Indexes (entries : List Entry) (next : NodeId) (places : List Place) : Prop where
  entries_eq : entries = places.map Place.entry
  ids : places.map (·.node.id) = List.range' next places.length

namespace Indexes

theorem nil (next : NodeId) : Indexes [] next [] := ⟨rfl, rfl⟩

theorem length_eq {entries : List Entry} {next : NodeId} {places : List Place}
    (h : Indexes entries next places) : entries.length = places.length := by
  rw [h.entries_eq, List.length_map]

/-- A place in front takes the number before the others. -/
theorem cons {entries : List Entry} {id : NodeId} {places : List Place} {x : Place}
    (hid : x.node.id = id) (h : Indexes entries (id + 1) places) :
    Indexes (x.entry :: entries) id (x :: places) where
  entries_eq := by rw [h.entries_eq, List.map_cons]
  ids := by rw [List.map_cons, h.ids, hid, List.length_cons, List.range'_succ]

/-- A node takes the number before those inside it. -/
theorem node (around : Option NodeId) (n : Node) {entries : List Entry} {id : NodeId}
    (hid : n.id = id) (h : Indexes entries (id + 1) n.inner) :
    Indexes (⟨around, n.opened⟩ :: entries) id (n.places around) := by
  rw [n.places_eq]
  exact .cons (x := ⟨around, n⟩) hid h

/-- Numbers go on where those of the first places end. -/
theorem append {first rest : List Entry} {next : NodeId} {places others : List Place}
    (h : Indexes first next places) (hrest : Indexes rest (next + first.length) others) :
    Indexes (first ++ rest) next (places ++ others) where
  entries_eq := by rw [h.entries_eq, hrest.entries_eq, List.map_append]
  ids := by
    rw [List.map_append, h.ids, hrest.ids, h.length_eq, List.length_append,
      List.range'_append_1]

end Indexes

/-- **The table follows the tree.** Whatever becomes of a statement, it gets one number, and the
    statements inside it get the numbers after it. -/
theorem indexSteps : Frame.Steps
    (fun frame id x => Indexes x.entries id (x.value.places frame.parent))
    (fun frame next x => Indexes x.entries next (placesOf frame.parent x.value))
    (fun frame next x => Indexes x.entries next (placesIn frame.parent x.value)) where
  rejected frame id s reason := .node frame.parent (frame.reject id s reason).value rfl (.nil _)
  opening frame id m inner hm h := by
    -- the entry is written before the body is read, and has the bar of the message
    have hopened : (Node.message m inner.value).opened = some m.receiver := if_pos hm.activates
    show Indexes (⟨frame.parent, some m.receiver⟩ :: inner.entries) id
      (Node.places frame.parent (.message m inner.value))
    rw [← hopened]
    exact .node frame.parent (.message m inner.value) hm.id_eq h
  passing frame id m hm := by
    have hopened : (Node.message m []).opened = none := by simp [Node.opened, hm.not_activates]
    show Indexes [⟨frame.parent, none⟩] id (Node.places frame.parent (.message m []))
    rw [← hopened]
    exact .node frame.parent (.message m []) hm.id_eq (.nil _)
  divider frame id note source := .node frame.parent (.divider id note source) rfl (.nil _)
  reference frame id x := .node frame.parent (frame.reference id x) rfl (.nil _)
  block frame id kind source inner h :=
    .node frame.parent (frame.fragment id (.block kind) source inner.value []) rfl h
  nil frame next := .nil _
  cons frame next first rest hfirst hrest := hfirst.append hrest
  noSection frame next := .nil _
  inSection frame next label condition inner rest hinner hrest := hinner.append hrest

/-! ### Documents -/

/-- The table of the document has the entries of its places, which are numbered in a row. -/
def Document.WellIndexed (d : Document) : Prop := Indexes d.entries 0 d.places

/-- Interpreting a program gives a document whose table follows its tree. -/
theorem interpret_wellIndexed (program : Program) (starter : Option String) :
    (interpret program starter).document.WellIndexed :=
  indexSteps.statements ⟨none, topOrigin program starter, none, none⟩ 0 program.statements

/-- A number with a bar is one of the table. -/
theorem Document.lt_of_activation?_eq_some {d : Document} {id : NodeId} {participant : String}
    (h : d.activation? id = some participant) : id < d.entries.length := by
  refine Nat.lt_of_not_le fun hout => ?_
  rw [activation?, List.getElem?_eq_none hout] at h
  cases h

namespace Document.WellIndexed

variable {d : Document}

/-- The numbers of the places are those of the table. -/
theorem ids_eq (h : d.WellIndexed) : d.places.map (·.node.id) = List.range d.entries.length := by
  rw [h.ids, h.length_eq, List.range_eq_range']

/-- The place of a number stands at that number in the walk. -/
theorem getElem?_places (h : d.WellIndexed) {x : Place} (hx : x ∈ d.places) :
    d.places[x.node.id]? = some x := by
  -- the numbers are those of a count, so the place with index `i` has the number `i`
  obtain ⟨i, hi, rfl⟩ := List.getElem_of_mem hx
  have hid : (d.places.map (·.node.id))[i]? = some i := by
    rw [h.ids, List.getElem?_range' hi]
    simp
  rw [List.getElem?_map, List.getElem?_eq_getElem hi, Option.map_some, Option.some.injEq] at hid
  rw [hid, List.getElem?_eq_getElem hi]

/-- Two places of one number are one place. -/
theorem eq_of_id_eq (h : d.WellIndexed) {x y : Place} (hx : x ∈ d.places) (hy : y ∈ d.places)
    (hid : x.node.id = y.node.id) : x = y := by
  have hxy := h.getElem?_places hx
  rw [hid, h.getElem?_places hy, Option.some.injEq] at hxy
  exact hxy.symm

/-- Two messages of one number are one message. -/
theorem message_eq_of_id_eq (h : d.WellIndexed) {m m' : Message} (hm : m ∈ d.messages)
    (hm' : m' ∈ d.messages) (hid : m.id = m'.id) : m = m' := by
  obtain ⟨x, hx, body, hnode⟩ := exists_place_of_mem_messages hm
  obtain ⟨x', hx', body', hnode'⟩ := exists_place_of_mem_messages hm'
  have hids : x.node.id = x'.node.id := by
    rw [hnode, hnode']
    exact hid
  rw [h.eq_of_id_eq hx hx' hids, hnode'] at hnode
  cases hnode
  rfl

/-- A number of the table is that of a place. -/
theorem exists_place (h : d.WellIndexed) {id : NodeId} (hid : id < d.entries.length) :
    ∃ x ∈ d.places, x.node.id = id := by
  have hmem : id ∈ d.places.map (·.node.id) := by
    rw [h.ids_eq]
    exact List.mem_range.mpr hid
  exact List.mem_map.mp hmem

theorem id_lt (h : d.WellIndexed) {x : Place} (hx : x ∈ d.places) :
    x.node.id < d.entries.length := by
  have hmem : x.node.id ∈ d.places.map (·.node.id) := List.mem_map_of_mem hx
  rw [h.ids_eq] at hmem
  exact List.mem_range.mp hmem

/-- The table says of each place what the tree says. -/
theorem get (h : d.WellIndexed) {x : Place} (hx : x ∈ d.places) :
    d.entries[x.node.id]? = some x.entry := by
  rw [h.entries_eq, List.getElem?_map, h.getElem?_places hx, Option.map_some]

theorem parent?_eq (h : d.WellIndexed) {x : Place} (hx : x ∈ d.places) :
    d.parent? x.node.id = x.around := by
  rw [Document.parent?, h.get hx]
  rfl

theorem activation?_eq (h : d.WellIndexed) {x : Place} (hx : x ∈ d.places) :
    d.activation? x.node.id = x.node.opened := by
  rw [Document.activation?, h.get hx]
  rfl

/-- A number that the table does not have has no parent. -/
theorem parent?_eq_none {id : NodeId} (hid : d.entries.length ≤ id) : d.parent? id = none := by
  rw [Document.parent?, List.getElem?_eq_none hid]
  rfl

/-- Looking for the number of a place finds its node. -/
theorem find (h : d.WellIndexed) {x : Place} (hx : x ∈ d.places) :
    d.find? x.node.id = some x.node := by
  rw [Document.find?, findOf?_eq x.node.id none]
  show (d.places.find? _).map (·.node) = some x.node
  cases hfound : d.places.find? (·.node.id = x.node.id) with
  | none =>
    have hno := List.find?_eq_none.mp hfound x hx
    simp at hno
  | some y =>
    have hid : y.node.id = x.node.id := by simpa using List.find?_some hfound
    rw [h.eq_of_id_eq (List.mem_of_find?_eq_some hfound) hx hid, Option.map_some]

/-- There is nothing to find at a number that the table does not have. -/
theorem find_eq_none (h : d.WellIndexed) {id : NodeId} (hid : d.entries.length ≤ id) :
    d.find? id = none := by
  rw [Document.find?, findOf?_eq id none, Option.map_eq_none_iff, List.find?_eq_none]
  intro x hx
  have hlt : x.node.id < d.entries.length := h.id_lt hx
  simpa using Nat.ne_of_lt (Nat.lt_of_lt_of_le hlt hid)

/-- What stands inside a node has a larger number. -/
theorem id_lt_of_mem_inner (h : d.WellIndexed) {x y : Place} (hy : y ∈ d.places)
    (hx : x ∈ y.node.inner) : y.node.id < x.node.id := by
  -- the numbers grow along the walk, and the inside of a node is met after the node
  have hsorted : ((y :: y.node.inner).map (·.node.id)).Pairwise (· < ·) := by
    refine List.Pairwise.sublist ((cons_inner_sublist hy).map _) ?_
    rw [h.ids_eq]
    exact List.pairwise_lt_range
  rw [List.map_cons, List.pairwise_cons] at hsorted
  exact hsorted.1 _ (List.mem_map_of_mem hx)

/-! ### The order of the numbers -/

/-- A walk that picks some of the nodes meets them by their numbers. -/
theorem ids_increase (h : d.WellIndexed) {α : Type}
    {pick : Node → Option α} {id : α → NodeId}
    (hid : ∀ n x, pick n = some x → id x = n.id) :
    ((d.places.filterMap fun x => pick x.node).map id).Pairwise (· < ·) := by
  -- the numbers of all places increase, and the nodes that are picked keep their order
  have hall : (d.places.map (·.node.id)).Pairwise (· < ·) := by
    rw [h.ids_eq]
    exact List.pairwise_lt_range
  rw [List.pairwise_map] at hall ⊢
  refine hall.filterMap _ fun x y hxy a ha b hb => ?_
  rw [hid _ _ ha, hid _ _ hb]
  exact hxy

/-- The messages of a document go by their numbers. -/
theorem messages_increase (h : d.WellIndexed) : (d.messages.map (·.id)).Pairwise (· < ·) := by
  rw [messages, messagesOf_eq none]
  refine h.ids_increase fun n m hm => ?_
  obtain ⟨body, rfl⟩ := Node.message?_eq_some.mp hm
  rfl

/-- The fragments of a document go by their numbers. -/
theorem fragments_increase (h : d.WellIndexed) :
    (d.fragments.map (·.fragment.id)).Pairwise (· < ·) := by
  rw [fragments, fragmentsOf_eq none]
  refine h.ids_increase fun n f hf => ?_
  rw [Node.fragment?_eq_some.mp hf]
  rfl

/-! ### Ancestors -/

/-- A parent is the number of a node that the place stands inside. -/
theorem exists_parent (h : d.WellIndexed) {x : Place} (hx : x ∈ d.places) {parent : NodeId}
    (hparent : d.parent? x.node.id = some parent) :
    ∃ y ∈ d.places, y.node.id = parent ∧ x ∈ y.node.inner := by
  rw [h.parent?_eq hx] at hparent
  rcases Document.around_cases hx with htop | ⟨y, hy, hxy, hinner⟩
  · rw [htop] at hparent
    cases hparent
  · rw [hxy, Option.some.injEq] at hparent
    exact ⟨y, hy, hparent, hinner⟩

/-- A parent has the smaller number. -/
theorem parent_lt (h : d.WellIndexed) {id parent : NodeId} (hparent : d.parent? id = some parent) :
    parent < id := by
  by_cases hid : id < d.entries.length
  · obtain ⟨x, hx, rfl⟩ := h.exists_place hid
    obtain ⟨y, hy, rfl, hinner⟩ := h.exists_parent hx hparent
    exact h.id_lt_of_mem_inner hy hinner
  · -- the table has no entry for the number, and so no parent
    rw [parent?_eq_none (Nat.le_of_not_lt hid)] at hparent
    cases hparent

/-- The chain of ancestors never stops before the top. -/
theorem ancestors_eq (h : d.WellIndexed) (id : NodeId) :
    d.ancestors id = match d.parent? id with
      | some parent => parent :: d.ancestors parent
      | none => [] := by
  rw [Document.ancestors]
  cases hparent : d.parent? id with
  | none => rfl
  | some parent => exact if_pos (h.parent_lt hparent)

/-- An ancestor is the number of a node that the place stands inside. -/
theorem exists_ancestor (h : d.WellIndexed) {x : Place} (hx : x ∈ d.places) {id : NodeId}
    (hid : id ∈ d.ancestors x.node.id) : ∃ y ∈ d.places, y.node.id = id ∧ x ∈ y.node.inner := by
  -- by induction on the number: the parent's chain is the rest of the chain
  induction hn : x.node.id using Nat.strongRecOn generalizing x with
  | ind n ih =>
    subst hn
    rw [h.ancestors_eq] at hid
    cases hparent : d.parent? x.node.id with
    | none =>
      rw [hparent] at hid
      cases hid
    | some parent =>
      rw [hparent] at hid
      obtain ⟨y, hy, rfl, hxy⟩ := h.exists_parent hx hparent
      rcases List.mem_cons.mp hid with rfl | hid
      · exact ⟨y, hy, rfl, hxy⟩
      · -- what is around the parent is around the place as well
        obtain ⟨z, hz, rfl, hyz⟩ := ih _ (h.id_lt_of_mem_inner hy hxy) hy hid rfl
        exact ⟨z, hz, rfl, inner_subset_inner hyz hxy⟩

end Document.WellIndexed

/-- **The table is a faithful index of the tree.** In the walk through the tree, the numbers are
    those of the table, each once and in order. The table has for each node the one directly around
    it and the bar that the node opens, a node is found under its number and nothing under any
    other, and the chain of parents goes down to the top. -/
theorem interpret_table_faithful (program : Program) (starter : Option String) :
    let d := (interpret program starter).document
    d.places.map (·.node.id) = List.range d.entries.length ∧
    (∀ x ∈ d.places, d.entries[x.node.id]? = some ⟨x.around, x.node.opened⟩ ∧
      d.find? x.node.id = some x.node) ∧
    (∀ id, d.entries.length ≤ id → d.find? id = none) ∧
    (∀ id parent, d.parent? id = some parent → parent < id) ∧
    ∀ id, d.ancestors id = match d.parent? id with
      | some parent => parent :: d.ancestors parent
      | none => [] := by
  have h := interpret_wellIndexed program starter
  exact ⟨h.ids_eq, fun x hx => ⟨h.get hx, h.find hx⟩, fun id hid => h.find_eq_none hid,
    fun id parent hparent => h.parent_lt hparent, h.ancestors_eq⟩

end SequenceDiagram
