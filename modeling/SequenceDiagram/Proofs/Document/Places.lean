import SequenceDiagram.Proofs.Induction

namespace SequenceDiagram

/-!
# The places of a document

A walk over the tree of a document that meets every node before those inside it, and notes for each
node the message or fragment directly around it.

* `Document.places` is the walk; `Node.inner` is the part of it strictly inside a node.
* `findOf?_eq`, `messagesOf_eq` and `fragmentsOf_eq` say that the queries on trees read this walk.
* `cons_inner_sublist` and `Document.around_cases` tie the walk to the nesting: a node is met right
  before what stands inside it, and a place that is not at the top stands inside the node that it
  names as the one around it.
* `Node.children` are the nodes directly inside a node, and `descentSteps` goes down by them.
-/

/-- A node with the number of the message or fragment directly around it. -/
structure Place where
  around : Option NodeId
  node : Node

mutual

/-- The places at and below a node. -/
def Node.places (around : Option NodeId) : Node → List Place
  | .message m body => ⟨around, .message m body⟩ :: placesOf (some m.id) body
  | .fragment f sections => ⟨around, .fragment f sections⟩ :: placesIn (some f.id) sections
  | .divider id note source => [⟨around, .divider id note source⟩]
  | .rejected x => [⟨around, .rejected x⟩]

/-- The places at and below some nodes. -/
def placesOf (around : Option NodeId) : List Node → List Place
  | [] => []
  | n :: rest => n.places around ++ placesOf around rest

/-- The places in some sections. -/
def placesIn (around : Option NodeId) : List Section → List Place
  | [] => []
  | .mk _ _ body :: rest => placesOf around body ++ placesIn around rest

end

/-- The places of a document, in the order of the source. -/
def Document.places (d : Document) : List Place := placesOf none d.nodes

namespace Node

/-- The places strictly inside a node. -/
def inner : Node → List Place
  | message m body => placesOf (some m.id) body
  | fragment f sections => placesIn (some f.id) sections
  | divider _ _ _ => []
  | rejected _ => []

/-- The nodes directly inside a node. -/
def children : Node → List Node
  | message _ body => body
  | fragment _ sections => sections.flatMap (·.body)
  | divider _ _ _ => []
  | rejected _ => []

/-- The message that a node is. -/
def message? : Node → Option Message
  | message m _ => some m
  | _ => none

/-- The fragment that a node is. -/
def fragment? : Node → Option FragmentTree
  | fragment f sections => some ⟨f, sections⟩
  | _ => none

/-- The lifeline on which a node opens a bar. -/
def opened : Node → Option String
  | message m _ => if m.kind.activates then some m.receiver else none
  | _ => none

theorem places_eq (around : Option NodeId) (n : Node) :
    n.places around = ⟨around, n⟩ :: n.inner := by
  cases n <;> rfl

/-- What holds of a node and of the places inside it holds of all places at and below it. -/
theorem forall_places {p : Place → Prop} {around : Option NodeId} {n : Node} (hn : p ⟨around, n⟩)
    (hinner : ∀ x ∈ n.inner, p x) : ∀ x ∈ n.places around, p x := by
  rw [n.places_eq]
  exact List.forall_mem_cons.mpr ⟨hn, hinner⟩

theorem message?_eq_some {n : Node} {m : Message} :
    n.message? = some m ↔ ∃ body, n = .message m body := by
  cases n <;> simp [message?]

theorem fragment?_eq_some {n : Node} {f : FragmentTree} :
    n.fragment? = some f ↔ n = .fragment f.fragment f.sections := by
  obtain ⟨fragment, sections⟩ := f
  cases n <;> simp [fragment?]

end Node

/-- What the table has to say about the node. -/
def Place.entry (p : Place) : Entry := ⟨p.around, p.node.opened⟩

/-! ### The queries read the walk -/

/-- Looking for a number goes through the walk. -/
theorem findSteps (id : NodeId) : Node.Steps
    (fun n => ∀ a, n.find? id = ((n.places a).find? (·.node.id = id)).map (·.node))
    (fun ns => ∀ a, findOf? id ns = ((placesOf a ns).find? (·.node.id = id)).map (·.node))
    (fun ss => ∀ a, findIn? id ss = ((placesIn a ss).find? (·.node.id = id)).map (·.node)) where
  message m body hbody a := by
    -- a node is met, and found, before those inside it
    rw [Node.find?, Node.places, List.find?_cons]
    by_cases h : m.id = id
    · simp [Node.id, h]
    · simp [Node.id, h, hbody (some m.id)]
  fragment f sections hsections a := by
    rw [Node.find?, Node.places, List.find?_cons]
    by_cases h : f.id = id
    · simp [Node.id, h]
    · simp [Node.id, h, hsections (some f.id)]
  divider i note source a := by
    by_cases h : i = id <;> simp [Node.find?, Node.places, Node.id, h]
  rejected x a := by
    by_cases h : x.id = id <;> simp [Node.find?, Node.places, Node.id, h]
  nil a := rfl
  cons n rest hn hrest a := by
    rw [findOf?, placesOf, List.find?_append, hn a, hrest a, Option.map_or]
  noSection a := rfl
  inSection label condition body rest hbody hrest a := by
    rw [findIn?, placesIn, List.find?_append, hbody a, hrest a, Option.map_or]

theorem findOf?_eq (id : NodeId) (around : Option NodeId) (ns : List Node) :
    findOf? id ns = ((placesOf around ns).find? (·.node.id = id)).map (·.node) :=
  (findSteps id).nodes ns around

/-- The messages are met in the order of the walk. -/
theorem messagesSteps : Node.Steps
    (fun n => ∀ a, n.messages = (n.places a).filterMap (·.node.message?))
    (fun ns => ∀ a, messagesOf ns = (placesOf a ns).filterMap (·.node.message?))
    (fun ss => ∀ a, messagesIn ss = (placesIn a ss).filterMap (·.node.message?)) where
  message m body hbody a := by
    show m :: messagesOf body = m :: (placesOf (some m.id) body).filterMap (·.node.message?)
    rw [hbody (some m.id)]
  fragment f sections hsections a := by
    show messagesIn sections = (placesIn (some f.id) sections).filterMap (·.node.message?)
    exact hsections (some f.id)
  divider id note source a := rfl
  rejected x a := rfl
  nil a := rfl
  cons n rest hn hrest a := by
    rw [messagesOf, placesOf, List.filterMap_append, ← hn a, ← hrest a]
  noSection a := rfl
  inSection label condition body rest hbody hrest a := by
    rw [messagesIn, placesIn, List.filterMap_append, ← hbody a, ← hrest a]

theorem messagesOf_eq (around : Option NodeId) (ns : List Node) :
    messagesOf ns = (placesOf around ns).filterMap (·.node.message?) :=
  messagesSteps.nodes ns around

/-- The fragments are met in the order of the walk. -/
theorem fragmentsSteps : Node.Steps
    (fun n => ∀ a, n.fragments = (n.places a).filterMap (·.node.fragment?))
    (fun ns => ∀ a, fragmentsOf ns = (placesOf a ns).filterMap (·.node.fragment?))
    (fun ss => ∀ a, fragmentsIn ss = (placesIn a ss).filterMap (·.node.fragment?)) where
  message m body hbody a := by
    show fragmentsOf body = (placesOf (some m.id) body).filterMap (·.node.fragment?)
    exact hbody (some m.id)
  fragment f sections hsections a := by
    show ⟨f, sections⟩ :: fragmentsIn sections =
      ⟨f, sections⟩ :: (placesIn (some f.id) sections).filterMap (·.node.fragment?)
    rw [hsections (some f.id)]
  divider id note source a := rfl
  rejected x a := rfl
  nil a := rfl
  cons n rest hn hrest a := by
    rw [fragmentsOf, placesOf, List.filterMap_append, ← hn a, ← hrest a]
  noSection a := rfl
  inSection label condition body rest hbody hrest a := by
    rw [fragmentsIn, placesIn, List.filterMap_append, ← hbody a, ← hrest a]

theorem fragmentsOf_eq (around : Option NodeId) (ns : List Node) :
    fragmentsOf ns = (placesOf around ns).filterMap (·.node.fragment?) :=
  fragmentsSteps.nodes ns around

/-- A message of a document stands at one of its places. -/
theorem Document.exists_place_of_mem_messages {d : Document} {m : Message}
    (h : m ∈ d.messages) : ∃ x ∈ d.places, ∃ body, x.node = .message m body := by
  rw [messages, messagesOf_eq none] at h
  obtain ⟨x, hx, hm⟩ := List.mem_filterMap.mp h
  exact ⟨x, hx, Node.message?_eq_some.mp hm⟩

/-- A call of a document opens the bar of its receiver at one of its places. -/
theorem Document.exists_place_of_activates {d : Document} {m : Message} (h : m ∈ d.messages)
    (hactivates : m.kind.activates = true) :
    ∃ x ∈ d.places, x.node.id = m.id ∧ x.node.opened = some m.receiver := by
  obtain ⟨x, hx, body, hnode⟩ := exists_place_of_mem_messages h
  refine ⟨x, hx, ?_, ?_⟩
  · rw [hnode]
    rfl
  · rw [hnode]
    exact if_pos hactivates

/-- A fragment of a document stands at one of its places. -/
theorem Document.exists_place_of_mem_fragments {d : Document} {f : FragmentTree}
    (h : f ∈ d.fragments) : ∃ x ∈ d.places, x.node = .fragment f.fragment f.sections := by
  rw [fragments, fragmentsOf_eq none] at h
  obtain ⟨x, hx, hf⟩ := List.mem_filterMap.mp h
  exact ⟨x, hx, Node.fragment?_eq_some.mp hf⟩

theorem fragmentsIn_eq (around : Option NodeId) (ss : List Section) :
    fragmentsIn ss = (placesIn around ss).filterMap (·.node.fragment?) :=
  fragmentsSteps.sections ss around

/-! ### The walk and the nesting -/

/-- A node of the walk is met right before what stands inside it. -/
theorem innerSteps : Node.Steps
    (fun n => ∀ a, ∀ x ∈ n.places a, (x :: x.node.inner).Sublist (n.places a))
    (fun ns => ∀ a, ∀ x ∈ placesOf a ns, (x :: x.node.inner).Sublist (placesOf a ns))
    (fun ss => ∀ a, ∀ x ∈ placesIn a ss, (x :: x.node.inner).Sublist (placesIn a ss)) where
  message m body hbody a x hx := by
    rw [Node.places] at hx ⊢
    rcases List.mem_cons.mp hx with rfl | hx
    · exact .refl _
    · exact (hbody _ x hx).cons _
  fragment f sections hsections a x hx := by
    rw [Node.places] at hx ⊢
    rcases List.mem_cons.mp hx with rfl | hx
    · exact .refl _
    · exact (hsections _ x hx).cons _
  divider id note source a x hx := by
    rw [Node.places, List.mem_singleton] at hx
    subst hx
    exact .refl _
  rejected y a x hx := by
    rw [Node.places, List.mem_singleton] at hx
    subst hx
    exact .refl _
  nil a x hx := by simp [placesOf] at hx
  cons n rest hn hrest a x hx := by
    -- a node and what stands inside it are on the same side of the seam
    rw [placesOf] at hx ⊢
    rcases List.mem_append.mp hx with hx | hx
    · exact List.sublist_append_of_sublist_left (hn a x hx)
    · exact List.sublist_append_of_sublist_right (hrest a x hx)
  noSection a x hx := by simp [placesIn] at hx
  inSection label condition body rest hbody hrest a x hx := by
    rw [placesIn] at hx ⊢
    rcases List.mem_append.mp hx with hx | hx
    · exact List.sublist_append_of_sublist_left (hbody a x hx)
    · exact List.sublist_append_of_sublist_right (hrest a x hx)

theorem cons_inner_sublist {d : Document} {x : Place} (hx : x ∈ d.places) :
    (x :: x.node.inner).Sublist d.places :=
  innerSteps.nodes d.nodes none x hx

/-- What stands inside a node inside a node stands inside the outer one. -/
theorem inner_subset_inner {n : Node} {x : Place} (hx : x ∈ n.inner) :
    x.node.inner ⊆ n.inner := by
  refine List.Subset.trans (List.subset_cons_self x _) (List.Sublist.subset ?_)
  cases n with
  | message m body => exact innerSteps.nodes body _ x hx
  | fragment f sections => exact innerSteps.sections sections _ x hx
  | divider id note source => simp [Node.inner] at hx
  | rejected y => simp [Node.inner] at hx

theorem places_subset_placesOf (around : Option NodeId) {n : Node} {ns : List Node} (hn : n ∈ ns) :
    n.places around ⊆ placesOf around ns := by
  induction ns with
  | nil => cases hn
  | cons n' rest ih =>
    rw [placesOf]
    rcases List.mem_cons.mp hn with rfl | hn
    · exact List.subset_append_left _ _
    · exact List.subset_append_of_subset_right _ (ih hn)

theorem placesOf_subset_placesIn (around : Option NodeId) {x : Section} {sections : List Section}
    (hx : x ∈ sections) : placesOf around x.body ⊆ placesIn around sections := by
  induction sections with
  | nil => cases hx
  | cons y rest ih =>
    obtain ⟨label, condition, body⟩ := y
    rw [placesIn]
    rcases List.mem_cons.mp hx with rfl | hx
    · exact List.subset_append_left _ _
    · exact List.subset_append_of_subset_right _ (ih hx)

/-- The nodes directly inside a node name it as the one around them. -/
theorem Node.mem_inner_of_mem_children {m n : Node} (h : n ∈ m.children) :
    ⟨some m.id, n⟩ ∈ m.inner := by
  have hself : ∀ around, ⟨around, n⟩ ∈ n.places around := by
    intro around
    simp [n.places_eq]
  cases m with
  | message m body => exact places_subset_placesOf _ h (hself _)
  | fragment f sections =>
    obtain ⟨x, hx, hn⟩ := List.mem_flatMap.mp h
    have hbody := places_subset_placesOf (some f.id) hn (hself _)
    exact placesOf_subset_placesIn _ hx hbody
  | divider id note source => cases h
  | rejected x => cases h

/-- What holds of the nodes at the top, and goes from a node to those directly inside it, holds of all
    nodes. -/
theorem descentSteps {p : Node → Prop} (hdown : ∀ m n, p m → n ∈ m.children → p n) : Node.Steps
    (fun n => p n → ∀ a, ∀ x ∈ n.places a, p x.node)
    (fun ns => (∀ n ∈ ns, p n) → ∀ a, ∀ x ∈ placesOf a ns, p x.node)
    (fun ss => (∀ s ∈ ss, ∀ n ∈ s.body, p n) → ∀ a, ∀ x ∈ placesIn a ss, p x.node) where
  message m body hbody h a := by
    refine Node.forall_places h (hbody ?_ (some m.id))
    intro n hn
    exact hdown _ n h hn
  fragment f sections hsections h a := by
    refine Node.forall_places h (hsections ?_ (some f.id))
    intro s hs n hn
    exact hdown _ n h (List.mem_flatMap.mpr ⟨s, hs, hn⟩)
  divider id note source h a := Node.forall_places h fun x hx => nomatch hx
  rejected y h a := Node.forall_places h fun x hx => nomatch hx
  nil h a x hx := by cases hx
  cons n rest hn hrest h a := by
    obtain ⟨hfirst, hothers⟩ := List.forall_mem_cons.mp h
    exact List.forall_mem_append.mpr ⟨hn hfirst a, hrest hothers a⟩
  noSection h a x hx := by cases hx
  inSection label condition body rest hbody hrest h a := by
    obtain ⟨hfirst, hothers⟩ := List.forall_mem_cons.mp h
    exact List.forall_mem_append.mpr ⟨hbody hfirst a, hrest hothers a⟩

/-- The place is at the top of a walk, below `around`, or stands inside the node of the walk that it
    names. -/
def Place.FollowsFrom (x : Place) (around : Option NodeId) (walk : List Place) : Prop :=
  x.around = around ∨ ∃ y ∈ walk, x.around = some y.node.id ∧ x ∈ y.node.inner

theorem Place.FollowsFrom.mono {x : Place} {around : Option NodeId} {walk walk' : List Place}
    (h : x.FollowsFrom around walk) (hsub : walk ⊆ walk') : x.FollowsFrom around walk' :=
  h.imp_right fun ⟨y, hy, hxy⟩ => ⟨y, hsub hy, hxy⟩

/-- A node on top of the walk inside it catches the places at the top of that walk. -/
theorem Place.FollowsFrom.under {x : Place} {around : Option NodeId} {n : Node}
    (hx : x ∈ n.inner) (h : x.FollowsFrom (some n.id) n.inner) :
    x.FollowsFrom around (⟨around, n⟩ :: n.inner) := by
  rcases h with htop | ⟨y, hy, hxy⟩
  · exact .inr ⟨⟨around, n⟩, List.mem_cons_self, htop, hx⟩
  · exact .inr ⟨y, List.mem_cons_of_mem _ hy, hxy⟩

/-- Every place of the walk names the node that it stands directly inside. -/
theorem aroundSteps : Node.Steps
    (fun n => ∀ a, ∀ x ∈ n.places a, x.FollowsFrom a (n.places a))
    (fun ns => ∀ a, ∀ x ∈ placesOf a ns, x.FollowsFrom a (placesOf a ns))
    (fun ss => ∀ a, ∀ x ∈ placesIn a ss, x.FollowsFrom a (placesIn a ss)) where
  message m body hbody a x hx := by
    -- the walk of the body calls this message the one around it
    rw [Node.places] at hx ⊢
    rcases List.mem_cons.mp hx with rfl | hx
    · exact .inl rfl
    · exact Place.FollowsFrom.under hx (hbody _ x hx)
  fragment f sections hsections a x hx := by
    rw [Node.places] at hx ⊢
    rcases List.mem_cons.mp hx with rfl | hx
    · exact .inl rfl
    · exact Place.FollowsFrom.under hx (hsections _ x hx)
  divider id note source a x hx := by
    rw [Node.places, List.mem_singleton] at hx
    subst hx
    exact .inl rfl
  rejected y a x hx := by
    rw [Node.places, List.mem_singleton] at hx
    subst hx
    exact .inl rfl
  nil a x hx := by simp [placesOf] at hx
  cons n rest hn hrest a x hx := by
    rw [placesOf] at hx ⊢
    rcases List.mem_append.mp hx with hx | hx
    · exact (hn a x hx).mono (List.subset_append_left _ _)
    · exact (hrest a x hx).mono (List.subset_append_right _ _)
  noSection a x hx := by simp [placesIn] at hx
  inSection label condition body rest hbody hrest a x hx := by
    rw [placesIn] at hx ⊢
    rcases List.mem_append.mp hx with hx | hx
    · exact (hbody a x hx).mono (List.subset_append_left _ _)
    · exact (hrest a x hx).mono (List.subset_append_right _ _)

/-- A place of a document is at the top, or stands inside the node that it names. -/
theorem Document.around_cases {d : Document} {x : Place} (hx : x ∈ d.places) :
    x.around = none ∨ ∃ y ∈ d.places, x.around = some y.node.id ∧ x ∈ y.node.inner :=
  aroundSteps.nodes d.nodes none x hx

end SequenceDiagram
