import Mathlib.Data.List.Sort
import Mathlib.Order.Bounds.Defs
import SequenceDiagram.Proofs.Document.Fragments
import SequenceDiagram.Proofs.Document.Paths

namespace SequenceDiagram

open Syntax

/-!
# The queries on the tree and the table

Every query on the tree of a document is a walk of its own, which goes on into some nodes and stops
at others. The table knows nothing of the tree but the chains of parents, and these say the same.

* `Document.WellIndexed.mem_ancestors_iff`: a node stands inside those that the table names as its
  ancestors, and inside no others.
* `Document.fragmentAround?` is the nearest fragment among the ancestors. By
  `Document.mem_nestedFragments_iff` and `Document.WellIndexed.nestedIn_iff`, the nested fragments of
  a fragment are those for which it is this one.
* `Document.fragmentsUpTo` counts fragments along a chain of ancestors;
  `Document.WellIndexed.levels_le` and `Document.levelsAttained` say that the levels of a fragment
  are the largest one.
* `tree_queries_follow_table` puts them together.
-/

/-- A fragment as a node of a document. -/
def FragmentTree.node (f : FragmentTree) : Node := .fragment f.fragment f.sections

@[simp] theorem FragmentTree.node_id (f : FragmentTree) : f.node.id = f.fragment.id := rfl

/-! ### What stands inside a node -/

/-- What stands inside a node stands directly in it, or in another node inside. -/
theorem Node.followsFrom_of_mem_inner {n : Node} {x : Place} (hx : x ∈ n.inner) :
    x.FollowsFrom (some n.id) n.inner := by
  cases n with
  | message m body => exact aroundSteps.nodes body _ x hx
  | fragment f sections => exact aroundSteps.sections sections _ x hx
  | divider id note source => cases hx
  | rejected y => cases hx

namespace Document

variable {d : Document}

namespace WellIndexed

/-- The chain of ancestors of what stands inside a node comes to this node. -/
theorem mem_ancestors_of_mem_inner (h : d.WellIndexed) {x y : Place} (hy : y ∈ d.places)
    (hx : x ∈ y.node.inner) : y.node.id ∈ d.ancestors x.node.id := by
  have hinside : y.node.inner ⊆ d.places := fun z hz =>
    (cons_inner_sublist hy).subset (List.mem_cons_of_mem _ hz)
  -- by induction on the number, which is smaller for the node that `x` stands directly in
  induction hn : x.node.id using Nat.strongRecOn generalizing x with
  | ind n ih =>
    subst hn
    have hparent := h.parent?_eq (hinside hx)
    rw [h.ancestors_eq, hparent]
    rcases Node.followsFrom_of_mem_inner hx with hdirect | ⟨z, hz, hxz, hinner⟩
    · rw [hdirect]
      exact List.mem_cons_self
    · rw [hxz]
      exact List.mem_cons_of_mem _ (ih _ (h.id_lt_of_mem_inner (hinside hz) hinner) hz rfl)

/-- **The ancestors are the nodes around.** A node stands inside another one exactly if the table
    names this one among its ancestors. -/
theorem mem_ancestors_iff (h : d.WellIndexed) {x y : Place} (hx : x ∈ d.places)
    (hy : y ∈ d.places) : y.node.id ∈ d.ancestors x.node.id ↔ x ∈ y.node.inner := by
  constructor
  · intro hid
    obtain ⟨z, hz, hzid, hinner⟩ := h.exists_ancestor hx hid
    rwa [h.eq_of_id_eq hz hy hzid] at hinner
  · exact h.mem_ancestors_of_mem_inner hy

/-- Along a path the numbers increase from the top. -/
theorem pairwise_of_path (h : d.WellIndexed) {above : List Node} {n : Node}
    (hpath : d.Path above n) : (n :: above).Pairwise fun m m' => m'.id < m.id := by
  induction hpath with
  | top => exact List.pairwise_singleton _ _
  | @down above m n hm hn ih =>
    have hlt : m.id < n.id := by
      apply h.parent_lt
      exact h.parent?_eq (hm.down hn).mem_places
    rw [List.pairwise_cons]
    refine ⟨List.forall_mem_cons.mpr ⟨hlt, fun a ha => ?_⟩, ih⟩
    exact Nat.lt_trans ((List.pairwise_cons.mp ih).1 a ha) hlt

end WellIndexed

/-! ### Messages and fragments of the tree -/

/-- The messages are those that a path leads to. -/
theorem mem_messages_iff {m : Message} :
    m ∈ d.messages ↔ ∃ above body, d.Path above (.message m body) := by
  constructor
  · intro hm
    obtain ⟨x, hx, body, hnode⟩ := exists_place_of_mem_messages hm
    obtain ⟨above, hpath⟩ := exists_path hx
    exact ⟨above, body, hnode ▸ hpath⟩
  · rintro ⟨above, body, hpath⟩
    rw [messages, messagesOf_eq none]
    exact List.mem_filterMap.mpr ⟨_, hpath.mem_places, rfl⟩

/-- The fragments are those that a path leads to. -/
theorem mem_fragments_iff {f : FragmentTree} :
    f ∈ d.fragments ↔ ∃ above, d.Path above f.node := by
  constructor
  · intro hf
    obtain ⟨x, hx, hnode⟩ := exists_place_of_mem_fragments hf
    obtain ⟨above, hpath⟩ := exists_path hx
    rw [hnode] at hpath
    exact ⟨above, hpath⟩
  · rintro ⟨above, hpath⟩
    rw [fragments, fragmentsOf_eq none]
    exact List.mem_filterMap.mpr ⟨_, hpath.mem_places, rfl⟩

/-- Two fragments of one number are one fragment. -/
theorem WellIndexed.fragment_eq_of_id_eq (h : d.WellIndexed) {f g : FragmentTree}
    (hf : f ∈ d.fragments) (hg : g ∈ d.fragments) (hid : f.fragment.id = g.fragment.id) : f = g :=
  List.inj_on_of_nodup_map (h.fragments_increase.imp Nat.ne_of_lt) hf hg hid

/-- A fragment of a document has a place there. -/
theorem exists_place_node {f : FragmentTree} (hf : f ∈ d.fragments) :
    ∃ around, ⟨around, f.node⟩ ∈ d.places := by
  obtain ⟨above, hpath⟩ := mem_fragments_iff.mp hf
  exact ⟨_, hpath.mem_places⟩

/-- The walk through the sections of a fragment is a part of the walk through the document. -/
theorem placesIn_sublist {f : FragmentTree} (hf : f ∈ d.fragments) :
    (placesIn (some f.fragment.id) f.sections).Sublist d.places := by
  obtain ⟨around, hplace⟩ := exists_place_node hf
  exact (List.sublist_cons_self _ _).trans (cons_inner_sublist hplace)

/-- The messages in a fragment are those with the fragment among their ancestors. -/
theorem WellIndexed.mem_messagesIn (h : d.WellIndexed) {f : FragmentTree} (hf : f ∈ d.fragments)
    {m : Message} :
    m ∈ messagesIn f.sections ↔ m ∈ d.messages ∧ f.fragment.id ∈ d.ancestors m.id := by
  obtain ⟨around, hplace⟩ := exists_place_node hf
  have hid : ∀ x : Place, x.node.message? = some m → x.node.id = m.id := by
    intro x hx
    obtain ⟨body, hnode⟩ := Node.message?_eq_some.mp hx
    rw [hnode]
    rfl
  rw [messagesSteps.sections f.sections (some f.fragment.id), messages, messagesOf_eq none,
    List.mem_filterMap, List.mem_filterMap]
  constructor
  · rintro ⟨x, hx, hxm⟩
    rw [← hid x hxm]
    exact ⟨⟨x, (placesIn_sublist hf).subset hx, hxm⟩, h.mem_ancestors_of_mem_inner hplace hx⟩
  · rintro ⟨⟨x, hx, hxm⟩, hancestor⟩
    rw [← hid x hxm] at hancestor
    exact ⟨x, (h.mem_ancestors_iff hx hplace).mp hancestor, hxm⟩

/-! ### The nearest fragment -/

/-- The number is that of a fragment. -/
def isFragment (d : Document) (id : NodeId) : Bool := (d.find? id).any (·.fragment?.isSome)

/-- The nearest fragment among the ancestors. -/
def fragmentAround? (d : Document) (id : NodeId) : Option NodeId :=
  (d.ancestors id).find? d.isFragment

theorem WellIndexed.isFragment_of_path (h : d.WellIndexed) {above : List Node} {n : Node}
    (hpath : d.Path above n) : d.isFragment n.id = n.fragment?.isSome := by
  have hfind : d.find? n.id = some n := h.find hpath.mem_places
  rw [isFragment, hfind, Option.any_some]

/-- The nearest fragment is the first one above. -/
theorem WellIndexed.fragmentAround?_of_path (h : d.WellIndexed) {above : List Node} {n : Node}
    (hpath : d.Path above n) :
    d.fragmentAround? n.id = (above.findSome? Node.fragment?).map (·.fragment.id) := by
  have hsame : ∀ m ∈ above, d.isFragment m.id = m.fragment?.isSome := by
    intro m hm
    obtain ⟨higher, hm⟩ := hpath.exists_path_of_mem hm
    exact h.isFragment_of_path hm
  rw [fragmentAround?, h.ancestors_of_path hpath]
  clear hpath
  induction above with
  | nil => rfl
  | cons m rest ih =>
    obtain ⟨hm, hrest⟩ := List.forall_mem_cons.mp hsame
    rw [List.map_cons, List.find?_cons, List.findSome?_cons, hm]
    cases hf : m.fragment? with
    | none => exact ih hrest
    | some f =>
      rw [Node.fragment?_eq_some.mp hf]
      rfl

/-- The first fragment on the way up from `g` is `f`. -/
def NestedIn (d : Document) (f g : FragmentTree) : Prop :=
  ∃ above, d.Path above g.node ∧ above.findSome? Node.fragment? = some f

/-- The fragments at the top of a node are nested in the nearest fragment above it. -/
theorem outerSteps (f : FragmentTree) : Node.Steps
    (fun n => ∀ above, d.Path above n → above.findSome? Node.fragment? = some f →
      ∀ g ∈ n.outerFragments, d.NestedIn f g)
    (fun ns => ∀ above, (∀ n ∈ ns, d.Path above n) → above.findSome? Node.fragment? = some f →
      ∀ g ∈ outerFragmentsOf ns, d.NestedIn f g)
    (fun _ => True) where
  message m body hbody above hpath hnearest g hg :=
    -- a message is looked through, on the way up as well as on the way down
    hbody (.message m body :: above) (fun _ hn => hpath.down hn) hnearest g hg
  fragment f sections _ above hpath hnearest g hg := by
    cases List.mem_singleton.mp hg
    exact ⟨above, hpath, hnearest⟩
  divider id note source above hpath hnearest g hg := by cases hg
  rejected x above hpath hnearest g hg := by cases hg
  nil above hpath hnearest g hg := by cases hg
  cons n rest hn hrest above hpath hnearest g hg := by
    obtain ⟨hfirst, hothers⟩ := List.forall_mem_cons.mp hpath
    rcases List.mem_append.mp hg with hg | hg
    · exact hn above hfirst hnearest g hg
    · exact hrest above hothers hnearest g hg
  noSection := trivial
  inSection _ _ _ _ _ _ := trivial

theorem outerFragments_subset {n : Node} {ns : List Node} (hn : n ∈ ns) :
    n.outerFragments ⊆ outerFragmentsOf ns := by
  induction ns with
  | nil => cases hn
  | cons n' rest ih =>
    rw [outerFragmentsOf]
    rcases List.mem_cons.mp hn with rfl | hn
    · exact List.subset_append_left _ _
    · exact List.subset_append_of_subset_right _ (ih hn)

/-- What is at the top of a node is nested in the nearest fragment above. -/
theorem Path.outerFragments_subset {f : FragmentTree} {above : List Node} {n : Node}
    (hpath : d.Path above n) (hnearest : above.findSome? Node.fragment? = some f) :
    n.outerFragments ⊆ nestedFragments f.sections := by
  induction hpath with
  | top => cases hnearest
  | @down above m n hm hn ih =>
    cases m with
    | message m body =>
      exact List.Subset.trans (Document.outerFragments_subset hn) (ih hnearest)
    | fragment f' sections =>
      cases hnearest
      obtain ⟨s, hs, hn⟩ := List.mem_flatMap.mp hn
      intro g hg
      exact List.mem_flatMap.mpr ⟨s, hs, Document.outerFragments_subset hn hg⟩
    | divider id note source => cases hn
    | rejected x => cases hn

/-- The nested fragments are those with a path from the fragment that passes no other one. -/
theorem mem_nestedFragments_iff {f : FragmentTree} (hf : f ∈ d.fragments) {g : FragmentTree} :
    g ∈ nestedFragments f.sections ↔ d.NestedIn f g := by
  constructor
  · intro hg
    obtain ⟨above, hpath⟩ := mem_fragments_iff.mp hf
    obtain ⟨s, hs, hg⟩ := List.mem_flatMap.mp hg
    have hbody : ∀ n ∈ s.body, d.Path (f.node :: above) n :=
      fun n hn => hpath.down (List.mem_flatMap.mpr ⟨s, hs, hn⟩)
    exact (outerSteps f).nodes s.body _ hbody rfl g hg
  · rintro ⟨above, hpath, hnearest⟩
    exact hpath.outerFragments_subset hnearest List.mem_cons_self

/-- The table knows which fragment another one is nested in. -/
theorem WellIndexed.nestedIn_iff (h : d.WellIndexed) {f g : FragmentTree} (hf : f ∈ d.fragments) :
    d.NestedIn f g ↔ g ∈ d.fragments ∧ d.fragmentAround? g.fragment.id = some f.fragment.id := by
  constructor
  · rintro ⟨above, hpath, hnearest⟩
    have haround := h.fragmentAround?_of_path hpath
    rw [hnearest] at haround
    exact ⟨mem_fragments_iff.mpr ⟨above, hpath⟩, haround⟩
  · rintro ⟨hg, haround⟩
    obtain ⟨above, hpath⟩ := mem_fragments_iff.mp hg
    have hsome := (h.fragmentAround?_of_path hpath).symm.trans haround
    obtain ⟨f', hnearest, hid⟩ := Option.map_eq_some_iff.mp hsome
    -- the first fragment above has the number of `f`, and so it is `f`
    obtain ⟨m, hm, hmf⟩ := List.exists_of_findSome?_eq_some hnearest
    obtain ⟨higher, hm⟩ := hpath.exists_path_of_mem hm
    rw [Node.fragment?_eq_some.mp hmf] at hm
    have hsame := h.fragment_eq_of_id_eq (mem_fragments_iff.mpr ⟨higher, hm⟩) hf hid
    rw [hsame] at hnearest
    exact ⟨above, hpath, hnearest⟩

/-! ### Levels -/

/-- How many fragments the chain from a node up to an ancestor passes, the node included and the
    ancestor not. -/
def fragmentsUpTo (d : Document) (top id : NodeId) : Nat :=
  ((id :: d.ancestors id).takeWhile (· ≠ top)).countP d.isFragment

/-- How many fragments stand around each other in a fragment, for each one inside. -/
def levelsInside (d : Document) (id : NodeId) : Set Nat :=
  {k | ∃ g ∈ d.fragments, id ∈ d.ancestors g.fragment.id ∧ d.fragmentsUpTo id g.fragment.id = k}

/-- The chain of ancestors passes the fragments of the path. -/
theorem WellIndexed.fragmentsUpTo_of_path (h : d.WellIndexed) {above : List Node} {n : Node}
    (hpath : d.Path above n) (top : NodeId) :
    d.fragmentsUpTo top n.id =
      ((n :: above).takeWhile (·.id ≠ top)).countP (·.fragment?.isSome) := by
  rw [fragmentsUpTo, h.ancestors_of_path hpath, ← List.map_cons (f := Node.id), List.takeWhile_map,
    List.countP_map]
  apply List.countP_congr
  intro m hm
  have hplace : ∃ higher, d.Path higher m := by
    rcases List.mem_cons.mp ((List.takeWhile_sublist _).subset hm) with rfl | hm
    · exact ⟨above, hpath⟩
    · exact hpath.exists_path_of_mem hm
  obtain ⟨higher, hm⟩ := hplace
  simp [h.isFragment_of_path hm]

theorem levels_le_levelsOf {n : Node} {ns : List Node} (hn : n ∈ ns) : n.levels ≤ levelsOf ns := by
  induction ns with
  | nil => cases hn
  | cons n' rest ih =>
    rw [levelsOf]
    rcases List.mem_cons.mp hn with rfl | hn
    · exact Nat.le_max_left _ _
    · exact Nat.le_trans (ih hn) (Nat.le_max_right _ _)

theorem levelsOf_le_nestingLevels {s : Section} {sections : List Section} (hs : s ∈ sections) :
    levelsOf s.body ≤ nestingLevels sections := by
  induction sections with
  | nil => cases hs
  | cons s' rest ih =>
    obtain ⟨label, condition, body⟩ := s'
    rw [nestingLevels]
    rcases List.mem_cons.mp hs with rfl | hs
    · exact Nat.le_max_left _ _
    · exact Nat.le_trans (ih hs) (Nat.le_max_right _ _)

/-- A node has the levels of those directly inside it, and one more if it is a fragment. -/
theorem levels_of_mem_children {m n : Node} (hn : n ∈ m.children) :
    n.levels + (if m.fragment?.isSome then 1 else 0) ≤ m.levels := by
  cases m with
  | message m body => exact levels_le_levelsOf hn
  | fragment f sections =>
    obtain ⟨s, hs, hn⟩ := List.mem_flatMap.mp hn
    have hbody := Nat.le_trans (levels_le_levelsOf hn) (levelsOf_le_nestingLevels hs)
    exact Nat.succ_le_succ hbody
  | divider id note source => cases hn
  | rejected x => cases hn

/-- **No chain passes more fragments than there are levels.** The fragments on a path below another
    one, with the levels of the last node, are not more than the levels of that fragment. -/
theorem WellIndexed.levels_le (h : d.WellIndexed) {f : FragmentTree} {above : List Node} {n : Node}
    (hpath : d.Path above n) (hf : f.node ∈ above) :
    n.levels + (above.takeWhile (·.id ≠ f.fragment.id)).countP (·.fragment?.isSome) ≤
      nestingLevels f.sections := by
  induction hpath with
  | top => cases hf
  | @down above m n hm hn ih =>
    have hlevels := levels_of_mem_children hn
    rcases List.mem_cons.mp hf with rfl | hf
    · rw [List.takeWhile_cons_of_neg (by simp)]
      exact Nat.le_of_succ_le_succ hlevels
    · have hlt : f.fragment.id < m.id := (List.pairwise_cons.mp (h.pairwise_of_path hm)).1 _ hf
      rw [List.takeWhile_cons_of_pos (by simpa using Nat.ne_of_gt hlt), List.countP_cons]
      have hbound := ih hf
      omega

/-- Below some nodes there is a fragment, and the path from them to it passes so many fragments, the
    last one included. -/
def FragmentsBelow (d : Document) (above : List Node) (k : Nat) : Prop :=
  ∃ (g : FragmentTree) (higher lower : List Node), d.Path higher g.node ∧
    g.node :: higher = lower ++ above ∧
    lower.countP (·.fragment?.isSome) = k

/-- A path that starts one node further up passes this node as well. -/
theorem FragmentsBelow.up {above : List Node} {n : Node} {k : Nat}
    (h : d.FragmentsBelow (n :: above) k) :
    d.FragmentsBelow above (k + if n.fragment?.isSome then 1 else 0) := by
  obtain ⟨g, higher, lower, hpath, hsplit, hcount⟩ := h
  refine ⟨g, higher, lower ++ [n], hpath, ?_, ?_⟩
  · rw [hsplit, List.append_assoc]
    rfl
  · rw [List.countP_append, hcount, List.countP_singleton]

/-- The levels of a node are those of some path below it. -/
theorem levelsAttained : Node.Steps
    (fun n => ∀ above, d.Path above n → 0 < n.levels → d.FragmentsBelow above n.levels)
    (fun ns => ∀ above, (∀ n ∈ ns, d.Path above n) → 0 < levelsOf ns →
      d.FragmentsBelow above (levelsOf ns))
    (fun ss => ∀ above, (∀ s ∈ ss, ∀ n ∈ s.body, d.Path above n) → 0 < nestingLevels ss →
      d.FragmentsBelow above (nestingLevels ss)) where
  message m body hbody above hpath hpos :=
    (hbody (.message m body :: above) (fun _ hn => hpath.down hn) hpos).up
  fragment f sections hsections above hpath hpos := by
    rcases Nat.eq_zero_or_pos (nestingLevels sections) with hzero | hinside
    · -- the fragment is the innermost one
      rw [Node.levels, hzero]
      exact ⟨⟨f, sections⟩, above, [.fragment f sections], hpath, rfl, rfl⟩
    · have hdown : ∀ s ∈ sections, ∀ n ∈ s.body, d.Path (.fragment f sections :: above) n :=
        fun s hs n hn => hpath.down (List.mem_flatMap.mpr ⟨s, hs, hn⟩)
      exact (hsections _ hdown hinside).up
  divider id note source above hpath hpos := absurd hpos (Nat.lt_irrefl 0)
  rejected x above hpath hpos := absurd hpos (Nat.lt_irrefl 0)
  nil above hpath hpos := absurd hpos (Nat.lt_irrefl 0)
  cons n rest hn hrest above hpath hpos := by
    obtain ⟨hfirst, hothers⟩ := List.forall_mem_cons.mp hpath
    rw [levelsOf] at hpos ⊢
    rcases Nat.le_total n.levels (levelsOf rest) with hle | hle
    · rw [Nat.max_eq_right hle] at hpos ⊢
      exact hrest above hothers hpos
    · rw [Nat.max_eq_left hle] at hpos ⊢
      exact hn above hfirst hpos
  noSection above hpath hpos := absurd hpos (Nat.lt_irrefl 0)
  inSection label condition body rest hbody hrest above hpath hpos := by
    obtain ⟨hfirst, hothers⟩ := List.forall_mem_cons.mp hpath
    rw [nestingLevels] at hpos ⊢
    rcases Nat.le_total (levelsOf body) (nestingLevels rest) with hle | hle
    · rw [Nat.max_eq_right hle] at hpos ⊢
      exact hrest above hothers hpos
    · rw [Nat.max_eq_left hle] at hpos ⊢
      exact hbody above hfirst hpos

namespace WellIndexed

/-- Every count in a fragment is positive and within its levels. -/
theorem le_of_mem_levelsInside (h : d.WellIndexed) {f : FragmentTree} (hf : f ∈ d.fragments)
    {k : Nat} (hk : k ∈ d.levelsInside f.fragment.id) : 0 < k ∧ k ≤ nestingLevels f.sections := by
  obtain ⟨g, hg, hancestor, rfl⟩ := hk
  obtain ⟨above, hpath⟩ := mem_fragments_iff.mp hg
  -- the ancestor is a node above, and with its number it can only be `f`
  have habove : f.node ∈ above := by
    obtain ⟨top, htop⟩ := mem_fragments_iff.mp hf
    have hids : d.ancestors g.fragment.id = above.map (·.id) := h.ancestors_of_path hpath
    rw [hids] at hancestor
    obtain ⟨m, hm, hid⟩ := List.mem_map.mp hancestor
    obtain ⟨higher, hplace⟩ := hpath.exists_path_of_mem hm
    have hsame := h.eq_of_id_eq hplace.mem_places htop.mem_places hid
    rw [Place.mk.injEq] at hsame
    rwa [← hsame.2]
  have hlt : f.node.id < g.node.id :=
    (List.pairwise_cons.mp (h.pairwise_of_path hpath)).1 _ habove
  have hcount : d.fragmentsUpTo f.fragment.id g.fragment.id = _ :=
    h.fragmentsUpTo_of_path hpath f.fragment.id
  have hfirst : decide (g.node.id ≠ f.fragment.id) = true := decide_eq_true (Nat.ne_of_gt hlt)
  rw [List.takeWhile_cons, if_pos hfirst, List.countP_cons_of_pos rfl] at hcount
  have hlevels : nestingLevels g.sections + 1 + _ ≤ _ := h.levels_le hpath habove
  omega

/-- The levels of a fragment with fragments inside are one of the counts. -/
theorem nestingLevels_mem (h : d.WellIndexed) {f : FragmentTree} (hf : f ∈ d.fragments)
    (hpos : 0 < nestingLevels f.sections) :
    nestingLevels f.sections ∈ d.levelsInside f.fragment.id := by
  obtain ⟨above, hpath⟩ := mem_fragments_iff.mp hf
  obtain ⟨g, higher, lower, hg, hsplit, hcount⟩ := levelsAttained.sections f.sections
    (f.node :: above)
    (fun s hs n hn => hpath.down (List.mem_flatMap.mpr ⟨s, hs, hn⟩)) hpos
  have hne : lower ≠ [] := by
    rintro rfl
    rw [List.countP_nil] at hcount
    omega
  have hpairwise := h.pairwise_of_path hg
  rw [hsplit, List.pairwise_append] at hpairwise
  -- what stands below `f` on the path has a larger number, so the chain goes on up to `f`
  have hlower : ∀ m ∈ lower, decide (m.id ≠ f.fragment.id) = true := by
    intro m hm
    have hlt : f.node.id < m.id := hpairwise.2.2 m hm _ List.mem_cons_self
    exact decide_eq_true (Nat.ne_of_gt hlt)
  refine ⟨g, mem_fragments_iff.mpr ⟨higher, hg⟩, ?_, ?_⟩
  · obtain ⟨first, rest, rfl⟩ := List.exists_cons_of_ne_nil hne
    rw [List.cons_append, List.cons.injEq] at hsplit
    have hids : d.ancestors g.fragment.id = higher.map (·.id) := h.ancestors_of_path hg
    rw [hids, hsplit.2]
    exact List.mem_map_of_mem (List.mem_append_right _ List.mem_cons_self)
  · have hcounted : d.fragmentsUpTo f.fragment.id g.fragment.id = _ :=
      h.fragmentsUpTo_of_path hg f.fragment.id
    rw [hcounted, hsplit, List.takeWhile_append_of_pos hlower,
      List.takeWhile_cons_of_neg (by simp), List.append_nil, hcount]

/-- **The levels of a fragment** are the largest count of fragments from one inside up to it. -/
theorem isGreatest_nestingLevels (h : d.WellIndexed) {f : FragmentTree} (hf : f ∈ d.fragments)
    (hinside : (d.levelsInside f.fragment.id).Nonempty) :
    IsGreatest (d.levelsInside f.fragment.id) (nestingLevels f.sections) := by
  obtain ⟨k, hk⟩ := hinside
  obtain ⟨hpos, hle⟩ := h.le_of_mem_levelsInside hf hk
  exact ⟨h.nestingLevels_mem hf (Nat.lt_of_lt_of_le hpos hle),
    fun k hk => (h.le_of_mem_levelsInside hf hk).2⟩

theorem nestingLevels_eq_zero (h : d.WellIndexed) {f : FragmentTree} (hf : f ∈ d.fragments)
    (hinside : d.levelsInside f.fragment.id = ∅) : nestingLevels f.sections = 0 := by
  refine Nat.eq_zero_of_not_pos fun hpos => ?_
  have hmem := h.nestingLevels_mem hf hpos
  rw [hinside] at hmem
  exact hmem

end WellIndexed

end Document

/-! ### All queries -/

/-- The fragments directly inside some sections keep the order of the walk. -/
theorem outerFragmentsSublist : Node.Steps
    (fun n => n.outerFragments.Sublist n.fragments)
    (fun ns => (outerFragmentsOf ns).Sublist (fragmentsOf ns))
    (fun ss => (nestedFragments ss).Sublist (fragmentsIn ss)) where
  message m body hbody := hbody
  fragment f sections _ := .cons_cons _ (List.nil_sublist _)
  divider id note source := .refl _
  rejected x := .refl _
  nil := .refl _
  cons n rest hn hrest := hn.append hrest
  noSection := .refl _
  inSection label condition body rest hbody hrest := by
    rw [nestedFragments, List.flatMap_cons]
    exact hbody.append hrest

/-- Lists that go by their numbers are the same if they have the same members. -/
theorem eq_of_ids_increase {α : Type} (id : α → NodeId) {xs ys : List α}
    (hxs : (xs.map id).Pairwise (· < ·)) (hys : (ys.map id).Pairwise (· < ·))
    (hmem : ∀ x, x ∈ xs ↔ x ∈ ys) : xs = ys := by
  rw [List.pairwise_map] at hxs hys
  have hirrefl : Std.Irrefl fun x y => id x < id y := ⟨fun x => Nat.lt_irrefl _⟩
  have hantisymm : Std.Antisymm fun x y => id x < id y :=
    ⟨fun x y hxy hyx => absurd hxy (Nat.lt_asymm hyx)⟩
  exact hxs.eq_of_mem_iff hys hmem

namespace Document.WellIndexed

variable {d : Document} {f : FragmentTree}

/-- **The messages of a fragment** are picked from those of the document by the table. -/
theorem messagesIn_eq (h : d.WellIndexed) (hf : f ∈ d.fragments) :
    messagesIn f.sections = d.messages.filter fun m => f.fragment.id ∈ d.ancestors m.id := by
  have hwalk : (messagesIn f.sections).Sublist d.messages := by
    rw [messages, messagesOf_eq none, messagesSteps.sections f.sections (some f.fragment.id)]
    exact (placesIn_sublist hf).filterMap _
  apply eq_of_ids_increase Message.id
  · exact h.messages_increase.sublist (hwalk.map _)
  · exact h.messages_increase.sublist (List.filter_sublist.map _)
  · intro m
    rw [h.mem_messagesIn hf, List.mem_filter, decide_eq_true_eq]

/-- **The fragments nested in a fragment** are picked from those of the document by the table. -/
theorem nestedFragments_eq (h : d.WellIndexed) (hf : f ∈ d.fragments) :
    nestedFragments f.sections =
      d.fragments.filter fun g => d.fragmentAround? g.fragment.id = some f.fragment.id := by
  have hwalk : (nestedFragments f.sections).Sublist d.fragments := by
    refine .trans (outerFragmentsSublist.sections f.sections) ?_
    rw [fragments, fragmentsOf_eq none, fragmentsIn_eq (some f.fragment.id)]
    exact (placesIn_sublist hf).filterMap _
  apply eq_of_ids_increase fun g => g.fragment.id
  · exact h.fragments_increase.sublist (hwalk.map _)
  · exact h.fragments_increase.sublist (List.filter_sublist.map _)
  · intro g
    rw [mem_nestedFragments_iff hf, h.nestedIn_iff hf, List.mem_filter, decide_eq_true_eq]

end Document.WellIndexed

/-- **The queries on the tree follow the table.** The messages and the fragments of a document are
    those that the paths through its tree lead to, each listed once, by their numbers. What a
    fragment has inside is picked from these two lists by the chains of parents: its messages have it
    among their ancestors, and its nested fragments have it as the nearest fragment among theirs. Its
    levels are the largest number of fragments on a chain from a fragment inside up to it, and zero if
    there is none. -/
theorem tree_queries_follow_table (program : Program) (starter : Option String) :
    let d := (interpret program starter).document
    ((d.messages.map (·.id)).Pairwise (· < ·) ∧
      ∀ m, m ∈ d.messages ↔ ∃ above body, d.Path above (.message m body)) ∧
    ((d.fragments.map (·.fragment.id)).Pairwise (· < ·) ∧
      ∀ f, f ∈ d.fragments ↔ ∃ above, d.Path above f.node) ∧
    ∀ f ∈ d.fragments,
      (nestedFragments f.sections =
        d.fragments.filter fun g => d.fragmentAround? g.fragment.id = some f.fragment.id) ∧
      (messagesIn f.sections = d.messages.filter fun m => f.fragment.id ∈ d.ancestors m.id) ∧
      ((d.levelsInside f.fragment.id).Nonempty →
        IsGreatest (d.levelsInside f.fragment.id) (nestingLevels f.sections)) ∧
      (d.levelsInside f.fragment.id = ∅ → nestingLevels f.sections = 0) := by
  intro d
  have h : d.WellIndexed := interpret_wellIndexed program starter
  refine ⟨⟨h.messages_increase, fun m => Document.mem_messages_iff⟩,
    ⟨h.fragments_increase, fun f => Document.mem_fragments_iff⟩, fun f hf => ?_⟩
  exact ⟨h.nestedFragments_eq hf, h.messagesIn_eq hf, h.isGreatest_nestingLevels hf,
    h.nestingLevels_eq_zero hf⟩

/-- A loop in a call in an optional part is nested there, and both have the message in the loop. -/
example :
    let d := (interpret (parse "opt \x7b A->B.m \x7b loop \x7b n \x7d \x7d \x7d") none).document
    d.fragments.map (fun f => (f.fragment.id, nestingLevels f.sections,
      (nestedFragments f.sections).map (·.fragment.id), (messagesIn f.sections).map (·.id))) =
        [(0, 1, [2], [1, 3]), (2, 0, [], [3])] := by
  decide +kernel

end SequenceDiagram
