import SequenceDiagram.Proofs.Distinct
import SequenceDiagram.Proofs.Document.Fragments
import SequenceDiagram.Proofs.Document.Rejection

namespace SequenceDiagram

open Syntax

/-!
# Who takes part in a fragment

A fragment keeps a list of those who take part in it, which is made from the lists of the fragments
inside it. The list is the same as if all that stands in the fragment was walked through again.

* `Node.contents` is this walk. The names that a reference lists are in its statement only, so the
  walk looks them up by the number of the node.
* `pairsOf` are the statements with the nodes that they are read as, and `Entered.statement_eq` says
  that the number of a node determines its statement.
* `FragmentTree.SumsUp` is what one fragment adds to the lists inside it
  (`Frame.participants_statement`), and `contentsSteps` is the induction over the fragments inside
  fragments.
* `participants_of_contents` is the result.
-/

/-! ### The walk -/

/-- The names that a statement lists besides those in the nodes inside it: a reference lists the
    names behind that of its diagram, as far as they are not empty. -/
def Syntax.Statement.listed : Statement → List String
  | .recognized (.reference r) _ _ => (r.names.tail.map (·.text)).filter (· ≠ "")
  | _ => []

mutual

/-- The names in a node, with repetitions, where `listed` has those that references list. -/
def Node.contents (listed : NodeId → List String) : Node → List String
  | .message m body => m.sender :: m.receiver :: contentsOf listed body
  | .fragment f sections => contentsIn listed sections ++ listed f.id
  | .divider _ _ _ => []
  | .rejected _ => []

/-- The names in some nodes. -/
def contentsOf (listed : NodeId → List String) : List Node → List String
  | [] => []
  | n :: rest => n.contents listed ++ contentsOf listed rest

/-- The names in some sections. -/
def contentsIn (listed : NodeId → List String) : List Section → List String
  | [] => []
  | .mk _ _ body :: rest => contentsOf listed body ++ contentsIn listed rest

end

/-! ### Statements and their nodes -/

namespace Syntax

/-- The statements in the body of a call or a creation. -/
def Statement.body : Statement → List Statement
  | .recognized (.call _ body) _ _ => body.statements
  | .recognized (.creation _ body) _ _ => body.statements
  | _ => []

/-- The branches of a block. -/
def Statement.branches : Statement → List Branch
  | .recognized (.block _ bs _) _ _ => bs
  | _ => []

/-- The statements in a branch. -/
def Branch.statements : Branch → List Statement
  | .mk _ _ body => body.statements

end Syntax

mutual

/-- A statement with its node, and those inside it with theirs. -/
def Node.pairs (s : Statement) : Node → List (Statement × Node)
  | .message m body => (s, .message m body) :: pairsOf s.body body
  | .fragment f sections => (s, .fragment f sections) :: pairsIn s.branches sections
  | .divider id note source => [(s, .divider id note source)]
  | .rejected x => [(s, .rejected x)]

/-- Some statements with their nodes, and those inside them with theirs. -/
def pairsOf : List Statement → List Node → List (Statement × Node)
  | s :: ss, n :: ns => n.pairs s ++ pairsOf ss ns
  | _, _ => []

/-- The statements in some branches with the nodes in the sections. -/
def pairsIn : List Branch → List Section → List (Statement × Node)
  | b :: bs, .mk _ _ body :: rest => pairsOf b.statements body ++ pairsIn bs rest
  | _, _ => []

end

theorem Node.mem_pairs (s : Statement) (n : Node) : (s, n) ∈ n.pairs s := by
  cases n <;> simp [pairs]

theorem pairs_subset_pairsOf {ss : List Statement} {ns : List Node} {s : Statement} {n : Node}
    (h : (s, n) ∈ ss.zip ns) : n.pairs s ⊆ pairsOf ss ns := by
  induction ss generalizing ns with
  | nil => cases h
  | cons s' ss ih =>
    cases ns with
    | nil => cases h
    | cons n' ns =>
      rw [pairsOf]
      rw [List.zip_cons_cons, List.mem_cons, Prod.mk.injEq] at h
      rcases h with ⟨rfl, rfl⟩ | h
      · exact List.subset_append_left _ _
      · exact List.subset_append_of_subset_right _ (ih h)

theorem pairsOf_subset_pairsIn {bs : List Branch} {sections : List Section} {b : Branch}
    {x : Section} (h : (b, x) ∈ bs.zip sections) :
    pairsOf b.statements x.body ⊆ pairsIn bs sections := by
  induction bs generalizing sections with
  | nil => cases h
  | cons b' bs ih =>
    cases sections with
    | nil => cases h
    | cons x' rest =>
      obtain ⟨label, condition, body⟩ := x'
      rw [pairsIn]
      rw [List.zip_cons_cons, List.mem_cons, Prod.mk.injEq] at h
      rcases h with ⟨rfl, rfl⟩ | h
      · exact List.subset_append_left _ _
      · exact List.subset_append_of_subset_right _ (ih h)

/-- The nodes of the pairs are met in the order of the walk through the document. -/
theorem pairsSteps : Node.Steps
    (fun n => ∀ s a, ((n.pairs s).map (·.2)).Sublist ((n.places a).map (·.node)))
    (fun ns => ∀ ss a, ((pairsOf ss ns).map (·.2)).Sublist ((placesOf a ns).map (·.node)))
    (fun xs => ∀ bs a, ((pairsIn bs xs).map (·.2)).Sublist ((placesIn a xs).map (·.node))) where
  message m body hbody s a := (hbody s.body (some m.id)).cons_cons _
  fragment f sections hsections s a := (hsections s.branches (some f.id)).cons_cons _
  divider id note source s a := .refl _
  rejected x s a := .refl _
  nil ss a := by simp [pairsOf]
  cons n rest hn hrest ss a := by
    cases ss with
    | nil => simp [pairsOf]
    | cons s ss =>
      rw [pairsOf, placesOf, List.map_append, List.map_append]
      exact (hn s a).append (hrest ss a)
  noSection bs a := by simp [pairsIn]
  inSection label condition body rest hbody hrest bs a := by
    cases bs with
    | nil => simp [pairsIn]
    | cons b bs =>
      rw [pairsIn, placesIn, List.map_append, List.map_append]
      exact (hbody b.statements a).append (hrest bs a)

/-- No two of the pairs have nodes of one number. -/
theorem Document.WellIndexed.nodup_pairs {d : Document} (h : d.WellIndexed)
    (ss : List Statement) : ((pairsOf ss d.nodes).map (·.2.id)).Nodup := by
  have hsublist := (pairsSteps.nodes d.nodes ss none).map Node.id
  rw [List.map_map, List.map_map] at hsublist
  refine List.Nodup.sublist hsublist ?_
  show (d.places.map (·.node.id)).Nodup
  rw [h.ids_eq]
  exact List.nodup_range

namespace Entered

variable {top : List Statement} {nodes : List Node} {inCall : Bool} {ss : List Statement}
  {ns : List Node}

/-- What is entered is among the pairs. -/
theorem pairsOf_subset (h : Entered top nodes inCall ss ns) :
    pairsOf ss ns ⊆ pairsOf top nodes := by
  -- by induction on the way down, where each step goes into one of the pairs
  induction h with
  | top => exact List.Subset.refl _
  | call _ hmem ih | creation _ hmem ih =>
    refine List.Subset.trans ?_ ih
    exact List.Subset.trans (List.subset_cons_self _ _) (pairs_subset_pairsOf hmem)
  | branch _ hmem hbranch ih =>
    refine List.Subset.trans ?_ ih
    refine List.Subset.trans (pairsOf_subset_pairsIn hbranch) ?_
    exact List.Subset.trans (List.subset_cons_self _ _) (pairs_subset_pairsOf hmem)

theorem mem_pairsOf (h : Entered top nodes inCall ss ns) {s : Statement} {n : Node}
    (hmem : (s, n) ∈ ss.zip ns) : (s, n) ∈ pairsOf top nodes :=
  h.pairsOf_subset (pairs_subset_pairsOf hmem (n.mem_pairs s))

end Entered

/-- The names that the statement of a node lists, by the number of the node. -/
def listedAt (pairs : List (Statement × Node)) (id : NodeId) : List String :=
  (pairs.find? (·.2.id = id)).elim [] (·.1.listed)

/-- **The number of a node determines its statement**, and so what that lists. -/
theorem listedAt_eq {pairs : List (Statement × Node)} (h : (pairs.map (·.2.id)).Nodup)
    {s : Statement} {n : Node} (hmem : (s, n) ∈ pairs) : listedAt pairs n.id = s.listed := by
  unfold listedAt
  cases hfound : pairs.find? (·.2.id = n.id) with
  | none =>
    have hno := List.find?_eq_none.mp hfound _ hmem
    simp at hno
  | some pair =>
    have hid : pair.2.id = n.id := by simpa using List.find?_some hfound
    have hpair := List.inj_on_of_nodup_map h (List.mem_of_find?_eq_some hfound) hmem hid
    rw [hpair]
    rfl

/-! ### One fragment -/

/-- The list of a fragment sums up those in its sections and the names that its statement lists. -/
def FragmentTree.SumsUp (listed : NodeId → List String) (f : FragmentTree) : Prop :=
  f.fragment.participants =
    ((f.sections.flatMap fun s => namesOf s.body) ++ listed f.fragment.id).eraseDups

/-- What a statement is read as sums up what it lists, if it is a fragment. -/
theorem Frame.participants_statement {frame : Frame} {id : NodeId} {s : Statement} {f : Fragment}
    {sections : List Section} (h : .fragment f sections = (frame.statement id s).value) :
    f.participants = ((sections.flatMap fun s => namesOf s.body) ++ s.listed).eraseDups := by
  cases s with
  | unrecognized span text => cases h
  | recognized c span text =>
    obtain ⟨reading, hreading, hread⟩ := exists_construct_ok h fun x hx => nomatch hx
    cases c with
    | call c body =>
      obtain ⟨m, -, hvalue⟩ := exists_of_construct_call hreading
      rw [hvalue] at hread
      cases hread
    | creation c body =>
      obtain ⟨m, -, hvalue⟩ := exists_of_construct_creation hreading
      rw [hvalue] at hread
      cases hread
    | asyncMessage a =>
      have hmeans := means_of_construct_ok hreading
      rw [← hread] at hmeans
      cases hmeans
    | ret r =>
      cases hreading
      cases hread
    | divider d =>
      cases hreading
      cases hread
    | reference r =>
      cases hreading
      cases hread
      rfl
    | block kind bs place =>
      cases hreading
      cases hread
      rfl

/-- A fragment of a program is entered with its statement. -/
theorem exists_entered_fragment {program : Program} {starter : Option String} {f : FragmentTree}
    (hf : f ∈ (interpret program starter).document.fragments) :
    ∃ inCall ss ns s, Entered program.statements (interpret program starter).document.nodes
      inCall ss ns ∧ (s, .fragment f.fragment f.sections) ∈ ss.zip ns := by
  obtain ⟨x, hx, hnode⟩ := Document.exists_place_of_mem_fragments hf
  obtain ⟨inCall, ss, ns, hentered, hmem⟩ := Entered.covers program starter x hx
  have hreading := hentered.isReading (isReading_interpret program starter)
  obtain ⟨s, hpair⟩ := exists_mem_zip hreading.forall₂_becomes.length_eq hmem
  rw [hnode] at hpair
  exact ⟨inCall, ss, ns, s, hentered, hpair⟩

/-! ### Fragments inside fragments -/

/-- **The walk finds the same names in the same order.** If each fragment sums up what is right inside
    it, then without repetitions the names of a node are those of the walk through it. -/
theorem contentsSteps (listed : NodeId → List String) : Node.Steps
    (fun n => (∀ f ∈ n.fragments, f.SumsUp listed) →
      n.names.eraseDups = (n.contents listed).eraseDups)
    (fun ns => (∀ f ∈ fragmentsOf ns, f.SumsUp listed) →
      (namesOf ns).eraseDups = (contentsOf listed ns).eraseDups)
    (fun ss => (∀ f ∈ fragmentsIn ss, f.SumsUp listed) →
      (ss.flatMap fun s => namesOf s.body).eraseDups = (contentsIn listed ss).eraseDups) where
  message m body hbody h := by
    show ([m.sender, m.receiver] ++ namesOf body).eraseDups =
      ([m.sender, m.receiver] ++ contentsOf listed body).eraseDups
    exact eraseDups_append_congr rfl (hbody h)
  fragment f sections hsections h := by
    obtain ⟨hf, hinside⟩ := List.forall_mem_cons.mp h
    -- the list has lost its repetitions already, and they are not missed
    show f.participants.eraseDups = (contentsIn listed sections ++ listed f.id).eraseDups
    rw [show f.participants = _ from hf, eraseDups_of_nodup (nodup_eraseDups _)]
    exact eraseDups_append_congr (hsections hinside) rfl
  divider id note source _ := rfl
  rejected x _ := rfl
  nil _ := rfl
  cons n rest hn hrest h := by
    obtain ⟨hfirst, hothers⟩ := List.forall_mem_append.mp h
    rw [namesOf, contentsOf]
    exact eraseDups_append_congr (hn hfirst) (hrest hothers)
  noSection _ := rfl
  inSection label condition body rest hbody hrest h := by
    obtain ⟨hfirst, hothers⟩ := List.forall_mem_append.mp h
    rw [List.flatMap_cons, contentsIn]
    exact eraseDups_append_congr (hbody hfirst) (hrest hothers)

/-- What is in the sections of a fragment of a document is in the document. -/
theorem fragmentsIn_subset {d : Document} {f : FragmentTree} (hf : f ∈ d.fragments) :
    fragmentsIn f.sections ⊆ d.fragments := by
  obtain ⟨x, hx, hnode⟩ := Document.exists_place_of_mem_fragments hf
  have hinner := (cons_inner_sublist hx).subset
  rw [hnode] at hinner
  intro g hg
  rw [fragmentsIn_eq (some f.fragment.id)] at hg
  obtain ⟨y, hy, hgy⟩ := List.mem_filterMap.mp hg
  rw [Document.fragments, fragmentsOf_eq none]
  exact List.mem_filterMap.mpr ⟨y, hinner (List.mem_cons_of_mem _ hy), hgy⟩

/-! ### The result -/

/-- **Who takes part in a fragment follows from what stands in it.** The names that statements list
    can be looked up by the numbers of their nodes. With them, the list of every fragment is what a
    walk through its sections finds, with the names that the fragment itself lists at the end,
    without repetitions and in the order of the first appearance. So everyone who takes part in a
    fragment inside it is in the list. -/
theorem participants_of_contents (program : Program) (starter : Option String) :
    let d := (interpret program starter).document
    ∃ listed : NodeId → List String,
      (∀ inCall ss ns s n, Entered program.statements d.nodes inCall ss ns → (s, n) ∈ ss.zip ns →
        listed n.id = s.listed) ∧
      ∀ f ∈ d.fragments,
        (∃ inCall ss ns s, Entered program.statements d.nodes inCall ss ns ∧
          (s, .fragment f.fragment f.sections) ∈ ss.zip ns) ∧
        f.fragment.participants =
          (contentsIn listed f.sections ++ listed f.fragment.id).eraseDups ∧
        ∀ g ∈ fragmentsIn f.sections, g.fragment.participants ⊆ f.fragment.participants := by
  intro d
  have hd : d.WellIndexed := interpret_wellIndexed program starter
  let listed := listedAt (pairsOf program.statements d.nodes)
  have hlisted : ∀ inCall ss ns s n, Entered program.statements d.nodes inCall ss ns →
      (s, n) ∈ ss.zip ns → listed n.id = s.listed := by
    intro inCall ss ns s n hentered hmem
    exact listedAt_eq (hd.nodup_pairs _) (hentered.mem_pairsOf hmem)
  have hsums : ∀ f ∈ d.fragments, f.SumsUp listed := by
    intro f hf
    obtain ⟨inCall, ss, ns, s, hentered, hmem⟩ := exists_entered_fragment hf
    have hreading := hentered.isReading (isReading_interpret program starter)
    obtain ⟨frame, id, -, hread⟩ := hreading.pair hmem
    have hnames : listed f.fragment.id = s.listed := hlisted _ _ _ _ _ hentered hmem
    rw [FragmentTree.SumsUp, hnames]
    exact Frame.participants_statement hread
  refine ⟨listed, hlisted, fun f hf => ⟨exists_entered_fragment hf, ?_, ?_⟩⟩
  · have hinside := fun g hg => hsums g (fragmentsIn_subset hf hg)
    rw [show f.fragment.participants = _ from hsums f hf]
    exact eraseDups_append_congr ((contentsSteps listed).sections f.sections hinside) rfl
  · intro g hg
    exact participants_subset hf hg

/-- The names of a reference take part in the fragments around it, each once. -/
example : ((interpret (parse "opt \x7b A.m \x7b opt \x7b B->C.n ref(x, D, A) \x7d \x7d E.o \x7d")
    none).document.fragments.map (·.fragment.participants)) =
      [["_STARTER_", "A", "B", "C", "D", "E"], ["B", "C", "D", "A"], ["D", "A"]] := by
  decide +kernel

end SequenceDiagram
