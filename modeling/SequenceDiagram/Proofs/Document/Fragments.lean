import SequenceDiagram.Proofs.Document.Table

namespace SequenceDiagram

open Syntax

/-!
# Fragments inside fragments

* `levelSteps`: a fragment inside some sections has fewer levels of fragments than they have.
* `participantSteps`: whoever takes part in a fragment takes part in every fragment around it.
* `Document.WellIndexed.mem_fragmentsIn`: a fragment that the table names as an ancestor of another
  one has it in its sections.
-/

/-! ### Levels -/

/-- A fragment has one level of its own, on top of those in its sections. -/
theorem levelSteps : Node.Steps
    (fun n => ∀ f ∈ n.fragments, nestingLevels f.sections + 1 ≤ n.levels)
    (fun ns => ∀ f ∈ fragmentsOf ns, nestingLevels f.sections + 1 ≤ levelsOf ns)
    (fun ss => ∀ f ∈ fragmentsIn ss, nestingLevels f.sections + 1 ≤ nestingLevels ss) where
  message m body hbody f hf := hbody f hf
  fragment f sections hsections g hg := by
    rcases List.mem_cons.mp hg with rfl | hg
    · exact Nat.le_refl _
    · exact Nat.le_succ_of_le (hsections g hg)
  divider id note source f hf := by cases hf
  rejected x f hf := by cases hf
  nil f hf := by cases hf
  cons n rest hn hrest f hf := by
    rcases List.mem_append.mp hf with hf | hf
    · exact Nat.le_trans (hn f hf) (Nat.le_max_left _ _)
    · exact Nat.le_trans (hrest f hf) (Nat.le_max_right _ _)
  noSection f hf := by cases hf
  inSection label condition body rest hbody hrest f hf := by
    rcases List.mem_append.mp hf with hf | hf
    · exact Nat.le_trans (hbody f hf) (Nat.le_max_left _ _)
    · exact Nat.le_trans (hrest f hf) (Nat.le_max_right _ _)

/-- A fragment in some sections has fewer levels inside than they have. -/
theorem nestingLevels_lt {f : FragmentTree} {sections : List Section}
    (h : f ∈ fragmentsIn sections) : nestingLevels f.sections < nestingLevels sections :=
  levelSteps.sections sections f h

/-! ### Participants -/

/-- Whoever takes part in one of the fragments, or in a fragment inside one of them, is among the
    names; and a fragment has all those who take part inside it. -/
def Gathers (names : List String) (fragments : List FragmentTree) : Prop :=
  ∀ f ∈ fragments, f.fragment.participants ⊆ names ∧
    ∀ g ∈ fragmentsIn f.sections, g.fragment.participants ⊆ f.fragment.participants

theorem Gathers.mono {names names' : List String} {fragments : List FragmentTree}
    (h : Gathers names fragments) (hsub : names ⊆ names') : Gathers names' fragments :=
  fun f hf => ⟨List.Subset.trans (h f hf).1 hsub, (h f hf).2⟩

theorem Gathers.append {names names' : List String} {fragments fragments' : List FragmentTree}
    (h : Gathers names fragments) (h' : Gathers names' fragments') :
    Gathers (names ++ names') (fragments ++ fragments') := by
  intro f hf
  rcases List.mem_append.mp hf with hf | hf
  · exact h.mono (List.subset_append_left _ _) f hf
  · exact h'.mono (List.subset_append_right _ _) f hf

theorem Gathers.nil (names : List String) : Gathers names [] := fun _ hf => nomatch hf

/-- A fragment that is read off the text gathers those who take part in its sections. -/
theorem Gathers.fragment (frame : Frame) (id : NodeId) (kind : FragmentKind) (source : Span)
    {sections : List Section} (others : List String)
    (h : Gathers (sections.flatMap fun s => namesOf s.body) (fragmentsIn sections)) :
    Gathers (frame.fragment id kind source sections others).names
      (frame.fragment id kind source sections others).fragments := by
  have hsub : (sections.flatMap fun s => namesOf s.body) ⊆
      (frame.fragment id kind source sections others).names := by
    intro name hname
    exact List.mem_eraseDups.mpr (List.mem_append_left _ hname)
  -- the fragment itself, or one in its sections
  intro f hf
  rcases List.mem_cons.mp hf with rfl | hf
  · exact ⟨List.Subset.refl _, fun g hg => List.Subset.trans (h g hg).1 hsub⟩
  · exact h.mono hsub f hf

/-- **Fragments gather.** Whoever takes part in a fragment takes part in every fragment around
    it. -/
theorem participantSteps : Frame.Steps
    (fun _ _ reading => Gathers reading.value.names reading.value.fragments)
    (fun _ _ reading => Gathers (namesOf reading.value) (fragmentsOf reading.value))
    (fun _ _ reading => Gathers (reading.value.flatMap fun s => namesOf s.body)
      (fragmentsIn reading.value)) where
  rejected frame id s reason := .nil _
  opening frame id m inner hm hinner := by
    -- the sender and the receiver come before those in the body
    refine Gathers.mono hinner ?_
    intro name hname
    exact List.mem_cons_of_mem _ (List.mem_cons_of_mem _ hname)
  passing frame id m hm := .nil _
  divider frame id note source := .nil _
  reference frame id x := .fragment frame id _ _ _ (.nil _)
  block frame id kind source inner hinner := .fragment frame id _ _ _ hinner
  nil frame next := .nil _
  cons frame next first rest hfirst hrest := .append hfirst hrest
  noSection frame next := .nil _
  inSection frame next label condition inner rest hinner hrest := .append hinner hrest

/-- Whoever takes part in a fragment takes part in every fragment that has it in its sections. -/
theorem participants_subset {program : Program} {starter : Option String} {f g : FragmentTree}
    (hg : g ∈ (interpret program starter).document.fragments) (hf : f ∈ fragmentsIn g.sections) :
    f.fragment.participants ⊆ g.fragment.participants :=
  (participantSteps.statements _ 0 program.statements g hg).2 f hf

/-! ### Ancestors -/

/-- A fragment that the table names as an ancestor of another one has it in its sections. -/
theorem Document.WellIndexed.mem_fragmentsIn {d : Document} (h : d.WellIndexed)
    {f g : FragmentTree} (hf : f ∈ d.fragments) (hg : g ∈ d.fragments)
    (hancestor : g.fragment.id ∈ d.ancestors f.fragment.id) : f ∈ fragmentsIn g.sections := by
  obtain ⟨x, hx, hxf⟩ := exists_place_of_mem_fragments hf
  obtain ⟨y, hy, hyg⟩ := exists_place_of_mem_fragments hg
  have hxid : x.node.id = f.fragment.id := by
    rw [hxf]
    rfl
  have hyid : y.node.id = g.fragment.id := by
    rw [hyg]
    rfl
  rw [← hxid, ← hyid] at hancestor
  -- the node with the number of the ancestor can only be the outer fragment
  obtain ⟨z, hz, hzid, hinner⟩ := h.exists_ancestor hx hancestor
  rw [h.eq_of_id_eq hz hy hzid, hyg] at hinner
  rw [fragmentsIn_eq (some g.fragment.id)]
  exact List.mem_filterMap.mpr ⟨x, hinner, by rw [hxf]; rfl⟩

end SequenceDiagram
