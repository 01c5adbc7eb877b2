import SequenceDiagram.Layout.Coordinates

namespace SequenceDiagram

/-!
# The table of lifelines

The lifelines are placed one after the other, each by those to the left of it.

* `centers_step` is the equation of the walk: each center is the `nextCenter` of the centers before
  it.
* `Coordinates.map_box_place` says that the table has one lifeline for each box, in the same order.
-/

/-! ### The walk from left to right -/

/-- The walk keeps the centers that it has, adds one for each box, and computes each of them from
    those before it. -/
theorem foldl_nextCenter (reqs : List Requirement) (rest : List Box) (before : List Binary32) :
    let after := rest.foldl (fun centers _ => centers ++ [nextCenter reqs centers]) before
    after.length = before.length + rest.length ∧ before <+: after ∧
      ∀ i, before.length ≤ i → i < after.length →
        after[i]? = some (nextCenter reqs (after.take i)) := by
  induction rest generalizing before with
  | nil =>
    refine ⟨rfl, List.prefix_refl before, ?_⟩
    intro i hle hlt
    exact absurd hlt (Nat.not_lt.mpr hle)
  | cons b rest ih =>
    obtain ⟨hlength, hprefix, hstep⟩ := ih (before ++ [nextCenter reqs before])
    rw [List.length_append, List.length_singleton] at hlength hstep
    have hbefore : before <+: before ++ [nextCenter reqs before] := List.prefix_append _ _
    refine ⟨?_, hbefore.trans hprefix, ?_⟩
    · rw [List.foldl_cons, hlength, List.length_cons]
      omega
    · intro i hle hlt
      rcases Nat.eq_or_lt_of_le hle with rfl | hle
      · -- the center that the first step adds
        have htake := List.prefix_iff_eq_take.mp (hbefore.trans hprefix)
        obtain ⟨tail, htail⟩ := hprefix
        rw [List.foldl_cons, ← htake, ← htail]
        simp
      · exact hstep i hle hlt

/-- Every box has a center. -/
theorem length_centers (reqs : List Requirement) (boxes : List Box) :
    (centers reqs boxes).length = boxes.length := by
  cases boxes with
  | nil => rfl
  | cons first rest =>
    have h := (foldl_nextCenter reqs rest [first.halfExtent]).1
    rw [List.length_singleton, Nat.add_comm] at h
    exact h

/-- The first box starts at zero. -/
theorem centers_zero (reqs : List Requirement) (first : Box) (rest : List Box) :
    (centers reqs (first :: rest))[0]? = some first.halfExtent := by
  obtain ⟨tail, htail⟩ := (foldl_nextCenter reqs rest [first.halfExtent]).2.1
  show (rest.foldl (fun centers _ => centers ++ [nextCenter reqs centers])
    [first.halfExtent])[0]? = _
  rw [← htail]
  rfl

/-- A lifeline behind the first is placed by those to the left of it. -/
theorem centers_step (reqs : List Requirement) (boxes : List Box) {i : Nat} (hi : 0 < i)
    (hlt : i < boxes.length) :
    (centers reqs boxes)[i]? = some (nextCenter reqs ((centers reqs boxes).take i)) := by
  rw [← length_centers reqs boxes] at hlt
  cases boxes with
  | nil => cases hlt
  | cons first rest => exact (foldl_nextCenter reqs rest [first.halfExtent]).2.2 i hi hlt

/-! ### The table -/

namespace Coordinates

/-- The table has one lifeline for each box, in the same order. -/
theorem map_box_place (config : LayoutConfig) (boxes : List Box) (arrows : List LabelledArrow) :
    (place config boxes arrows).lifelines.map (·.box) = boxes := by
  rw [place, List.map_map]
  -- the centers are only zipped with the boxes, and there are as many of them
  show ((boxes.zip _).zipIdx.map (Prod.fst ∘ Prod.fst)) = boxes
  rw [← List.map_map, List.zipIdx_map_fst]
  exact List.map_fst_zip (Nat.le_of_eq (length_centers _ boxes).symm)

/-- The lifelines have the names of their boxes. -/
theorem map_name_place (config : LayoutConfig) (boxes : List Box) (arrows : List LabelledArrow) :
    (place config boxes arrows).lifelines.map (·.name) = boxes.map (·.name) := by
  have h := congrArg (List.map (·.name)) (map_box_place config boxes arrows)
  rwa [List.map_map] at h

end Coordinates

end SequenceDiagram
