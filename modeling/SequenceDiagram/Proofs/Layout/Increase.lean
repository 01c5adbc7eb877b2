import SequenceDiagram.Proofs.Binary32.Precision
import SequenceDiagram.Proofs.Layout.LeastCenters

namespace SequenceDiagram

open Binary32

/-!
# Lifelines from left to right

The distance between two neighbours is positive, but it is added to a center in binary32. Where the
center is large enough, or infinite, the sum is the center again.

* `Coordinates.Spaced.center_le`: no lifeline stands left of one before it, whatever is measured.
* `Coordinates.lt_next_iff`: a lifeline stands right of its neighbour exactly if something asks for
  such a place.
* `Coordinates.Resolved` says that no center is `2 ^ 24` times as large as the distance to the next
  one; then the lifelines stand apart (`Coordinates.Spaced.pairwise_lt`).
* `lifelines_increase` puts these together for layouts, and `lifelines_coincide` is a source whose
  lifelines are not resolved.
-/

namespace Coordinates

/-- The distance between two neighbours, as their boxes and the margin ask for it. -/
def neighbourDistance (config : LayoutConfig) (l l' : Lifeline) : Binary32 :=
  l.box.halfExtent + l'.box.halfExtent + config.margin

/-- No center is so large that the distance to the next one is lost when it is added. -/
def Resolved (config : LayoutConfig) (c : Coordinates) : Prop :=
  ∀ i l l', c.lifelines[i]? = some l → c.lifelines[i + 1]? = some l' →
    l.center.isFinite ∧ l.center < 16777216 * neighbourDistance config l l'

namespace Spaced

variable {config : LayoutConfig} {c : Coordinates} {l l' : Lifeline}

theorem neighbourDistance_nonneg (h : c.Spaced config) (hconfig : config.validate = .ok config)
    (hl : l ∈ c.lifelines) (hl' : l' ∈ c.lifelines) : 0 ≤ neighbourDistance config l l' :=
  Binary32.add_nonneg
    (Binary32.add_nonneg (h.halfExtent_nonneg hconfig hl) (h.halfExtent_nonneg hconfig hl'))
    (LayoutConfig.size_nonneg hconfig .margin)

/-- **No lifeline stands left of one before it.** -/
theorem center_le (h : c.Spaced config) (hconfig : config.validate = .ok config) {i j : Nat}
    (hij : i ≤ j) (hl : c.lifelines[i]? = some l) (hl' : c.lifelines[j]? = some l') :
    l.center ≤ l'.center := by
  refine rel_of_neighbours (r := fun l l' : Lifeline => l.center ≤ l'.center)
    (fun l hl => ?_) (fun l l' l'' => Binary32.le_trans) (fun i l l' hi hi' => ?_) hij hl hl'
  · exact Binary32.le_refl (ne_nan_of_le_right (h.center_nonneg hconfig hl))
  · have hl := List.mem_of_getElem? hi
    have hdistance := h.neighbourDistance_nonneg hconfig hl (List.mem_of_getElem? hi')
    exact Binary32.le_trans (Binary32.le_add_right (h.center_nonneg hconfig hl) hdistance)
      (h.apart i l l' hi hi')

/-- A lifeline stands right of its neighbour, if the distance between them is not lost. -/
theorem lt_next (h : c.Spaced config) (hconfig : config.validate = .ok config) {i : Nat}
    (hl : c.lifelines[i]? = some l) (hl' : c.lifelines[i + 1]? = some l')
    (hfin : l.center.isFinite) (hsize : l.center < 16777216 * neighbourDistance config l l') :
    l.center < l'.center := by
  have hmem := List.mem_of_getElem? hl
  have hdistance := h.neighbourDistance_nonneg hconfig hmem (List.mem_of_getElem? hl')
  exact Binary32.lt_of_lt_of_le
    (lt_add_of_lt_mul (h.center_nonneg hconfig hmem) hfin hdistance hsize) (h.apart i l l' hl hl')

/-- **Lifelines that are resolved stand apart.** -/
theorem pairwise_lt (h : c.Spaced config) (hconfig : config.validate = .ok config)
    (hresolved : c.Resolved config) : (c.lifelines.map (·.center)).Pairwise (· < ·) := by
  rw [List.pairwise_iff_getElem]
  intro i j hi hj hij
  rw [List.length_map] at hi hj
  rw [List.getElem_map, List.getElem_map]
  -- the next lifeline stands further to the right, and no later one goes back
  have hl := List.getElem?_eq_getElem hi
  have hnext := List.getElem?_eq_getElem (Nat.lt_of_le_of_lt hij hj)
  obtain ⟨hfin, hsize⟩ := hresolved i _ _ hl hnext
  exact Binary32.lt_of_lt_of_le (h.lt_next hconfig hl hnext hfin hsize)
    (h.center_le hconfig hij hnext (List.getElem?_eq_getElem hj))

end Spaced

/-- **A lifeline stands right of its neighbour exactly if something asks for such a place.** -/
theorem lt_next_iff {measure : TextMeasure} {config : LayoutConfig}
    {order : List OrderedParticipant} {ledger : Ledger} {d : Document}
    (hconfig : config.validate = .ok config)
    (hspaced : (ofDocument measure config order ledger d).Spaced config) {i : Nat}
    {l l' : Lifeline}
    (hl' : (ofDocument measure config order ledger d).lifelines[i + 1]? = some l') :
    l.center < l'.center ↔
      ∃ r k, (ofDocument measure config order ledger d).Asks measure config d r ∧
        r.right = i + 1 ∧ (ofDocument measure config order ledger d).lifelines[r.left]? = some k ∧
        l.center < k.center + r.distance := by
  constructor
  · intro h
    obtain ⟨r, k, hr, hright, hk, hcenter⟩ := exists_tight hconfig hspaced (Nat.succ_pos i) hl'
    exact ⟨r, k, hr, hright, hk, hcenter ▸ h⟩
  · rintro ⟨r, k, hr, hright, hk, h⟩
    have hnan : k.center + r.distance ≠ nan := fun heq => not_lt_nan (heq ▸ h)
    rw [← hright] at hl'
    exact Binary32.lt_of_lt_of_le h (hr.le hk hl' hnan)

end Coordinates

/-- **The lifelines of a layout never swap, and stand apart where their distances are not lost.**
    No lifeline stands left of one before it. It stands right of its neighbour exactly if something
    asks for such a place, and all of them do if they are resolved. -/
theorem lifelines_increase (measure : TextMeasure) {config : LayoutConfig}
    (hconfig : config.validate = .ok config) (source : String) (version : Nat)
    (starter : Option String) :
    let c := (computeLayout measure config source version starter).coordinates
    (∀ (i j : Nat) (l l' : Lifeline), i ≤ j → c.lifelines[i]? = some l →
      c.lifelines[j]? = some l' → l.center ≤ l'.center) ∧
    (∀ (i : Nat) (l l' : Lifeline), c.lifelines[i]? = some l → c.lifelines[i + 1]? = some l' →
      (l.center < l'.center ↔
        ∃ r k, c.Asks measure config (sourceDocument source version starter) r ∧ r.right = i + 1 ∧
          c.lifelines[r.left]? = some k ∧ l.center < k.center + r.distance)) ∧
    (c.Resolved config → (c.lifelines.map (·.center)).Pairwise (· < ·)) := by
  have hspaced := sourceCoordinates_spaced measure hconfig source version starter
  rw [coordinates_computeLayout]
  exact ⟨fun i j l l' hij hl hl' => hspaced.center_le hconfig hij hl hl',
    fun i l l' _ hl' => Coordinates.lt_next_iff hconfig hspaced hl',
    hspaced.pairwise_lt hconfig⟩

/-- With the default sizes ordinary lifelines are resolved, so they stand apart. -/
theorem default_lifelines_stand_apart :
    let source := "A B C\nA->B.m\nB->B: x"
    let layout := computeLayout (approximateMeasure defaultCharRatio) .standard source 0 none
    (layout.coordinates.lifelines.map (·.center)).Pairwise (· < ·) := by
  intro source layout
  have hconfig : LayoutConfig.standard.fault? = none := by decide +kernel
  have hsmall : ∀ l ∈ layout.coordinates.lifelines, ∀ l' ∈ layout.coordinates.lifelines,
      l.center.isFinite ∧
        l.center < 16777216 * Coordinates.neighbourDistance .standard l l' := by decide +kernel
  obtain ⟨-, -, hpairwise⟩ := lifelines_increase (approximateMeasure defaultCharRatio)
    (by rw [LayoutConfig.validate, hconfig]) source 0 none
  exact hpairwise fun i l l' hl hl' =>
    hsmall l (List.mem_of_getElem? hl) l' (List.mem_of_getElem? hl')

/-- A declared width may be so large that the distance to the next lifeline is lost: the second and
    the third lifeline coincide. -/
theorem lifelines_coincide :
    let layout := computeLayout (approximateMeasure defaultCharRatio) .standard
      "A 999999999999999999999\nB\nC" 0 none
    LayoutConfig.standard.fault? = none ∧
      layout.coordinates.lifelines.map (·.name) = ["A", "B", "C"] ∧
      layout.coordinates.lifelines[1]?.map (·.center) =
        layout.coordinates.lifelines[2]?.map (·.center) ∧
      ¬ (layout.coordinates.lifelines.map (·.center)).Pairwise (· < ·) := by
  decide +kernel

end SequenceDiagram
