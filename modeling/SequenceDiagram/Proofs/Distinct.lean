import Mathlib.Data.List.Nodup

namespace SequenceDiagram

/-!
# Lists without repetitions

Who takes part in a fragment, and which lifelines have bars, is listed without repetitions and in the
order of the first appearance, as by `List.eraseDups`.

* `nodup_eraseDups` and `eraseDups_of_nodup`: no repetition is left, and else nothing is erased.
* `eraseDups_append_congr`: the pieces of a list may lose their repetitions before the whole list
  does.
* `eraseDups_concat` adds one element at the end.
-/

variable {α : Type} [DecidableEq α]

theorem nodup_eraseDups (xs : List α) : xs.eraseDups.Nodup := by
  match xs with
  | [] => simp
  | x :: xs =>
    rw [List.eraseDups_cons, List.nodup_cons]
    refine ⟨?_, nodup_eraseDups _⟩
    simp
termination_by xs.length
decreasing_by
  exact Nat.lt_succ_of_le (List.length_filter_le _ _)

/-- A list without repetitions is left alone. -/
theorem eraseDups_of_nodup {xs : List α} (h : xs.Nodup) : xs.eraseDups = xs := by
  induction xs with
  | nil => rfl
  | cons x xs ih =>
    obtain ⟨hx, hxs⟩ := List.nodup_cons.mp h
    have hothers : (xs.filter fun b => !b == x) = xs := by
      apply List.filter_eq_self.mpr
      intro b hb
      simpa using fun heq : b = x => hx (heq ▸ hb)
    rw [List.eraseDups_cons, hothers, ih hxs]

/-- Repetitions are erased before or after a choice. -/
theorem eraseDups_filter (p : α → Bool) (xs : List α) :
    (xs.filter p).eraseDups = xs.eraseDups.filter p := by
  match xs with
  | [] => rfl
  | x :: xs =>
    have hrest := eraseDups_filter p (xs.filter fun b => !b == x)
    rw [List.filter_filter] at hrest
    rw [List.eraseDups_cons]
    by_cases hx : p x = true
    · rw [List.filter_cons_of_pos hx, List.filter_cons_of_pos hx, List.eraseDups_cons,
        List.filter_filter, ← hrest]
      simp only [Bool.and_comm]
    · rw [List.filter_cons_of_neg hx, List.filter_cons_of_neg hx, ← hrest]
      -- the head is not chosen, and so are none of its repetitions
      congr 1
      apply List.filter_congr
      intro b _
      by_cases hb : b = x
      · simp [hb, hx]
      · simp [hb]
termination_by xs.length
decreasing_by
  exact Nat.lt_succ_of_le (List.length_filter_le _ _)

/-- **Pieces may lose their repetitions first.** Without repetitions, a list is known from its pieces
    without theirs. -/
theorem eraseDups_append_congr {xs xs' ys ys' : List α} (hx : xs.eraseDups = xs'.eraseDups)
    (hy : ys.eraseDups = ys'.eraseDups) : (xs ++ ys).eraseDups = (xs' ++ ys').eraseDups := by
  have hmem : ∀ a, a ∈ xs ↔ a ∈ xs' := by
    intro a
    rw [← List.mem_eraseDups, hx, List.mem_eraseDups]
  have hleft : ∀ as : List α, as.removeAll xs = as.removeAll xs' := by
    intro as
    apply List.filter_congr
    intro a _
    simp [hmem a]
  rw [List.eraseDups_append, List.eraseDups_append, hx, hleft, List.removeAll, List.removeAll,
    eraseDups_filter, eraseDups_filter, hy]

/-- One more element counts if it is a new one. -/
theorem eraseDups_concat (xs : List α) (x : α) :
    (xs ++ [x]).eraseDups = if x ∈ xs then xs.eraseDups else xs.eraseDups ++ [x] := by
  rw [List.eraseDups_append]
  by_cases hx : x ∈ xs
  · simp [List.removeAll, hx]
  · simp [List.removeAll, List.eraseDups_cons, hx]

end SequenceDiagram
