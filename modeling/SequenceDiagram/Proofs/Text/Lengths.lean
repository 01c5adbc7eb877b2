import SequenceDiagram.Proofs.Text.NormalForm

namespace SequenceDiagram

/-!
# How long display text gets

* `length_unquote_le`: unquoting makes no text longer.
* `length_displayText_le`: a display text has at most one separator for each of its characters.
-/

theorem length_trimChars_le (cs : List Char) : (trimChars cs).length ≤ cs.length := by
  have hfront := (List.dropWhile_sublist (p := isBlank) (l := cs)).length_le
  have hback := (List.dropWhile_sublist (p := isBlank) (l := (cs.dropWhile isBlank).reverse)).length_le
  rw [List.length_reverse] at hback
  unfold trimChars
  rw [List.length_reverse]
  omega

theorem length_unquoteChars_le (cs : List Char) : (unquoteChars cs).length ≤ cs.length := by
  have htrim := length_trimChars_le cs
  unfold unquoteChars
  split
  · next rest heq =>
    rw [heq, List.length_cons] at htrim
    split
    · rw [List.length_dropLast]
      omega
    · exact htrim
  · exact htrim

/-- Unquoting makes no text longer. -/
theorem length_unquote_le (text : String) : (unquote text).length ≤ text.length := by
  rw [unquote, String.length_ofList, ← String.length_toList]
  exact length_unquoteChars_le text.toList

theorem length_separator_le (c : Char) (apart : Bool) (d : Char) :
    (separator c apart d).length ≤ 1 := by
  unfold separator
  split_ifs <;> simp

/-- There is at most one separator in front of each character. -/
theorem length_spacedFrom_le (c : Char) (apart : Bool) (rest : List Char) :
    (spacedFrom c apart rest).length ≤ 2 * rest.length + 1 := by
  induction rest generalizing c apart with
  | nil => exact Nat.le_refl 1
  | cons d rest ih =>
    rw [List.length_cons]
    cases hd : isBlank d with
    | true =>
      have hrest := ih c true
      rw [spacedFrom_blank hd]
      omega
    | false =>
      have hrest := ih d false
      have hseparator := length_separator_le c apart d
      rw [spacedFrom_visible hd, List.length_cons, List.length_append]
      omega

theorem length_spaced_le (cs : List Char) : (spaced cs).length ≤ 2 * cs.length := by
  induction cs with
  | nil => exact Nat.le_refl 0
  | cons c rest ih =>
    have hfrom := length_spacedFrom_le c false rest
    rw [spaced, List.length_cons]
    split <;> omega

/-- **A display text is at most twice as long as the text that it is made from.** -/
theorem length_displayText_le (text : String) : (displayText text).length ≤ 2 * text.length := by
  rw [displayText, String.length_ofList, displayChars_eq_spaced, ← String.length_toList]
  calc (spaced (unquoteChars (text.toList.filter isXmlChar))).length
      ≤ 2 * (unquoteChars (text.toList.filter isXmlChar)).length := length_spaced_le _
    _ ≤ 2 * (text.toList.filter isXmlChar).length := Nat.mul_le_mul_left 2 (length_unquoteChars_le _)
    _ ≤ 2 * text.toList.length := Nat.mul_le_mul_left 2 (List.length_filter_le _ _)

end SequenceDiagram
