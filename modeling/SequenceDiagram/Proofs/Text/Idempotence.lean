import SequenceDiagram.Proofs.Text.NormalForm

namespace SequenceDiagram

/-!
# Display text of display text

Labels and conditions go through `displayText` more than once. A display text is left alone, unless
it has quotes around it, which are taken off.

* `spaced_spaced`: what has its separators already keeps them.
* `displayChars_displayChars`: the second time, only unquoting can change anything.
* `displayText_again_iff` is the exact condition.
-/

/-! ### Separators stay -/

/-- A separator is the one that goes where it stands. -/
theorem separator_separator (c : Char) (apart : Bool) (d : Char) :
    separator c (!(separator c apart d).isEmpty) d = separator c apart d := by
  unfold separator
  split_ifs <;> simp_all

theorem isBlank_of_mem_separator {c d b : Char} {apart : Bool} (hb : b ∈ separator c apart d) :
    isBlank b = true := by
  have hinvisible : b ∉ (separator c apart d).filter isVisible := by
    simp [filter_separator]
  simpa [hb, isVisible] using hinvisible

/-- Characters with separators keep them, from each visible character on. -/
theorem spacedFrom_spacedFrom {c : Char} {apart : Bool} {rest behind : List Char}
    (h : spacedFrom c apart rest = c :: behind) : spacedFrom c false behind = c :: behind := by
  induction rest generalizing c apart behind with
  | nil =>
    simp only [spacedFrom, List.cons.injEq, true_and] at h
    simp [← h, spacedFrom]
  | cons d rest ih =>
    by_cases hd : isBlank d = true
    · rw [spacedFrom_blank hd] at h
      exact ih h
    · simp only [Bool.not_eq_true] at hd
      -- behind the character come a separator and what is spaced from the next one on
      obtain ⟨after, hafter, -⟩ := spacedFrom_eq_cons d false rest
      rw [spacedFrom_visible hd, hafter, List.cons.injEq] at h
      rw [← h.2, spacedFrom_blanks (fun b hb => isBlank_of_mem_separator hb) hd, ih hafter,
        Bool.false_or, separator_separator]

/-- **What is spaced keeps its separators.** -/
theorem spaced_spaced (cs : List Char) : spaced (spaced cs) = spaced cs := by
  induction cs with
  | nil => rfl
  | cons c rest ih =>
    by_cases hc : isBlank c = true
    · simpa [spaced, hc] using ih
    · simp only [Bool.not_eq_true] at hc
      obtain ⟨behind, hbehind, -⟩ := spacedFrom_eq_cons c false rest
      have hspaced : spaced (c :: rest) = c :: behind := by
        simp [spaced, hc, hbehind]
      rw [hspaced, spaced, hc]
      exact spacedFrom_spacedFrom hbehind

/-! ### Nothing to clean and nothing to trim -/

theorem mem_spacedFrom {c e : Char} {apart : Bool} {rest : List Char}
    (he : e ∈ spacedFrom c apart rest) : e = ' ' ∨ e = c ∨ e ∈ rest := by
  induction rest generalizing c apart with
  | nil => exact .inr (.inl (List.mem_singleton.mp he))
  | cons d rest ih =>
    rw [List.mem_cons]
    by_cases hd : isBlank d = true
    · rw [spacedFrom_blank hd] at he
      have hrest := ih he
      tauto
    · simp only [Bool.not_eq_true] at hd
      have hseparator : ∀ b ∈ separator c apart d, b = ' ' := by
        unfold separator
        split_ifs <;> simp
      rw [spacedFrom_visible hd, List.mem_cons, List.mem_append] at he
      rcases he with he | he | he
      · exact .inr (.inl he)
      · exact .inl (hseparator e he)
      · have hrest := ih he
        tauto

/-- Spacing adds nothing but spaces. -/
theorem mem_spaced {e : Char} {cs : List Char} (he : e ∈ spaced cs) : e = ' ' ∨ e ∈ cs := by
  induction cs with
  | nil => simp [spaced] at he
  | cons c rest ih =>
    rw [spaced] at he
    rw [List.mem_cons]
    split at he
    · have hrest := ih he
      tauto
    · exact mem_spacedFrom he

theorem unquoteChars_subset (cs : List Char) : unquoteChars cs ⊆ cs := by
  have htrim : trimChars cs ⊆ cs := by
    intro c hc
    have hback := (List.dropWhile_sublist _).subset (List.mem_reverse.mp hc)
    exact (List.dropWhile_sublist _).subset (List.mem_reverse.mp hback)
  unfold unquoteChars
  split
  · next rest heq =>
    rw [heq] at htrim
    split
    · exact fun c hc => htrim (List.mem_cons_of_mem _ (List.dropLast_subset _ hc))
    · exact htrim
  · exact htrim

/-- A display text has only characters that are allowed. -/
theorem isXmlChar_of_mem_displayChars {cs : List Char} : ∀ c ∈ displayChars cs,
    isXmlChar c = true := by
  intro c hc
  rw [displayChars_eq_spaced] at hc
  rcases mem_spaced hc with rfl | hc
  · decide
  · exact (List.mem_filter.mp (unquoteChars_subset _ hc)).2

/-- With visible ends there is nothing to trim. -/
theorem trimChars_eq_self {cs : List Char} (hhead : ∀ c ∈ cs.head?, isVisible c = true)
    (hlast : ∀ c ∈ cs.getLast?, isVisible c = true) : trimChars cs = cs := by
  have hkept : ∀ ds : List Char, (∀ c ∈ ds.head?, isVisible c = true) →
      ds.dropWhile isBlank = ds := by
    intro ds hds
    cases ds with
    | nil => rfl
    | cons d ds =>
      apply List.dropWhile_cons_of_neg
      simpa [isVisible] using hds d rfl
  rw [trimChars, hkept cs hhead, hkept, List.reverse_reverse]
  simpa using hlast

/-! ### The second time -/

/-- Two characters or more, of which the first and the last are quotes. -/
def IsQuoted (cs : List Char) : Prop :=
  2 ≤ cs.length ∧ cs.head? = some '"' ∧ cs.getLast? = some '"'

/-- The quotes stand around the rest, which may be empty. -/
theorem isQuoted_iff {cs : List Char} : IsQuoted cs ↔ ∃ inside, cs = '"' :: (inside ++ ['"']) := by
  constructor
  · rintro ⟨hlength, hhead, hlast⟩
    cases cs with
    | nil => cases hhead
    | cons c rest =>
      cases Option.some.inj hhead
      have hne : rest ≠ [] := by
        rintro rfl
        simp at hlength
      rw [List.getLast?_cons_of_ne_nil hne] at hlast
      refine ⟨rest.dropLast, ?_⟩
      rw [List.dropLast_append_getLast? '"' hlast]
  · rintro ⟨inside, rfl⟩
    refine ⟨by simp, rfl, ?_⟩
    rw [← List.cons_append, List.getLast?_append]
    rfl

/-- A pair of quotes around trimmed characters is taken off. -/
theorem unquoteChars_quoted {inside : List Char}
    (htrim : trimChars ('"' :: (inside ++ ['"'])) = '"' :: (inside ++ ['"'])) :
    unquoteChars ('"' :: (inside ++ ['"'])) = inside := by
  simp [unquoteChars, htrim]

/-- Trimmed characters without such a pair are left alone. -/
theorem unquoteChars_of_not_isQuoted {cs : List Char} (htrim : trimChars cs = cs)
    (h : ¬ IsQuoted cs) : unquoteChars cs = cs := by
  rw [unquoteChars, htrim]
  split
  · next rest =>
    refine if_neg fun hlast => h (isQuoted_iff.mpr ⟨rest.dropLast, ?_⟩)
    rw [List.dropLast_append_getLast? '"' hlast]
  · rfl

/-- **The second time, only quotes go.** The display form of a display form is what is left of it
    without quotes, and that is spaced again. -/
theorem displayChars_displayChars (cs : List Char) :
    displayChars (displayChars cs) = spaced (unquoteChars (displayChars cs)) := by
  rw [displayChars_eq_spaced (displayChars cs),
    List.filter_eq_self.mpr isXmlChar_of_mem_displayChars]

/-- **Display text is stable, except for a pair of quotes.** The display form of a display text is
    another text if and only if the display text has two characters or more, of which the first and
    the last are quotes. -/
theorem displayText_again_iff (raw : String) :
    displayText (displayText raw) ≠ displayText raw ↔ IsQuoted (displayText raw).toList := by
  have hy : (displayText raw).toList = displayChars raw.toList := String.toList_ofList
  have hspaced : (displayText raw).toList =
      spaced (unquoteChars (raw.toList.filter isXmlChar)) := by
    rw [hy, displayChars_eq_spaced]
  obtain ⟨-, hhead, hlast⟩ := filter_spaced (unquoteChars (raw.toList.filter isXmlChar))
  rw [← hspaced] at hhead hlast
  have htrim : trimChars (displayText raw).toList = (displayText raw).toList :=
    trimChars_eq_self hhead hlast
  have hagain : displayText (displayText raw) = displayText raw ↔
      spaced (unquoteChars (displayText raw).toList) = (displayText raw).toList := by
    rw [← String.toList_inj, displayText, String.toList_ofList, hy, displayChars_displayChars]
  rw [ne_eq, hagain, not_iff_comm]
  constructor
  · intro hnot
    rw [unquoteChars_of_not_isQuoted htrim hnot, hspaced, spaced_spaced]
  · intro hsame hquoted
    -- the quotes can be seen, so without them there are fewer visible characters
    obtain ⟨inside, hinside⟩ := isQuoted_iff.mp hquoted
    rw [hinside] at htrim hsame
    rw [unquoteChars_quoted htrim] at hsame
    have hquote : isVisible '"' = true := by decide
    have hvisible := congrArg (List.filter isVisible) hsame
    have hlength := congrArg List.length hvisible
    simp [(filter_spaced inside).1, hquote] at hlength
    omega

/-- Only one pair of quotes goes at a time. -/
example : displayText "\"\"\"a\"\"\"" = "\"\"a\"\"" ∧ displayText "\"\"a\"\"" = "\"a\"" := by
  decide +kernel

end SequenceDiagram
