import SequenceDiagram.Proofs.Syntax.Likeness

namespace SequenceDiagram

/-!
# Line ends in texts

White space at the end of a text is never seen, and a carriage return before a newline is never
displayed.

* `trimEnd` is the second half of `trimChars`, with an equation for one more character in front.
* `Returned cs ds`: the characters `ds` are `cs` with a carriage return before some of the newlines.
* Cleaning and trimming keep it, and with white space collapsed the two are equal:
  `Returned.displayChars`.
* `Returned.looksLike`: a layout cannot tell the two texts apart.
-/

/-! ### White space at the end -/

/-- The characters without the white space at their end. -/
def trimEnd (cs : List Char) : List Char := (cs.reverse.dropWhile isBlank).reverse

theorem trimChars_eq (cs : List Char) : trimChars cs = trimEnd (cs.dropWhile isBlank) := rfl

theorem trimEnd_append_blank {c : Char} (hc : isBlank c = true) (cs : List Char) :
    trimEnd (cs ++ [c]) = trimEnd cs := by
  rw [trimEnd, List.reverse_append, List.reverse_singleton, List.singleton_append,
    List.dropWhile_cons_of_pos hc]
  rfl

theorem trimEnd_cons (c : Char) (cs : List Char) :
    trimEnd (c :: cs) =
      if trimEnd cs = [] then (if isBlank c then [] else [c]) else c :: trimEnd cs := by
  have hempty : (cs.reverse.dropWhile isBlank).isEmpty ↔ trimEnd cs = [] := by
    rw [trimEnd, List.reverse_eq_nil_iff, List.isEmpty_iff]
  rw [trimEnd, List.reverse_cons, List.dropWhile_append]
  by_cases h : trimEnd cs = []
  · rw [if_pos (hempty.mpr h), if_pos h]
    by_cases hc : isBlank c = true
    · rw [if_pos hc, List.dropWhile_cons_of_pos hc]
      rfl
    · rw [if_neg hc, List.dropWhile_cons_of_neg hc]
      rfl
  · rw [if_neg fun he => h (hempty.mp he), if_neg h, List.reverse_append]
    rfl

theorem trimChars_append_blank {c : Char} (hc : isBlank c = true) (cs : List Char) :
    trimChars (cs ++ [c]) = trimChars cs := by
  rw [trimChars_eq, trimChars_eq, List.dropWhile_append]
  split
  · next hempty =>
    rw [List.dropWhile_cons_of_pos hc, List.isEmpty_iff.mp hempty]
    rfl
  · exact trimEnd_append_blank hc _

/-- White space behind a text is not part of it without quotes. -/
theorem unquoteChars_append_blank {c : Char} (hc : isBlank c = true) (cs : List Char) :
    unquoteChars (cs ++ [c]) = unquoteChars cs := by
  rw [unquoteChars, trimChars_append_blank hc]
  rfl

/-- White space behind a text is not displayed. -/
theorem displayChars_append_blank {c : Char} (hc : isBlank c = true) (cs : List Char) :
    displayChars (cs ++ [c]) = displayChars cs := by
  unfold displayChars
  rw [List.filter_append]
  by_cases hxml : isXmlChar c = true
  · rw [List.filter_cons_of_pos hxml, List.filter_nil, unquoteChars_append_blank hc]
  · rw [List.filter_cons_of_neg hxml, List.filter_nil, List.append_nil]

/-! ### Carriage returns before newlines -/

/-- The second text is the first with a carriage return before some of the newlines. -/
inductive Returned : List Char → List Char → Prop where
  | nil : Returned [] []
  | cons {cs ds : List Char} (c : Char) (h : Returned cs ds) : Returned (c :: cs) (c :: ds)
  | line {cs ds : List Char} (h : Returned cs ds) : Returned ('\n' :: cs) ('\r' :: '\n' :: ds)

namespace Returned

variable {cs ds : List Char}

theorem refl : (cs : List Char) → Returned cs cs
  | [] => .nil
  | c :: cs => .cons c (refl cs)

theorem append (h : Returned cs ds) {xs ys : List Char} (h' : Returned xs ys) :
    Returned (cs ++ xs) (ds ++ ys) := by
  induction h with
  | nil => exact h'
  | cons c _ ih => exact .cons c ih
  | line _ ih => exact .line ih

/-- A newline may have its carriage return before it later. -/
theorem insert (h : Returned ('\n' :: cs) ('\n' :: ds)) : Returned ('\n' :: cs) ('\r' :: '\n' :: ds) := by
  cases h with
  | cons _ h => exact .line h

theorem eq_nil_iff (h : Returned cs ds) : cs = [] ↔ ds = [] := by
  cases h <;> simp

/-! ### Cleaning and trimming -/

theorem filter (h : Returned cs ds) : Returned (cs.filter isXmlChar) (ds.filter isXmlChar) := by
  induction h with
  | nil => exact .nil
  | cons c _ ih =>
    by_cases hc : isXmlChar c = true
    · rw [List.filter_cons_of_pos hc, List.filter_cons_of_pos hc]
      exact .cons c ih
    · rw [List.filter_cons_of_neg hc, List.filter_cons_of_neg hc]
      exact ih
  | line _ ih => exact .line ih

theorem dropWhile (h : Returned cs ds) :
    Returned (cs.dropWhile isBlank) (ds.dropWhile isBlank) := by
  induction h with
  | nil => exact .nil
  | cons c h ih =>
    by_cases hc : isBlank c = true
    · rw [List.dropWhile_cons_of_pos hc, List.dropWhile_cons_of_pos hc]
      exact ih
    · rw [List.dropWhile_cons_of_neg hc, List.dropWhile_cons_of_neg hc]
      exact .cons c h
  | line _ ih => exact ih

theorem trimEnd (h : Returned cs ds) :
    Returned (SequenceDiagram.trimEnd cs) (SequenceDiagram.trimEnd ds) := by
  induction h with
  | nil => exact .nil
  | @cons cs ds c h ih =>
    rw [trimEnd_cons, trimEnd_cons]
    by_cases hnil : SequenceDiagram.trimEnd cs = []
    · rw [if_pos hnil, if_pos (ih.eq_nil_iff.mp hnil)]
      exact refl _
    · rw [if_neg hnil, if_neg fun h => hnil (ih.eq_nil_iff.mpr h)]
      exact .cons c ih
  | @line cs ds h ih =>
    rw [trimEnd_cons, trimEnd_cons, trimEnd_cons]
    by_cases hnil : SequenceDiagram.trimEnd cs = []
    · rw [if_pos hnil, if_pos (ih.eq_nil_iff.mp hnil)]
      exact .nil
    · rw [if_neg hnil, if_neg fun h => hnil (ih.eq_nil_iff.mpr h)]
      exact .line ih

theorem trimChars (h : Returned cs ds) :
    Returned (SequenceDiagram.trimChars cs) (SequenceDiagram.trimChars ds) := h.dropWhile.trimEnd

theorem getLast? (h : Returned cs ds) : cs.getLast? = ds.getLast? := by
  induction h with
  | nil => rfl
  | cons c h ih => rw [List.getLast?_cons, List.getLast?_cons, ih]
  | line h ih => rw [List.getLast?_cons, List.getLast?_cons, List.getLast?_cons, ih]; rfl

/-- A last character that is no newline is dropped from both. -/
theorem dropLast (h : Returned cs ds) (hlast : cs.getLast? ≠ some '\n') :
    Returned cs.dropLast ds.dropLast := by
  induction h with
  | nil => exact .nil
  | @cons cs ds c h ih =>
    cases h with
    | nil => exact .nil
    | cons d h => exact .cons c (ih hlast)
    | line h => exact .cons c (ih hlast)
  | @line cs ds h ih =>
    cases h with
    | nil => exact absurd rfl hlast
    | cons d h => exact .line (ih hlast)
    | line h => exact .line (ih hlast)

theorem unquoteChars (h : Returned cs ds) :
    Returned (SequenceDiagram.unquoteChars cs) (SequenceDiagram.unquoteChars ds) := by
  have htrim := h.trimChars
  unfold SequenceDiagram.unquoteChars
  generalize SequenceDiagram.trimChars cs = xs at htrim
  generalize SequenceDiagram.trimChars ds = ys at htrim
  cases htrim with
  | nil => exact .nil
  | @cons xs ys c h =>
    by_cases hc : c = '"'
    · subst hc
      show Returned (if xs.getLast? = some '"' then xs.dropLast else '"' :: xs)
        (if ys.getLast? = some '"' then ys.dropLast else '"' :: ys)
      rw [← h.getLast?]
      split
      · next hlast => exact h.dropLast (by rw [hlast]; decide)
      · exact .cons _ h
    · split
      · next heq => exact absurd (List.cons.inj heq).1 hc
      · split
        · next heq => exact absurd (List.cons.inj heq).1 hc
        · exact .cons c h
  | line h => exact .line h

/-! ### White space in one piece -/

theorem startsWith_isBlank (h : Returned cs ds) :
    startsWith isBlank cs = startsWith isBlank ds := by
  cases h <;> rfl

theorem collapseBlanks (h : Returned cs ds) :
    SequenceDiagram.collapseBlanks cs = SequenceDiagram.collapseBlanks ds := by
  induction h with
  | nil => rfl
  | cons c h ih =>
    rw [SequenceDiagram.collapseBlanks, SequenceDiagram.collapseBlanks, h.startsWith_isBlank, ih]
  | line h ih =>
    -- the carriage return is white space before white space
    have hreturn : ∀ ds, SequenceDiagram.collapseBlanks ('\r' :: '\n' :: ds) =
        SequenceDiagram.collapseBlanks ('\n' :: ds) := fun ds => rfl
    rw [hreturn, SequenceDiagram.collapseBlanks, SequenceDiagram.collapseBlanks,
      h.startsWith_isBlank, ih]

/-- Carriage returns before newlines are not displayed. -/
theorem displayChars (h : Returned cs ds) :
    SequenceDiagram.displayChars cs = SequenceDiagram.displayChars ds := by
  unfold SequenceDiagram.displayChars
  rw [h.filter.unquoteChars.collapseBlanks]

theorem looksLike (h : Returned cs ds) : LooksLike (String.ofList cs) (String.ofList ds) := by
  refine ⟨?_, ?_, fun method => ?_⟩
  · unfold displayText
    rw [String.toList_ofList, String.toList_ofList, h.displayChars]
  · unfold displayText unquote
    simp only [String.toList_ofList]
    rw [h.unquoteChars.displayChars]
  · have hcall : Returned (method.toList ++ "(".toList ++ cs ++ ")".toList)
        (method.toList ++ "(".toList ++ ds ++ ")".toList) :=
      ((refl _).append h).append (refl _)
    unfold displayText
    simp only [String.toList_append, String.toList_ofList]
    rw [hcall.displayChars]

end Returned

end SequenceDiagram
