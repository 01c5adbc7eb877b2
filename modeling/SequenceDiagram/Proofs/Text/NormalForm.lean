import Mathlib.Data.List.TakeWhile
import SequenceDiagram.Proofs.Text.LineEnds

namespace SequenceDiagram

/-!
# The normal form of display text

A display text has the visible characters of the text it is made from. What stands between two of
them follows from the two and from whether there was white space between them.

* `separator c apart d` is what stands between two visible characters.
* `spaced` puts the visible characters one behind the other, with their separators.
* `displayChars_eq_spaced`: collapsing white space, tightening punctuation and spacing commas come
  to the same.
* `IsNormalForm` says it without `spaced`, character by character, and `displayText_normal_form` that
  a display text is such a form.
-/

/-! ### Separators -/

/-- The character can be seen. -/
def isVisible (c : Char) : Bool := !isBlank c

/-- What stands between two visible characters; `apart` says whether there was white space between
    them. A comma keeps its distance from what follows, a parenthesis or a point keeps none. -/
def separator (c : Char) (apart : Bool) (d : Char) : List Char :=
  if c = ',' then [' ']
  else if isTight c || isTight d then []
  else if apart then [' '] else []

theorem isBlank_space : isBlank ' ' = true := by decide

/-- There is nothing to be seen in a separator. -/
theorem filter_separator (c : Char) (apart : Bool) (d : Char) :
    (separator c apart d).filter isVisible = [] := by
  have hspace : isVisible ' ' = false := by decide
  unfold separator
  split_ifs <;> simp [hspace]

/-! ### Spacing visible characters -/

/-- A visible character and what follows it, with separators; `apart` says whether there was white
    space right behind the character. -/
def spacedFrom (c : Char) (apart : Bool) : List Char → List Char
  | [] => [c]
  | d :: rest =>
    if isBlank d then spacedFrom c true rest
    else c :: (separator c apart d ++ spacedFrom d false rest)

/-- The visible characters with their separators. -/
def spaced : List Char → List Char
  | [] => []
  | c :: rest => if isBlank c then spaced rest else spacedFrom c false rest

section Spaced

variable {c d : Char} {apart : Bool} {rest : List Char}

theorem spacedFrom_blank (hd : isBlank d = true) :
    spacedFrom c apart (d :: rest) = spacedFrom c true rest := by
  rw [spacedFrom, if_pos hd]

theorem spacedFrom_visible (hd : isBlank d = false) : spacedFrom c apart (d :: rest) =
    c :: (separator c apart d ++ spacedFrom d false rest) := by
  simp [spacedFrom, hd]

/-- The character itself comes first, and behind it nothing is lost. -/
theorem spacedFrom_eq_cons (c : Char) (apart : Bool) (rest : List Char) :
    ∃ behind, spacedFrom c apart rest = c :: behind ∧
      behind.filter isVisible = rest.filter isVisible := by
  induction rest generalizing c apart with
  | nil => exact ⟨[], rfl, rfl⟩
  | cons d rest ih =>
    by_cases hd : isBlank d = true
    · obtain ⟨behind, heq, hfilter⟩ := ih c true
      refine ⟨behind, by rw [spacedFrom_blank hd, heq], ?_⟩
      simp [hfilter, isVisible, hd]
    · simp only [Bool.not_eq_true] at hd
      obtain ⟨behind, heq, hfilter⟩ := ih d false
      refine ⟨separator c apart d ++ d :: behind, by rw [spacedFrom_visible hd, heq], ?_⟩
      have hvisible : isVisible d = true := by simp [isVisible, hd]
      simp [filter_separator, hvisible, hfilter]

theorem spacedFrom_ne_nil (c : Char) (apart : Bool) (rest : List Char) :
    spacedFrom c apart rest ≠ [] := by
  obtain ⟨behind, heq, -⟩ := spacedFrom_eq_cons c apart rest
  simp [heq]

/-- The last character can be seen. -/
theorem getLast?_spacedFrom (hc : isVisible c = true) :
    ∀ e ∈ (spacedFrom c apart rest).getLast?, isVisible e = true := by
  induction rest generalizing c apart with
  | nil =>
    intro e he
    simp only [spacedFrom, List.getLast?_singleton, Option.mem_some] at he
    rwa [← he]
  | cons d rest ih =>
    by_cases hd : isBlank d = true
    · rw [spacedFrom_blank hd]
      exact ih hc
    · simp only [Bool.not_eq_true] at hd
      -- what comes from the next visible character on is not empty, so it has the last one
      have hlast : (spacedFrom c apart (d :: rest)).getLast? = (spacedFrom d false rest).getLast? := by
        rw [spacedFrom_visible hd, ← List.cons_append,
          List.getLast?_append_of_ne_nil _ (spacedFrom_ne_nil d false rest)]
      rw [hlast]
      apply ih
      simp [isVisible, hd]

/-- White space between two visible characters counts once. -/
theorem spacedFrom_blanks {blanks : List Char} (hblanks : ∀ b ∈ blanks, isBlank b = true)
    (hd : isBlank d = false) : spacedFrom c apart (blanks ++ d :: rest) =
      c :: (separator c (apart || !blanks.isEmpty) d ++ spacedFrom d false rest) := by
  induction blanks generalizing apart with
  | nil => simp [spacedFrom_visible hd]
  | cons b blanks ih =>
    obtain ⟨hb, hothers⟩ := List.forall_mem_cons.mp hblanks
    rw [List.cons_append, spacedFrom_blank hb, ih hothers]
    simp

/-- From each later visible character on, the rest is spaced by itself. -/
theorem exists_spacedFrom_append (before rest : List Char) (apart : Bool)
    (hc : isVisible c = true) (hd : isBlank d = false) :
    ∃ front, front.filter isVisible = c :: before.filter isVisible ∧
      spacedFrom c apart (before ++ d :: rest) = front ++ spacedFrom d false rest := by
  induction before generalizing c apart with
  | nil =>
    refine ⟨c :: separator c apart d, by simp [hc, filter_separator], ?_⟩
    rw [List.nil_append, spacedFrom_visible hd]
    simp
  | cons e before ih =>
    by_cases he : isBlank e = true
    · obtain ⟨front, hfilter, heq⟩ := ih true hc
      refine ⟨front, by simp [hfilter, isVisible, he], ?_⟩
      rw [List.cons_append, spacedFrom_blank he, heq]
    · simp only [Bool.not_eq_true] at he
      have hvisible : isVisible e = true := by simp [isVisible, he]
      obtain ⟨front, hfilter, heq⟩ := ih false hvisible
      refine ⟨c :: (separator c apart e ++ front), ?_, ?_⟩
      · simp [hc, filter_separator, hfilter, hvisible]
      · rw [List.cons_append, spacedFrom_visible he, heq]
        simp

theorem exists_spaced_append (before rest : List Char) (hd : isBlank d = false) :
    ∃ front, front.filter isVisible = before.filter isVisible ∧
      spaced (before ++ d :: rest) = front ++ spacedFrom d false rest := by
  induction before with
  | nil => exact ⟨[], rfl, by simp [spaced, hd]⟩
  | cons e before ih =>
    by_cases he : isBlank e = true
    · obtain ⟨front, hfilter, heq⟩ := ih
      refine ⟨front, by simp [hfilter, isVisible, he], ?_⟩
      simpa [spaced, he] using heq
    · simp only [Bool.not_eq_true] at he
      have hvisible : isVisible e = true := by simp [isVisible, he]
      obtain ⟨front, hfilter, heq⟩ := exists_spacedFrom_append before rest false hvisible hd
      refine ⟨front, by simp [hfilter, hvisible], ?_⟩
      simpa [spaced, he] using heq

/-- **Spacing keeps the visible characters**, and both ends can be seen. -/
theorem filter_spaced (cs : List Char) : (spaced cs).filter isVisible = cs.filter isVisible ∧
    (∀ e ∈ (spaced cs).head?, isVisible e = true) ∧
    ∀ e ∈ (spaced cs).getLast?, isVisible e = true := by
  induction cs with
  | nil => simp [spaced]
  | cons c rest ih =>
    by_cases hc : isBlank c = true
    · simpa [spaced, hc, isVisible] using ih
    · simp only [Bool.not_eq_true] at hc
      have hvisible : isVisible c = true := by simp [isVisible, hc]
      have hspaced : spaced (c :: rest) = spacedFrom c false rest := by simp [spaced, hc]
      obtain ⟨behind, heq, hfilter⟩ := spacedFrom_eq_cons c false rest
      rw [hspaced]
      refine ⟨?_, ?_, getLast?_spacedFrom hvisible⟩
      · simp [heq, hvisible, hfilter]
      · simp [heq, hvisible]

/-- **What stands between two neighbours is their separator.** -/
theorem spaced_neighbours {cs before blanks after : List Char}
    (hcs : cs = before ++ c :: (blanks ++ d :: after)) (hc : isVisible c = true)
    (hd : isVisible d = true) (hblanks : ∀ b ∈ blanks, isBlank b = true) :
    ∃ front back, spaced cs = front ++ c :: (separator c (!blanks.isEmpty) d ++ d :: back) ∧
      front.filter isVisible = before.filter isVisible ∧
      back.filter isVisible = after.filter isVisible := by
  simp only [isVisible, Bool.not_eq_true'] at hc hd
  obtain ⟨front, hfront, hspaced⟩ := exists_spaced_append before (blanks ++ d :: after) hc
  obtain ⟨back, heq, hback⟩ := spacedFrom_eq_cons d false after
  refine ⟨front, back, ?_, hfront, hback⟩
  rw [hcs, hspaced, spacedFrom_blanks hblanks hd, heq, Bool.false_or]

end Spaced

/-! ### Display text is spaced -/

/-- What is cut off at the end is cut off the last piece. -/
theorem trimEnd_append_of_ne_nil (cs : List Char) {ds : List Char} (h : trimEnd ds ≠ []) :
    trimEnd (cs ++ ds) = cs ++ trimEnd ds := by
  induction cs with
  | nil => rfl
  | cons c cs ih =>
    rw [List.cons_append, trimEnd_cons, ih]
    simp [h]

theorem spaceCommas_cons (c : Char) (cs : List Char) :
    spaceCommas (c :: cs) = c :: ((if c = ',' then [' '] else []) ++ spaceCommas cs) := by
  unfold spaceCommas
  rw [List.flatMap_cons]
  split_ifs with h <;> simp [h]

section Blanks

variable {b d : Char} {rest : List Char}

/-- Any white space in front collapses like a single space. -/
theorem collapseBlanks_blank (hb : isBlank b = true) :
    collapseBlanks (b :: rest) = collapseBlanks (' ' :: rest) := by
  simp [collapseBlanks, hb, isBlank_space]

theorem collapseBlanks_space_blank (hb : isBlank b = true) :
    collapseBlanks (' ' :: b :: rest) = collapseBlanks (' ' :: rest) := by
  rw [collapseBlanks, if_pos isBlank_space, startsWith, if_pos hb, collapseBlanks_blank hb]

theorem collapseBlanks_visible (hd : isBlank d = false) :
    collapseBlanks (d :: rest) = d :: collapseBlanks rest := by
  simp [collapseBlanks, hd]

theorem collapseBlanks_space_visible (hd : isBlank d = false) :
    collapseBlanks (' ' :: d :: rest) = ' ' :: d :: collapseBlanks rest := by
  rw [collapseBlanks, if_pos isBlank_space, startsWith, hd, collapseBlanks_visible hd]
  rfl

theorem tightenFrom_visible (afterTight : Bool) (hd : isBlank d = false) :
    tightenFrom afterTight (d :: rest) = d :: tightenFrom (isTight d) rest := by
  simp [tightenFrom, hd]

/-- A single space goes if one of its neighbours is tight. -/
theorem tightenFrom_space (afterTight : Bool) (hd : isBlank d = false) :
    tightenFrom afterTight (' ' :: d :: rest) =
      (if afterTight || isTight d then [] else [' ']) ++ d :: tightenFrom (isTight d) rest := by
  have hspace : isTight ' ' = false := by decide
  rw [tightenFrom, isBlank_space, List.dropWhile_cons_of_neg (by simp [hd]), startsWith]
  split_ifs with htight <;> simp_all [tightenFrom_visible]

end Blanks

/-- The three steps behind a visible character, with white space in front of the rest if `apart`. -/
theorem trimEnd_spaceCommas (c : Char) (hc : isBlank c = false) (apart : Bool) (rest : List Char) :
    trimEnd (spaceCommas (c :: tightenFrom (isTight c)
      (collapseBlanks ((if apart then [' '] else []) ++ rest)))) = spacedFrom c apart rest := by
  -- by induction on the rest: white space is moved into `apart`, a visible character takes over
  induction rest generalizing c apart with
  | nil =>
    have hends : ∀ blanks : List Char, (∀ b ∈ blanks, isBlank b = true) →
        trimEnd (c :: blanks) = [c] := by
      intro blanks hblanks
      have hnil : trimEnd blanks = [] := by
        rw [trimEnd, List.reverse_eq_nil_iff, List.dropWhile_eq_nil_iff]
        simpa using hblanks
      simp [trimEnd_cons, hnil, hc]
    rw [spaceCommas_cons]
    apply hends
    -- only spaces are left behind the character
    cases apart <;> cases htight : isTight c <;> by_cases hcomma : c = ',' <;>
      simp_all [collapseBlanks, tightenFrom, spaceCommas, startsWith, isBlank_space]
  | cons d rest ih =>
    by_cases hd : isBlank d = true
    · rw [spacedFrom_blank hd, ← ih c hc true]
      cases apart with
      | false => simp [collapseBlanks_blank hd]
      | true => simp [collapseBlanks_space_blank hd]
    · simp only [Bool.not_eq_true] at hd
      have hrest := ih d hd false
      simp only [Bool.false_eq_true, if_false, List.nil_append] at hrest
      have hgap : tightenFrom (isTight c)
          (collapseBlanks ((if apart then [' '] else []) ++ d :: rest)) =
            (if apart && !(isTight c || isTight d) then [' '] else []) ++
              d :: tightenFrom (isTight d) (collapseBlanks rest) := by
        cases apart with
        | false => simp [collapseBlanks_visible hd, tightenFrom_visible _ hd]
        | true =>
          rw [if_pos rfl, List.singleton_append, collapseBlanks_space_visible hd,
            tightenFrom_space _ hd]
          cases isTight c || isTight d <;> rfl
      have hcommas : spaceCommas (c :: tightenFrom (isTight c)
          (collapseBlanks ((if apart then [' '] else []) ++ d :: rest))) =
            (c :: separator c apart d) ++
              spaceCommas (d :: tightenFrom (isTight d) (collapseBlanks rest)) := by
        have hcomma : isTight ',' = true := by decide
        have hspace : spaceCommas [' '] = [' '] := by decide
        rw [hgap, spaceCommas_cons, spaceCommas, List.flatMap_append, ← spaceCommas, ← spaceCommas]
        unfold separator
        by_cases h : c = ',' <;> cases apart <;> cases htight : isTight c <;>
          cases htight' : isTight d <;> simp_all
        all_goals simp [spaceCommas]
      rw [hcommas, trimEnd_append_of_ne_nil, hrest, spacedFrom_visible hd, List.cons_append]
      rw [hrest]
      exact spacedFrom_ne_nil d false rest

/-- White space in front of a text is not displayed. -/
theorem displayed_blank {b : Char} (hb : isBlank b = true) (rest : List Char) :
    trimChars (spaceCommas (tightenFrom false (collapseBlanks (b :: rest)))) =
      trimChars (spaceCommas (tightenFrom false (collapseBlanks rest))) := by
  rw [collapseBlanks_blank hb]
  cases rest with
  | nil => decide
  | cons d rest =>
    by_cases hd : isBlank d = true
    · rw [collapseBlanks_space_blank hd, ← collapseBlanks_blank hd]
    · simp only [Bool.not_eq_true] at hd
      rw [collapseBlanks_space_visible hd, collapseBlanks_visible hd, tightenFrom_space _ hd,
        tightenFrom_visible _ hd]
      -- the space is gone, or it is the first character
      cases isTight d with
      | true => rfl
      | false =>
        show trimChars (spaceCommas (' ' :: d :: _)) = _
        rw [spaceCommas_cons, trimChars_eq, trimChars_eq]
        simp [isBlank_space]

/-- **Display text is its text, unquoted and spaced.** -/
theorem displayChars_eq_spaced (cs : List Char) :
    displayChars cs = spaced (unquoteChars (cs.filter isXmlChar)) := by
  unfold displayChars
  generalize unquoteChars (cs.filter isXmlChar) = u
  induction u with
  | nil => rfl
  | cons c rest ih =>
    by_cases hc : isBlank c = true
    · rw [displayed_blank hc, ih, spaced, if_pos hc]
    · simp only [Bool.not_eq_true] at hc
      have hspaced := trimEnd_spaceCommas c hc false rest
      simp only [Bool.false_eq_true, if_false, List.nil_append] at hspaced
      rw [collapseBlanks_visible hc, tightenFrom_visible _ hc, trimChars_eq, spaceCommas_cons,
        List.dropWhile_cons_of_neg (by simp [hc]), ← spaceCommas_cons, hspaced, spaced]
      simp [hc]

/-! ### The normal form -/

/-- The characters `y` are the normal form of the characters `u`. -/
structure IsNormalForm (u y : List Char) : Prop where
  /-- What can be seen stays, in its order. -/
  visible : y.filter isVisible = u.filter isVisible
  /-- Nothing stands in front of it. -/
  head : ∀ c ∈ y.head?, isVisible c = true
  /-- Nothing stands behind it. -/
  last : ∀ c ∈ y.getLast?, isVisible c = true
  /-- Two visible characters with only white space between them have their separator. -/
  between : ∀ before blanks after c d, u = before ++ c :: (blanks ++ d :: after) →
    isVisible c = true → isVisible d = true → (∀ b ∈ blanks, isBlank b = true) →
    ∃ front back, y = front ++ c :: (separator c (!blanks.isEmpty) d ++ d :: back) ∧
      front.filter isVisible = before.filter isVisible ∧
      back.filter isVisible = after.filter isVisible

theorem isNormalForm_spaced (u : List Char) : IsNormalForm u (spaced u) := by
  obtain ⟨hvisible, hhead, hlast⟩ := filter_spaced u
  refine ⟨hvisible, hhead, hlast, ?_⟩
  intro before blanks after c d hu hc hd hblanks
  exact spaced_neighbours hu hc hd hblanks

/-- **The normal form of display text.** It has the visible characters of the text as it is cleaned
    and unquoted, in their order, and both of its ends can be seen. Between two of them it has their
    separator: a space behind a comma, nothing behind a parenthesis or a point, nothing in front of
    a parenthesis, a comma or a point, and else a space exactly if there was white space. -/
theorem displayText_normal_form (raw : String) :
    IsNormalForm (unquote (sanitize raw)).toList (displayText raw).toList := by
  have hspaced : (displayText raw).toList = spaced (unquote (sanitize raw)).toList := by
    rw [displayText, unquote, sanitize, String.toList_ofList, String.toList_ofList,
      String.toList_ofList, displayChars_eq_spaced]
  rw [hspaced]
  exact isNormalForm_spaced _

/-- Commas keep their space even in front of a parenthesis, and lose it only at the end. -/
example : displayText " \"f ( a ,\n) . g ,\" " = "f(a, ).g," := by
  decide +kernel

end SequenceDiagram
