import Mathlib.Data.List.TakeWhile
import SequenceDiagram.Source.Lexeme
import SequenceDiagram.Text.Display

namespace SequenceDiagram

/-!
# How far a lexeme looks ahead

Where a lexeme ends depends on little of what stands behind it: on the next character, and behind a
point on the one after that. The end of a line looks like the end of the source.

* `SameAhead cs ds`: a lexeme cannot tell whether `cs` or `ds` stands behind it.
* `lexemeAt_congr`: so it ends in the same place. Only a quoted text that goes up to the end of its
  line is left open, since a carriage return there belongs to it.
* `Scanned cs`: the characters are white space, comments, newlines and other lexemes, piece by piece.
  There is one equation of `lexFrom` for each kind of piece.
-/

/-! ### The characters ahead -/

/-- The next character, unless the line ends. -/
def ahead (cs : List Char) : Option Char := cs.head?.filter fun c => c ≠ '\n' && c ≠ '\r'

/-- A lexeme sees no difference between what comes next. -/
structure SameAhead (cs ds : List Char) : Prop where
  first : ahead cs = ahead ds
  second : ahead cs = some '.' → ahead cs.tail = ahead ds.tail

theorem startsWith_eq_ahead {p : Char → Bool} (hnewline : p '\n' = false) (hreturn : p '\r' = false)
    (cs : List Char) : startsWith p cs = (ahead cs).any p := by
  cases cs with
  | nil => rfl
  | cons c cs =>
    by_cases hc : c = '\n'
    · subst hc
      exact hnewline
    · by_cases hr : c = '\r'
      · subst hr
        exact hreturn
      · simp [startsWith, ahead, Option.filter, hc, hr]

theorem SameAhead.startsWith {cs ds : List Char} (h : SameAhead cs ds) {p : Char → Bool}
    (hnewline : p '\n' = false) (hreturn : p '\r' = false) :
    SequenceDiagram.startsWith p cs = SequenceDiagram.startsWith p ds := by
  rw [startsWith_eq_ahead hnewline hreturn, startsWith_eq_ahead hnewline hreturn, h.first]

theorem head?_of_ahead {cs : List Char} {c : Char} (h : ahead cs = some c) : cs.head? = some c :=
  (Option.filter_eq_some_iff.mp h).1

theorem ahead_cons {c : Char} (hnewline : c ≠ '\n') (hreturn : c ≠ '\r') (cs : List Char) :
    ahead (c :: cs) = some c := by
  simp [ahead, Option.filter, hnewline, hreturn]

/-! ### Runs of characters -/

/-- Exactly the first part is a run of characters that satisfy `p`. -/
theorem length_takeWhile_append {p : Char → Bool} {taken rest : List Char} :
    ((taken ++ rest).takeWhile p).length = taken.length ↔
      (∀ c ∈ taken, p c = true) ∧ startsWith p rest = false := by
  induction taken with
  | nil =>
    cases rest with
    | nil => simp [startsWith]
    | cons c rest => by_cases h : p c = true <;> simp [startsWith, h]
  | cons c taken ih =>
    by_cases h : p c = true
    · rw [List.cons_append, List.takeWhile_cons_of_pos h, List.length_cons, List.length_cons,
        Nat.add_right_cancel_iff, ih, List.forall_mem_cons]
      simp [h]
    · rw [List.cons_append, List.takeWhile_cons_of_neg h]
      simp [h]

theorem takeWhile_eq_nil {p : Char → Bool} {cs : List Char} (h : startsWith p cs = false) :
    cs.takeWhile p = [] := by
  cases cs with
  | nil => rfl
  | cons c cs => rw [List.takeWhile_cons_of_neg (by simpa [startsWith] using h)]

theorem startsWith_dropWhile (p : Char → Bool) (cs : List Char) :
    startsWith p (cs.dropWhile p) = false := by
  induction cs with
  | nil => rfl
  | cons c cs ih =>
    by_cases h : p c = true
    · rw [List.dropWhile_cons_of_pos h, ih]
    · rw [List.dropWhile_cons_of_neg h]
      simpa [startsWith] using h

/-- The first part is a run, and what comes behind it is left. -/
theorem takeWhile_append_of_run {p : Char → Bool} {taken rest : List Char}
    (h : ∀ c ∈ taken, p c = true) (hrest : startsWith p rest = false) :
    (taken ++ rest).takeWhile p = taken := by
  rw [List.takeWhile_append_of_pos h, takeWhile_eq_nil hrest, List.append_nil]

/-- The length of a run of characters stays the same behind other characters. -/
theorem length_takeWhile_congr {p : Char → Bool} (hnewline : p '\n' = false)
    (hreturn : p '\r' = false) {taken rest other : List Char}
    (h : ((taken ++ rest).takeWhile p).length = taken.length) (hahead : SameAhead rest other) :
    ((taken ++ other).takeWhile p).length = taken.length := by
  rw [length_takeWhile_append] at h ⊢
  rwa [← hahead.startsWith hnewline hreturn]

/-! ### Numbers -/

/-- A point and a digit come next. -/
def startsFraction : List Char → Bool
  | '.' :: rest => startsWith Char.isDigit rest
  | _ => false

theorem SameAhead.startsFraction {cs ds : List Char} (h : SameAhead cs ds) :
    SequenceDiagram.startsFraction cs = SequenceDiagram.startsFraction ds := by
  have hpoint : ∀ cs, ahead cs ≠ some '.' → SequenceDiagram.startsFraction cs = false := by
    intro cs hne
    unfold SequenceDiagram.startsFraction
    split
    · exact absurd (ahead_cons (by decide) (by decide) _) hne
    · rfl
  by_cases hcs : ahead cs = some '.'
  · have hds := h.first ▸ hcs
    have hsecond := h.second hcs
    have hhead := head?_of_ahead hcs
    have hhead' := head?_of_ahead hds
    cases cs with
    | nil => cases hhead
    | cons c cs =>
      cases ds with
      | nil => cases hhead'
      | cons d ds =>
        cases hhead
        cases hhead'
        rw [List.tail_cons, List.tail_cons] at hsecond
        show SequenceDiagram.startsWith _ cs = SequenceDiagram.startsWith _ ds
        rw [startsWith_eq_ahead (by decide) (by decide), startsWith_eq_ahead (by decide) (by decide),
          hsecond]
  · rw [hpoint cs hcs, hpoint ds (h.first ▸ hcs)]

/-- A number is a run of digits, and perhaps a point and one more run. -/
theorem numberLength_eq {taken rest : List Char} (htaken : ∀ c ∈ taken, c.isDigit = true)
    (hrest : startsWith Char.isDigit rest = false) :
    numberLength (taken ++ rest) = if startsFraction rest
      then taken.length + 1 + (rest.tail.takeWhile Char.isDigit).length else taken.length := by
  unfold numberLength
  rw [takeWhile_append_of_run htaken hrest]
  dsimp only
  rw [List.drop_left]
  split
  · next d more =>
    show (if d.isDigit = true then _ else _) = if d.isDigit = true then _ else _
    rfl
  · next hne =>
    rw [if_neg]
    intro h
    unfold startsFraction at h
    split at h
    · next more =>
      cases more with
      | nil => cases h
      | cons d more => exact hne d more rfl
    · cases h

/-- A number with a point ends behind its second run of digits. -/
theorem numberLength_fraction {ds es rest : List Char} (hds : ∀ c ∈ ds, c.isDigit = true)
    (hes : ∀ c ∈ es, c.isDigit = true) (hne : startsWith Char.isDigit es = true)
    (hrest : startsWith Char.isDigit rest = false) :
    numberLength (ds ++ '.' :: es ++ rest) = (ds ++ '.' :: es).length := by
  have hfraction : startsFraction ('.' :: (es ++ rest)) = true := by
    cases es with
    | nil => cases hne
    | cons e es => exact hne
  rw [List.append_assoc, List.cons_append, numberLength_eq hds rfl, if_pos hfraction,
    List.tail_cons, takeWhile_append_of_run hes hrest, List.length_append, List.length_cons]
  omega

/-- A number is a run of digits, or two such runs with a point between them. -/
theorem numberLength_cases {taken rest : List Char}
    (h : numberLength (taken ++ rest) = taken.length) : startsWith Char.isDigit rest = false ∧
      ((∀ c ∈ taken, c.isDigit = true) ∧ startsFraction rest = false ∨
        ∃ ds es, taken = ds ++ '.' :: es ∧ (∀ c ∈ ds, c.isDigit = true) ∧
          (∀ c ∈ es, c.isDigit = true) ∧ startsWith Char.isDigit es = true) := by
  -- the first run of digits, and what stands behind it
  have hdigits : ∀ c ∈ (taken ++ rest).takeWhile Char.isDigit, c.isDigit = true := fun c hc =>
    List.mem_takeWhile_imp hc
  have hstop := startsWith_dropWhile Char.isDigit (taken ++ rest)
  have happend := List.takeWhile_append_dropWhile (p := Char.isDigit) (l := taken ++ rest)
  generalize (taken ++ rest).takeWhile Char.isDigit = ds at hdigits happend
  generalize (taken ++ rest).dropWhile Char.isDigit = cs at hstop happend
  rw [← happend, numberLength_eq hdigits hstop] at h
  by_cases hfraction : startsFraction cs = true
  · rw [if_pos hfraction] at h
    unfold startsFraction at hfraction
    split at hfraction
    · next tail =>
      -- the second run
      have hmore : ∀ c ∈ tail.takeWhile Char.isDigit, c.isDigit = true := fun c hc =>
        List.mem_takeWhile_imp hc
      have hne : startsWith Char.isDigit (tail.takeWhile Char.isDigit) = true := by
        cases tail with
        | nil => cases hfraction
        | cons d tail =>
          rw [List.takeWhile_cons_of_pos (show d.isDigit = true from hfraction)]
          exact hfraction
      have hstop := startsWith_dropWhile Char.isDigit tail
      rw [← List.takeWhile_append_dropWhile (p := Char.isDigit) (l := tail), ← List.cons_append,
        ← List.append_assoc] at happend
      obtain ⟨rfl, rfl⟩ := List.append_inj happend (by
        rw [← h, List.length_append, List.length_cons, List.tail_cons]
        omega)
      exact ⟨hstop, .inr ⟨ds, _, rfl, hdigits, hmore, hne⟩⟩
    · cases hfraction
  · rw [if_neg hfraction] at h
    obtain ⟨rfl, rfl⟩ := List.append_inj happend h
    exact ⟨hstop, .inl ⟨hdigits, by simpa using hfraction⟩⟩

/-- There is no newline in a number. -/
theorem newline_not_mem_number {taken rest : List Char}
    (h : numberLength (taken ++ rest) = taken.length) : '\n' ∉ taken := by
  intro hmem
  rcases numberLength_cases h with ⟨-, ⟨hdigits, -⟩ | ⟨ds, es, rfl, hds, hes, -⟩⟩
  · cases hdigits _ hmem
  · rcases List.mem_append.mp hmem with hmem | hmem
    · cases hds _ hmem
    · rcases List.mem_cons.mp hmem with hmem | hmem
      · cases hmem
      · cases hes _ hmem

/-- A number ends where it ended before. -/
theorem numberLength_congr {taken rest other : List Char}
    (h : numberLength (taken ++ rest) = taken.length) (hother : SameAhead rest other) :
    numberLength (taken ++ other) = taken.length := by
  obtain ⟨hrest, hcases⟩ := numberLength_cases h
  rw [hother.startsWith (by decide) (by decide)] at hrest
  rcases hcases with ⟨hdigits, hfraction⟩ | ⟨ds, es, rfl, hds, hes, hne⟩
  · rw [hother.startsFraction] at hfraction
    rw [numberLength_eq hdigits hrest, hfraction]
    rfl
  · exact numberLength_fraction hds hes hne hrest

/-! ### Quoted texts -/

/-- The character goes on with a quoted text. -/
def isQuotable (c : Char) : Bool := c ≠ '"' && c ≠ '\n'

/-- The line, and perhaps the source, ends here. -/
def LineEnd (cs : List Char) : Prop := cs = [] ∨ ∃ more, cs = '\n' :: more

theorem quotedLength_eq {body rest : List Char} (hbody : ∀ c ∈ body, isQuotable c = true)
    (hrest : startsWith isQuotable rest = false) :
    quotedLength (body ++ rest) =
      if rest.head? = some '"' then body.length + 1 else body.length := by
  unfold quotedLength
  rw [show (body ++ rest).takeWhile (fun c => c ≠ '"' && c ≠ '\n') = body from
    takeWhile_append_of_run hbody hrest]
  dsimp only
  rw [List.drop_left]

/-- A quoted text that has no closing quote goes up to the end of its line. -/
theorem quotedLength_of_lineEnd {taken rest : List Char}
    (htaken : ∀ c ∈ taken, isQuotable c = true) (hrest : LineEnd rest) :
    quotedLength (taken ++ rest) = taken.length := by
  have hstop : startsWith isQuotable rest = false ∧ rest.head? ≠ some '"' := by
    rcases hrest with rfl | ⟨more, rfl⟩
    · exact ⟨rfl, by simp⟩
    · exact ⟨rfl, by simp⟩
  rw [quotedLength_eq htaken hstop.1, if_neg hstop.2]

/-- A quoted text ends with its quote, and then nothing behind it matters, or at the end of its
    line. -/
theorem quotedLength_cases {taken rest : List Char}
    (h : quotedLength (taken ++ rest) = taken.length) : '\n' ∉ taken ∧
      ((∀ other, quotedLength (taken ++ other) = taken.length) ∨
        (∀ c ∈ taken, isQuotable c = true) ∧ LineEnd rest) := by
  have hbody : ∀ c ∈ (taken ++ rest).takeWhile isQuotable, isQuotable c = true := fun c hc =>
    List.mem_takeWhile_imp hc
  have hstop := startsWith_dropWhile isQuotable (taken ++ rest)
  have happend := List.takeWhile_append_dropWhile (p := isQuotable) (l := taken ++ rest)
  generalize (taken ++ rest).takeWhile isQuotable = body at hbody happend
  generalize (taken ++ rest).dropWhile isQuotable = tail at hstop happend
  have hnewline : '\n' ∉ body := fun hmem => nomatch hbody _ hmem
  rw [← happend, quotedLength_eq hbody hstop] at h
  cases tail with
  | nil =>
    obtain ⟨rfl, rfl⟩ := List.append_inj happend h
    exact ⟨hnewline, .inr ⟨hbody, .inl rfl⟩⟩
  | cons c tail =>
    by_cases hquote : c = '"'
    · subst hquote
      have hsame : (body ++ ['"']) ++ tail = taken ++ rest := by
        rw [← happend, List.append_assoc]
        rfl
      obtain ⟨rfl, rfl⟩ := List.append_inj hsame (by rw [List.length_append, ← h]; rfl)
      refine ⟨?_, .inl fun other => ?_⟩
      · rw [List.mem_append, List.mem_singleton, not_or]
        exact ⟨hnewline, by decide⟩
      · rw [List.append_assoc, quotedLength_eq hbody rfl, List.length_append]
        rfl
    · rw [if_neg (by simpa using hquote)] at h
      obtain ⟨rfl, rfl⟩ := List.append_inj happend h
      have hc : c = '\n' := by simpa [startsWith, isQuotable, hquote] using hstop
      exact ⟨hnewline, .inr ⟨hbody, .inr ⟨tail, by rw [hc]⟩⟩⟩

/-! ### Symbols -/

/-- A symbol looks at one more character. -/
theorem symbolAt_cons (c d : Char) (rest : List Char) :
    symbolAt c (d :: rest) = symbolAt c [d] := by
  unfold symbolAt
  split <;> simp_all

/-- A symbol does not go over the end of the line. -/
theorem symbolAt_lineEnd {c d : Char} (hd : d = '\n' ∨ d = '\r') :
    symbolAt c [d] = symbolAt c [] := by
  rcases hd with rfl | rfl <;> unfold symbolAt <;> split <;> simp_all

theorem symbolAt_ahead (c : Char) (rest : List Char) :
    symbolAt c rest = symbolAt c (ahead rest).toList := by
  cases rest with
  | nil => rfl
  | cons d rest =>
    rw [symbolAt_cons]
    by_cases hd : d = '\n' ∨ d = '\r'
    · have hnone : ahead (d :: rest) = none := by
        rcases hd with rfl | rfl <;> rfl
      rw [symbolAt_lineEnd hd, hnone]
      rfl
    · rw [not_or] at hd
      rw [ahead_cons hd.1 hd.2]
      rfl

theorem symbolAt_congr {c : Char} {rest other : List Char} (taken : List Char)
    (hahead : SameAhead rest other) : symbolAt c (taken ++ other) = symbolAt c (taken ++ rest) := by
  cases taken with
  | nil =>
    rw [List.nil_append, List.nil_append, symbolAt_ahead c rest, symbolAt_ahead c other,
      hahead.first]
  | cons d taken =>
    rw [List.cons_append, List.cons_append, symbolAt_cons, symbolAt_cons c d (taken ++ rest)]

/-- A symbol has at most one more character. -/
theorem length_symbolAt_le (c : Char) (rest : List Char) :
    (symbolAt c rest).2 ≤ 1 ∧ (symbolAt c rest).2 ≤ rest.length := by
  unfold symbolAt
  split <;> simp

/-- That character is no newline. -/
theorem newline_not_mem_symbol {c : Char} {taken rest : List Char}
    (h : (symbolAt c (taken ++ rest)).2 = taken.length) : '\n' ∉ taken := by
  cases taken with
  | nil => exact List.not_mem_nil
  | cons d taken =>
    rw [List.cons_append, symbolAt_cons] at h
    have hle := (length_symbolAt_le c [d]).1
    rw [h, List.length_cons] at hle
    obtain rfl := List.length_eq_zero_iff.mp (by omega : taken.length = 0)
    rw [List.mem_singleton]
    rintro rfl
    rw [symbolAt_lineEnd (.inl rfl)] at h
    have hle := (length_symbolAt_le c []).2
    rw [h] at hle
    cases hle

/-! ### Lexemes -/

theorem length_numberLength_le (rest : List Char) : numberLength rest ≤ rest.length := by
  have hdigits : ∀ c ∈ rest.takeWhile Char.isDigit, c.isDigit = true := fun c hc =>
    List.mem_takeWhile_imp hc
  have hstop := startsWith_dropWhile Char.isDigit rest
  have happend := List.takeWhile_append_dropWhile (p := Char.isDigit) (l := rest)
  rw [← happend, numberLength_eq hdigits hstop, List.length_append]
  split
  · next hfraction =>
    have hle := (List.takeWhile_sublist Char.isDigit (l := (rest.dropWhile Char.isDigit).tail)).length_le
    have hpos : 0 < (rest.dropWhile Char.isDigit).length := by
      cases hnil : rest.dropWhile Char.isDigit with
      | nil =>
        rw [hnil] at hfraction
        cases hfraction
      | cons c cs => exact Nat.succ_pos _
    rw [List.length_tail] at hle
    omega
  · omega

theorem length_quotedLength_le (rest : List Char) : quotedLength rest ≤ rest.length := by
  have hbody : ∀ c ∈ rest.takeWhile isQuotable, isQuotable c = true := fun c hc =>
    List.mem_takeWhile_imp hc
  have hstop := startsWith_dropWhile isQuotable rest
  have happend := List.takeWhile_append_dropWhile (p := isQuotable) (l := rest)
  rw [← happend, quotedLength_eq hbody hstop, List.length_append]
  split
  · next hquote =>
    have hpos : 0 < (rest.dropWhile isQuotable).length := by
      cases hnil : rest.dropWhile isQuotable with
      | nil =>
        rw [hnil] at hquote
        cases hquote
      | cons c cs => exact Nat.succ_pos _
    omega
  · omega

/-- A lexeme does not go beyond the source. -/
theorem length_lexemeAt_le (c : Char) (rest : List Char) : (lexemeAt c rest).2 ≤ rest.length := by
  have htake : ∀ p : Char → Bool, (rest.takeWhile p).length ≤ rest.length := fun p =>
    (List.takeWhile_sublist p).length_le
  unfold lexemeAt
  split
  · exact Nat.zero_le _
  · split
    · exact length_quotedLength_le rest
    · split
      · exact htake _
      · split
        · exact length_numberLength_le rest
        · split
          · exact htake _
          · exact (length_symbolAt_le c rest).2

/-- Only a newline is a newline. -/
theorem kind_of_lexemeAt {c : Char} (hc : c ≠ '\n') {rest : List Char} {kind : LexemeKind} {n : Nat}
    (hat : lexemeAt c rest = (kind, n)) : kind ≠ .newline := by
  have hkind : (lexemeAt c rest).1 ≠ .newline := by
    unfold lexemeAt
    rw [if_neg hc]
    split
    · exact LexemeKind.noConfusion
    · split
      · exact LexemeKind.noConfusion
      · split
        · exact LexemeKind.noConfusion
        · split
          · dsimp only
            split <;> exact LexemeKind.noConfusion
          · unfold symbolAt
            split <;> exact LexemeKind.noConfusion
  rwa [hat] at hkind

/-- A quoted text that has no closing quote is a lexeme up to the end of its line. -/
theorem lexemeAt_of_lineEnd {taken rest : List Char} (htaken : ∀ c ∈ taken, isQuotable c = true)
    (hrest : LineEnd rest) : lexemeAt '"' (taken ++ rest) = (.quoted, taken.length) := by
  rw [← quotedLength_of_lineEnd htaken hrest]
  rfl

/-- **A lexeme ends where it ended before**, if it sees no difference behind it. Only a quoted text
    that goes up to the end of its line is left open. -/
theorem lexemeAt_congr {c : Char} (hc : c ≠ '\n') {kind : LexemeKind} {taken rest : List Char}
    (hat : lexemeAt c (taken ++ rest) = (kind, taken.length)) :
    '\n' ∉ taken ∧
      ((∀ other, SameAhead rest other → lexemeAt c (taken ++ other) = (kind, taken.length)) ∨
        c = '"' ∧ kind = .quoted ∧ (∀ d ∈ taken, isQuotable d = true) ∧ LineEnd rest) := by
  have hrun : ∀ (p : Char → Bool), p '\n' = false → ((taken ++ rest).takeWhile p).length =
      taken.length → '\n' ∉ taken := by
    intro p hp hlength hmem
    have := (length_takeWhile_append.mp hlength).1 _ hmem
    rw [hp] at this
    cases this
  have h : (lexemeAt c (taken ++ rest)).2 = taken.length := by rw [hat]
  have hquoted : c = '"' → kind = .quoted := by
    rintro rfl
    exact (congrArg (·.1) hat).symm
  rw [← hat]
  unfold lexemeAt at h ⊢
  simp only [if_neg hc] at h ⊢
  by_cases hquote : c = '"'
  · rw [if_pos hquote] at h
    obtain ⟨hnewline, hall | hline⟩ := quotedLength_cases h
    · refine ⟨hnewline, .inl fun other _ => ?_⟩
      rw [if_pos hquote, if_pos hquote, hall, ← h]
    · exact ⟨hnewline, .inr ⟨hquote, hquoted hquote, hline⟩⟩
  · simp only [if_neg hquote] at h ⊢
    by_cases hname : isNameStart c = true
    · simp only [if_pos hname] at h ⊢
      refine ⟨hrun _ (by decide) h, .inl fun other hother => ?_⟩
      rw [h, length_takeWhile_congr (by decide) (by decide) h hother]
    · simp only [if_neg hname] at h ⊢
      by_cases hdigit : c.isDigit = true
      · simp only [if_pos hdigit] at h ⊢
        refine ⟨newline_not_mem_number h, .inl fun other hother => ?_⟩
        rw [numberLength_congr h hother, h]
      · simp only [if_neg hdigit] at h ⊢
        by_cases hhash : c = '#'
        · simp only [if_pos hhash] at h ⊢
          refine ⟨hrun _ (by decide) h, .inl fun other hother => ?_⟩
          rw [h, length_takeWhile_congr (by decide) (by decide) h hother]
        · simp only [if_neg hhash] at h ⊢
          exact ⟨newline_not_mem_symbol h, .inl fun other hother => symbolAt_congr taken hother⟩

theorem SameAhead.startsComment {cs ds : List Char} (h : SameAhead cs ds) (c : Char) :
    SequenceDiagram.startsComment c cs = SequenceDiagram.startsComment c ds := by
  have hslash : ∀ cs : List Char, (cs.head? == some '/') =
      SequenceDiagram.startsWith (· == '/') cs := by
    intro cs
    cases cs <;> rfl
  unfold SequenceDiagram.startsComment
  rw [hslash, hslash, h.startsWith (by decide) (by decide)]

/-! ### The pieces of a source -/

/-- The characters are white space, comments, newlines and other lexemes, piece by piece. -/
inductive Scanned : List Char → Prop where
  | nil : Scanned []
  | blank {c : Char} {rest : List Char} (hc : isBlank c = true) (hne : c ≠ '\n')
    (h : Scanned rest) : Scanned (c :: rest)
  | comment {body rest : List Char} (hbody : '\n' ∉ body) (hrest : LineEnd rest)
    (h : Scanned rest) : Scanned ('/' :: '/' :: (body ++ rest))
  | newline {rest : List Char} (h : Scanned rest) : Scanned ('\n' :: rest)
  | lexeme {kind : LexemeKind} {c : Char} {taken rest : List Char} (hc : c ≠ '\n')
    (hblank : isBlank c = false) (hcomment : startsComment c (taken ++ rest) = false)
    (hat : lexemeAt c (taken ++ rest) = (kind, taken.length)) (h : Scanned rest) :
    Scanned (c :: (taken ++ rest))

theorem startsComment_iff {c : Char} {cs : List Char} :
    startsComment c cs = true ↔ c = '/' ∧ ∃ rest, cs = '/' :: rest := by
  cases cs <;> simp [startsComment]

/-- What is left behind a comment is the end of its line. -/
theorem lineEnd_dropWhile (cs : List Char) : LineEnd (cs.dropWhile (· ≠ '\n')) := by
  induction cs with
  | nil => exact .inl rfl
  | cons c cs ih =>
    by_cases hc : c = '\n'
    · subst hc
      exact .inr ⟨cs, rfl⟩
    · rwa [List.dropWhile_cons_of_pos (by simpa using hc)]

/-- Up to the end of its line. -/
theorem takeWhile_line {body rest : List Char} (hbody : '\n' ∉ body) (hrest : LineEnd rest) :
    (body ++ rest).takeWhile (· ≠ '\n') = body := by
  refine takeWhile_append_of_run (fun c hc => ?_) ?_
  · simpa using fun h : c = '\n' => hbody (h ▸ hc)
  · rcases hrest with rfl | ⟨more, rfl⟩ <;> rfl

/-- From the end of its line on. -/
theorem dropWhile_line {body rest : List Char} (hbody : '\n' ∉ body) (hrest : LineEnd rest) :
    (body ++ rest).dropWhile (· ≠ '\n') = rest := by
  have happend := List.takeWhile_append_dropWhile (p := (· ≠ '\n')) (l := body ++ rest)
  rw [takeWhile_line hbody hrest] at happend
  exact List.append_cancel_left happend

/-- Every source is made of such pieces. -/
theorem scanned (cs : List Char) : Scanned cs := by
  induction hn : cs.length using Nat.strongRecOn generalizing cs with
  | ind n ih =>
    subst hn
    cases cs with
    | nil => exact .nil
    | cons c cs =>
      have hshorter : ∀ rest, rest <:+ cs → Scanned rest := fun rest hrest =>
        ih rest.length (Nat.lt_succ_of_le hrest.length_le) rest rfl
      by_cases hc : c = '\n'
      · subst hc
        exact .newline (hshorter cs (List.suffix_refl cs))
      · by_cases hblank : isBlank c = true
        · exact .blank hblank hc (hshorter cs (List.suffix_refl cs))
        · by_cases hcomment : startsComment c cs = true
          · obtain ⟨rfl, rest, rfl⟩ := startsComment_iff.mp hcomment
            rw [← List.takeWhile_append_dropWhile (p := (· ≠ '\n')) (l := rest)]
            refine .comment (fun hmem => ?_) (lineEnd_dropWhile rest) (hshorter _ ?_)
            · simpa using List.mem_takeWhile_imp hmem
            · exact (List.dropWhile_suffix _).trans (List.suffix_cons '/' rest)
          · have hlength := List.length_take_of_le (length_lexemeAt_le c cs)
            have happend := List.take_append_drop (lexemeAt c cs).2 cs
            rw [← happend]
            refine @Scanned.lexeme (lexemeAt c cs).1 c _ _ hc (by simpa using hblank) ?_ ?_
              (hshorter _ (List.drop_suffix _ _))
            · rw [happend]
              simpa using hcomment
            · rw [happend, hlength]

section LexFrom

variable (p : Position) (gap : List Char)

theorem lexFrom_nil : lexFrom p gap [] = [] := by rw [lexFrom.eq_def]

/-- White space is passed over. -/
theorem lexFrom_blank {c : Char} (hc : isBlank c = true) (hne : c ≠ '\n') (rest : List Char) :
    lexFrom p gap (c :: rest) = lexFrom (p.next c) (gap ++ [c]) rest := by
  rw [lexFrom.eq_def]
  dsimp only
  rw [if_pos (by simp [hc, hne])]

/-- A comment is passed over, up to the end of its line. -/
theorem lexFrom_comment {body rest : List Char} (hbody : '\n' ∉ body) (hrest : LineEnd rest) :
    lexFrom p gap ('/' :: '/' :: (body ++ rest)) =
      lexFrom (p.after ('/' :: '/' :: body)) (gap ++ '/' :: '/' :: body) rest := by
  have hline : '\n' ∉ '/' :: body := by
    rw [List.mem_cons, not_or]
    exact ⟨by decide, hbody⟩
  rw [lexFrom.eq_def]
  dsimp only
  rw [if_neg (by decide), if_pos (startsComment_iff.mpr ⟨rfl, _, rfl⟩), ← List.cons_append,
    takeWhile_line hline hrest, dropWhile_line hline hrest]

/-- A newline is a lexeme of its own. -/
theorem lexFrom_newline (rest : List Char) : lexFrom p gap ('\n' :: rest) =
    ⟨.newline, gap, ['\n'], Span.ofText p ['\n']⟩ :: lexFrom (p.next '\n') [] rest := by
  rw [lexFrom.eq_def]
  rfl

theorem lexFrom_lexeme {kind : LexemeKind} {c : Char} {taken rest : List Char}
    (hblank : isBlank c = false) (hcomment : startsComment c (taken ++ rest) = false)
    (hat : lexemeAt c (taken ++ rest) = (kind, taken.length)) :
    lexFrom p gap (c :: (taken ++ rest)) =
      ⟨kind, gap, c :: taken, Span.ofText p (c :: taken)⟩ ::
        lexFrom (p.after (c :: taken)) [] rest := by
  rw [lexFrom.eq_def]
  dsimp only
  rw [if_neg (by simp [hblank]), if_neg (by simp [hcomment]), hat]
  dsimp only
  rw [List.take_left, List.drop_left]

end LexFrom

end SequenceDiagram
