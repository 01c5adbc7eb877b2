import SequenceDiagram.Proofs.Layout.Likeness
import SequenceDiagram.Proofs.Source.Lookahead
import SequenceDiagram.Proofs.Syntax.Simulation

namespace SequenceDiagram

open Syntax

/-!
# Comments show only in parentheses

Comments are no lexemes, but the texts of arguments and guards are cut out of the source with
everything between their lexemes. So a comment inside parentheses is part of such a text, unless it
comes first there, or the source ends with it.

* `withoutComments source` leaves the slashes of every comment and drops what is written behind them.
* `linesAlike_lexFrom_comments`: two sources that differ in comments only have the same lexemes, and
  the same gaps, but for those with comments in them.
* `comments_show_only_in_parentheses`: they have the same lifelines, and the same texts in parentheses
  but for those with slashes in them. If these look alike, then the layouts are the same.
* `comment_between_arguments_shows` is a case in which they are not.
-/

/-! ### Sources without comments -/

/-- The characters without those behind the slashes of a comment. -/
def withoutCommentChars : List Char → List Char
  | [] => []
  | c :: rest =>
    if isBlank c then c :: withoutCommentChars rest
    else if startsComment c rest then '/' :: '/' :: withoutCommentChars (rest.dropWhile (· ≠ '\n'))
    else
      let length := (lexemeAt c rest).2
      c :: (rest.take length ++ withoutCommentChars (rest.drop length))
termination_by cs => cs.length
decreasing_by
  · simp
  · have hle : (rest.dropWhile (· ≠ '\n')).length ≤ rest.length :=
      (List.dropWhile_sublist _).length_le
    simp only [List.length_cons]
    omega
  · simp only [List.length_cons, List.length_drop]
    omega

/-- The source without what is written in its comments. -/
def withoutComments (source : String) : String :=
  String.ofList (withoutCommentChars source.toList)

theorem withoutCommentChars_nil : withoutCommentChars [] = [] := by
  rw [withoutCommentChars.eq_def]

theorem withoutCommentChars_blank {c : Char} (hc : isBlank c = true) (rest : List Char) :
    withoutCommentChars (c :: rest) = c :: withoutCommentChars rest := by
  rw [withoutCommentChars.eq_def]
  dsimp only
  rw [if_pos hc]

theorem withoutCommentChars_comment {body rest : List Char} (hbody : '\n' ∉ body)
    (hrest : LineEnd rest) :
    withoutCommentChars ('/' :: '/' :: (body ++ rest)) = '/' :: '/' :: withoutCommentChars rest := by
  have hline : '\n' ∉ '/' :: body := by
    rw [List.mem_cons, not_or]
    exact ⟨by decide, hbody⟩
  rw [withoutCommentChars.eq_def]
  dsimp only
  rw [if_neg (by decide), if_pos (startsComment_iff.mpr ⟨rfl, _, rfl⟩), ← List.cons_append,
    dropWhile_line hline hrest]

theorem withoutCommentChars_lexeme {kind : LexemeKind} {c : Char} {taken rest : List Char}
    (hblank : isBlank c = false) (hcomment : startsComment c (taken ++ rest) = false)
    (hat : lexemeAt c (taken ++ rest) = (kind, taken.length)) :
    withoutCommentChars (c :: (taken ++ rest)) = c :: (taken ++ withoutCommentChars rest) := by
  rw [withoutCommentChars.eq_def]
  dsimp only
  rw [if_neg (by simp [hblank]), if_neg (by simp [hcomment]), hat]
  dsimp only
  rw [List.take_left, List.drop_left]

/-! ### The first characters -/

/-- The first character stays. -/
theorem head?_withoutCommentChars (cs : List Char) : (withoutCommentChars cs).head? = cs.head? := by
  cases scanned cs with
  | nil => rw [withoutCommentChars_nil]
  | blank hc => rw [withoutCommentChars_blank hc]; rfl
  | comment hbody hrest => rw [withoutCommentChars_comment hbody hrest]; rfl
  | newline => rw [withoutCommentChars_blank (by decide)]; rfl
  | lexeme _ hblank hcomment hat => rw [withoutCommentChars_lexeme hblank hcomment hat]; rfl

theorem head?_append_withoutCommentChars (taken rest : List Char) :
    (taken ++ withoutCommentChars rest).head? = (taken ++ rest).head? := by
  rw [List.head?_append, List.head?_append, head?_withoutCommentChars]

/-- The second character stays. -/
theorem head?_tail_withoutCommentChars (cs : List Char) :
    (withoutCommentChars cs).tail.head? = cs.tail.head? := by
  cases scanned cs with
  | nil => rw [withoutCommentChars_nil]
  | blank hc =>
    rw [withoutCommentChars_blank hc]
    exact head?_withoutCommentChars _
  | comment hbody hrest => rw [withoutCommentChars_comment hbody hrest]; rfl
  | newline =>
    rw [withoutCommentChars_blank (by decide)]
    exact head?_withoutCommentChars _
  | lexeme _ hblank hcomment hat =>
    rw [withoutCommentChars_lexeme hblank hcomment hat]
    exact head?_append_withoutCommentChars _ _

/-- A lexeme sees nothing of the comments behind it. -/
theorem sameAhead_withoutCommentChars (cs : List Char) : SameAhead cs (withoutCommentChars cs) where
  first := by rw [ahead, ahead, head?_withoutCommentChars]
  second _ := by rw [ahead, ahead, head?_tail_withoutCommentChars]

theorem startsComment_congr {c : Char} {cs ds : List Char} (h : cs.head? = ds.head?) :
    startsComment c cs = startsComment c ds := by
  rw [startsComment, startsComment, h]

/-- A lexeme ends where it ended before. -/
theorem lexemeAt_withoutCommentChars {kind : LexemeKind} {c : Char} (hc : c ≠ '\n')
    {taken rest : List Char} (hat : lexemeAt c (taken ++ rest) = (kind, taken.length)) :
    lexemeAt c (taken ++ withoutCommentChars rest) = (kind, taken.length) := by
  obtain ⟨-, hsame | ⟨rfl, rfl, hbody, hrest⟩⟩ := lexemeAt_congr hc hat
  · exact hsame _ (sameAhead_withoutCommentChars rest)
  · -- a quoted text that goes up to the end of its line, where no comment can start
    refine lexemeAt_of_lineEnd hbody ?_
    rcases hrest with rfl | ⟨more, rfl⟩
    · exact .inl withoutCommentChars_nil
    · exact .inr ⟨_, withoutCommentChars_blank (by decide) more⟩

/-! ### The pieces of two sources -/

section Inversion

variable {c : Char} {ds xs : List Char}

/-- Where white space stands in one source, it stands in the other. -/
theorem blank_of_withoutCommentChars (hc : isBlank c = true)
    (h : withoutCommentChars ds = c :: xs) : ∃ rest, ds = c :: rest ∧ withoutCommentChars rest = xs := by
  have hhead := head?_withoutCommentChars ds
  rw [h] at hhead
  cases ds with
  | nil => cases hhead
  | cons d rest =>
    obtain rfl : c = d := Option.some.inj hhead
    rw [withoutCommentChars_blank hc] at h
    exact ⟨rest, rfl, (List.cons.inj h).2⟩

/-- Where a comment starts in one source, it starts in the other. -/
theorem comment_of_withoutCommentChars (h : withoutCommentChars ds = '/' :: '/' :: xs) :
    ∃ body rest, '\n' ∉ body ∧ LineEnd rest ∧ ds = '/' :: '/' :: (body ++ rest) ∧
      withoutCommentChars rest = xs := by
  cases scanned ds with
  | nil =>
    rw [withoutCommentChars_nil] at h
    cases h
  | blank hc =>
    rw [withoutCommentChars_blank hc] at h
    obtain ⟨rfl, -⟩ := List.cons.inj h
    cases hc
  | @comment body rest hbody hrest =>
    rw [withoutCommentChars_comment hbody hrest] at h
    exact ⟨body, rest, hbody, hrest, rfl, (List.cons.inj (List.cons.inj h).2).2⟩
  | newline =>
    rw [withoutCommentChars_blank (by decide)] at h
    exact absurd (List.cons.inj h).1 (by decide)
  | lexeme _ hblank hcomment hat =>
    rw [withoutCommentChars_lexeme hblank hcomment hat] at h
    obtain ⟨rfl, htail⟩ := List.cons.inj h
    rw [← startsComment_congr (head?_append_withoutCommentChars _ _), htail] at hcomment
    cases hcomment

/-- Where a lexeme stands in one source, it stands in the other. -/
theorem lexeme_of_withoutCommentChars {kind : LexemeKind} {taken : List Char}
    (hblank : isBlank c = false) (hcomment : startsComment c (taken ++ xs) = false)
    (hat : lexemeAt c (taken ++ xs) = (kind, taken.length))
    (h : withoutCommentChars ds = c :: (taken ++ xs)) :
    ∃ rest, ds = c :: (taken ++ rest) ∧ startsComment c (taken ++ rest) = false ∧
      lexemeAt c (taken ++ rest) = (kind, taken.length) ∧ withoutCommentChars rest = xs := by
  cases scanned ds with
  | nil =>
    rw [withoutCommentChars_nil] at h
    cases h
  | blank hc =>
    rw [withoutCommentChars_blank hc] at h
    obtain ⟨rfl, -⟩ := List.cons.inj h
    rw [hc] at hblank
    cases hblank
  | comment hbody hrest =>
    rw [withoutCommentChars_comment hbody hrest] at h
    obtain ⟨rfl, htail⟩ := List.cons.inj h
    rw [← htail] at hcomment
    cases hcomment
  | newline =>
    rw [withoutCommentChars_blank (by decide)] at h
    obtain ⟨rfl, -⟩ := List.cons.inj h
    cases hblank
  | @lexeme _ _ taken' rest hne hblank' hcomment' hat' =>
    rw [withoutCommentChars_lexeme hblank' hcomment' hat'] at h
    obtain ⟨rfl, htail⟩ := List.cons.inj h
    have hsame := lexemeAt_withoutCommentChars hne hat'
    rw [htail, hat] at hsame
    obtain ⟨rfl, hlength⟩ := Prod.mk.inj hsame
    obtain ⟨rfl, rfl⟩ := List.append_inj htail hlength.symm
    exact ⟨rest, rfl, hcomment', hat', rfl⟩

end Inversion

/-! ### The lexemes of two sources -/

/-- There are two slashes in the text, as at the start of a comment. -/
def HasSlashes (cs : List Char) : Prop := ['/', '/'] <:+: cs

/-- The texts are the same, or both have slashes in them. -/
def SameButSlashes (cs ds : List Char) : Prop := cs = ds ∨ HasSlashes cs ∧ HasSlashes ds

theorem HasSlashes.comment (gap body : List Char) : HasSlashes (gap ++ '/' :: '/' :: body) :=
  ⟨gap, body, by simp⟩

theorem HasSlashes.append_right {cs : List Char} (h : HasSlashes cs) (ds : List Char) :
    HasSlashes (cs ++ ds) := h.trans (List.prefix_append cs ds).isInfix

theorem HasSlashes.append_left {ds : List Char} (h : HasSlashes ds) (cs : List Char) :
    HasSlashes (cs ++ ds) := h.trans (List.suffix_append cs ds).isInfix

theorem SameButSlashes.append {cs ds xs ys : List Char} (h : SameButSlashes cs ds)
    (h' : SameButSlashes xs ys) : SameButSlashes (cs ++ xs) (ds ++ ys) := by
  rcases h with rfl | ⟨hcs, hds⟩
  · rcases h' with rfl | ⟨hxs, hys⟩
    · exact .inl rfl
    · exact .inr ⟨hxs.append_left cs, hys.append_left cs⟩
  · exact .inr ⟨hcs.append_right xs, hds.append_right ys⟩

/-- **Comments are no lexemes.** Two sources that differ in comments only have the same lexemes. On
    each line the places are the same, up to the comment that ends it. -/
theorem linesAlike_lexFrom_comments {p q : Position} {gap other cs ds : List Char}
    (h : withoutCommentChars cs = withoutCommentChars ds) (hline : p.line = q.line)
    (hstand : p.column = q.column ∧ gap = other ∨
      LineEnd cs ∧ HasSlashes gap ∧ HasSlashes other) :
    LinesAlike SameButSlashes (lexFrom p gap cs) (lexFrom q other ds) := by
  induction scanned cs generalizing p q gap other ds with
  | nil =>
    rw [withoutCommentChars_nil] at h
    have hhead := head?_withoutCommentChars ds
    rw [← h] at hhead
    obtain rfl := List.head?_eq_none_iff.mp hhead.symm
    rw [lexFrom_nil, lexFrom_nil]
    exact .nil
  | @blank c rest hc hne _ ih =>
    rw [withoutCommentChars_blank hc] at h
    obtain ⟨rest', rfl, hrest⟩ := blank_of_withoutCommentChars hc h.symm
    rw [lexFrom_blank p gap hc hne, lexFrom_blank q other hc hne]
    rcases hstand with ⟨hcolumn, rfl⟩ | ⟨hend, -⟩
    · exact ih hrest.symm (Position.line_next hline c) (.inl ⟨Position.column_next hcolumn c, rfl⟩)
    · rcases hend with hend | ⟨more, hend⟩
      · cases hend
      · exact absurd (List.cons.inj hend).1 hne
  | @comment body rest hbody hrest _ ih =>
    rw [withoutCommentChars_comment hbody hrest] at h
    obtain ⟨body', rest', hbody', hrest', rfl, heq⟩ := comment_of_withoutCommentChars h.symm
    rw [lexFrom_comment p gap hbody hrest, lexFrom_comment q other hbody' hrest']
    refine ih heq.symm ?_ (.inr ⟨hrest, .comment gap body, .comment other body'⟩)
    rw [Position.line_after_of_not_mem (by simpa using hbody),
      Position.line_after_of_not_mem (by simpa using hbody'), hline]
  | @newline rest _ ih =>
    rw [withoutCommentChars_blank (by decide)] at h
    obtain ⟨rest', rfl, hrest⟩ := blank_of_withoutCommentChars (by decide) h.symm
    rw [lexFrom_newline, lexFrom_newline]
    refine .newline rfl rfl (hstand.imp (·.2) (·.2)) rfl rfl hline (ih hrest.symm ?_ ?_)
    · exact Position.line_next hline '\n'
    · exact .inl ⟨rfl, rfl⟩
  | @lexeme kind c taken rest hc hblank hcomment hat _ ih =>
    rw [withoutCommentChars_lexeme hblank hcomment hat] at h
    have hcomment' := hcomment
    rw [← startsComment_congr (head?_append_withoutCommentChars taken rest)] at hcomment'
    obtain ⟨rest', rfl, hcomment', hat', hrest⟩ := lexeme_of_withoutCommentChars hblank hcomment'
      (lexemeAt_withoutCommentChars hc hat) h.symm
    rw [lexFrom_lexeme p gap hblank hcomment hat, lexFrom_lexeme q other hblank hcomment' hat']
    rcases hstand with ⟨hcolumn, rfl⟩ | ⟨hend, -⟩
    · exact .lexeme rfl (kind_of_lexemeAt hc hat) rfl rfl ⟨hline, hcolumn⟩ (ih hrest.symm
        (Position.line_after hline _) (.inl ⟨Position.column_after hcolumn _, rfl⟩))
    · rcases hend with hend | ⟨more, hend⟩
      · cases hend
      · exact absurd (List.cons.inj hend).1 hc

/-! ### Texts in parentheses -/

/-- A carriage return has no slashes in it. -/
theorem not_sameButSlashes_return : ¬ SameButSlashes [] ['\r'] := by
  rintro (h | ⟨h, -⟩)
  · cases h
  · exact absurd h.length_le (by decide)

theorem LinesAlike.sameButSlashes {taken other rest behind : List Lexeme}
    (h : LinesAlike SameButSlashes (taken ++ rest) (other ++ behind))
    (hlength : taken.length = other.length) :
    SameButSlashes (taken.flatMap Lexeme.chars) (other.flatMap Lexeme.chars) := by
  induction taken generalizing other with
  | nil =>
    obtain rfl := List.length_eq_zero_iff.mp hlength.symm
    exact .inl rfl
  | cons l ls ih =>
    cases other with
    | nil => cases hlength
    | cons m ms =>
      have hlength := Nat.succ.inj hlength
      rw [List.flatMap_cons, List.flatMap_cons]
      cases h with
      | lexeme _ _ hgap htext _ h =>
        rw [Lexeme.chars, Lexeme.chars, hgap, htext]
        exact .append (.inl rfl) (ih h hlength)
      | cut hreturn => exact absurd hreturn not_sameButSlashes_return
      | newline _ _ hgap hltext hmtext _ h =>
        rw [Lexeme.chars, Lexeme.chars, hltext, hmtext]
        exact (hgap.append (.inl rfl)).append (ih h hlength)

/-- The texts of guards and arguments are the same, or both have slashes in them. -/
theorem closeTexts_comments :
    CloseTexts SameButSlashes fun a b => SameButSlashes a.toList b.toList := by
  refine .of_cons (.inl rfl) fun l m ls ms rest behind h hlength _ => ?_
  rw [String.toList_ofList, String.toList_ofList]
  cases h with
  | lexeme _ _ _ htext _ h =>
    rw [htext]
    exact .append (.inl rfl) (h.sameButSlashes hlength)
  | cut hreturn => exact absurd hreturn not_sameButSlashes_return
  | newline _ _ _ hltext hmtext _ h =>
    rw [hltext, hmtext]
    exact .append (.inl rfl) (h.sameButSlashes hlength)

/-- Sources that differ in comments only are programs that are alike. -/
theorem alike_of_withoutComments {source other : String}
    (h : withoutComments source = withoutComments other) :
    (parse source).Alike (fun a b => SameButSlashes a.toList b.toList) (parse other) := by
  refine alike_parse closeTexts_comments ?_
  have hchars := congrArg String.toList h
  rw [withoutComments, withoutComments, String.toList_ofList, String.toList_ofList] at hchars
  exact linesAlike_lexFrom_comments hchars rfl (.inl ⟨rfl, rfl⟩)

/-! ### Layouts -/

section Layouts

variable {source other : String} (measure : TextMeasure) (config : LayoutConfig) (version : Nat)
  (starter : Option String)

/-- **Comments show only in parentheses.** Two sources that differ in comments only have the same
    lifelines, and the texts in their parentheses are the same or have slashes in them. The layouts
    are the same if these texts look alike. -/
theorem comments_show_only_in_parentheses (h : withoutComments source = withoutComments other) :
    (computeLayout measure config source version starter).participants =
        (computeLayout measure config other version starter).participants ∧
      List.Forall₂ (fun a b => SameButSlashes a.toList b.toList) (parse source).parenthesized
        (parse other).parenthesized ∧
      (List.Forall₂ LooksLike (parse source).parenthesized (parse other).parenthesized →
        computeLayout measure config source version starter =
          computeLayout measure config other version starter) := by
  have halike := alike_of_withoutComments h
  refine ⟨?_, halike.parenthesized, fun htexts => ?_⟩
  · rw [computeLayout_eq, computeLayout_eq]
    exact (agrees_collect halike starter).orderParticipants
  · exact computeLayout_congr (halike.of_parenthesized htexts) measure config version starter

/-- If there are no slashes in parentheses, comments do not matter. -/
theorem computeLayout_of_withoutComments (h : withoutComments source = withoutComments other)
    (hplain : ∀ text ∈ (parse source).parenthesized, ¬ HasSlashes text.toList) :
    computeLayout measure config source version starter =
      computeLayout measure config other version starter := by
  have halike := alike_of_withoutComments h
  have htexts := (List.forall₂_and_left _ _).mpr ⟨hplain, halike.parenthesized⟩
  refine computeLayout_congr (halike.of_parenthesized (htexts.imp fun a b hab => ?_)) measure config
    version starter
  obtain ⟨hslashes, heq | ⟨ha, -⟩⟩ := hab
  · rw [String.toList_injective heq]
    exact .refl b
  · exact absurd ha hslashes

end Layouts

/-- A comment behind a call is not seen. -/
theorem comment_behind_a_call_is_hidden :
    let measure := approximateMeasure defaultCharRatio
    computeLayout measure .standard "A.m(x) // one\nB.n" 0 none =
      computeLayout measure .standard "A.m(x) // two\nB.n" 0 none := by
  have hcomments : withoutComments "A.m(x) // one\nB.n" = withoutComments "A.m(x) // two\nB.n" := by
    decide +kernel
  have htexts : (parse "A.m(x) // one\nB.n").parenthesized = ["x"] ∧
      (parse "A.m(x) // two\nB.n").parenthesized = ["x"] := by
    decide +kernel
  obtain ⟨-, -, hlayouts⟩ := comments_show_only_in_parentheses
    (approximateMeasure defaultCharRatio) .standard 0 none hcomments
  refine hlayouts ?_
  rw [htexts.1, htexts.2]
  exact .cons (.refl "x") .nil

/-- A comment between two arguments is seen, although the sources differ in it only. -/
theorem comment_between_arguments_shows :
    let layout := fun source => computeLayout (approximateMeasure defaultCharRatio) .standard source 0
      none
    withoutComments "A.m(x, //c\n y)" = withoutComments "A.m(x, //\n y)" ∧
      (layout "A.m(x, //c\n y)").messages.map (·.signature) = ["m(x, //c y)"] ∧
      (layout "A.m(x, //\n y)").messages.map (·.signature) = ["m(x, // y)"] ∧
      layout "A.m(x, //c\n y)" ≠ layout "A.m(x, //\n y)" := by
  decide +kernel

end SequenceDiagram
