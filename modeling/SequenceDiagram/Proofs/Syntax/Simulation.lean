import Mathlib.Data.List.TakeWhile
import SequenceDiagram.Proofs.Source.Likeness
import SequenceDiagram.Proofs.Syntax.Progress

namespace SequenceDiagram

open Syntax

/-!
# Reading lexemes that are alike

From lexemes that are alike every reader reads trees that are alike, and leaves lexemes that are
alike.

* `Both g r x y` relates two results of a reader; there is one lemma for each reader.
* Guards and arguments may go over several lines, so how near their texts are to each other is left
  open: `CloseTexts g t` says that `t` holds of such texts.
* `alike_parse`: sources with lexemes that are alike are programs that are alike.
-/

variable {g : List Char → List Char → Prop}

/-- Two results of a reader are related, and so is what is left. -/
structure Both {α β : Type} (g : List Char → List Char → Prop) (r : α → β → Prop)
    (x : α × List Lexeme) (y : β × List Lexeme) : Prop where
  value : r x.1 y.1
  rest : Runs g x.2 y.2

/-- The relation holds of the texts of lexemes taken from two lists that are alike, unless a newline
    comes next. -/
def CloseTexts (g : List Char → List Char → Prop) (t : String → String → Prop) : Prop :=
  ∀ taken other rest behind : List Lexeme, LinesAlike g (taken ++ rest) (other ++ behind) →
    taken.length = other.length → Scan.startsWith .newline rest = false →
      t (String.ofList (Lexeme.textOf taken)) (String.ofList (Lexeme.textOf other))

/-- It is enough to look at texts that have a first lexeme. -/
theorem CloseTexts.of_cons {t : String → String → Prop} (hnil : t "" "")
    (hcons : ∀ (l m : Lexeme) (ls ms rest behind : List Lexeme),
      LinesAlike g (l :: (ls ++ rest)) (m :: (ms ++ behind)) → ls.length = ms.length →
        Scan.startsWith .newline rest = false →
          t (String.ofList (l.text ++ ls.flatMap Lexeme.chars))
            (String.ofList (m.text ++ ms.flatMap Lexeme.chars))) : CloseTexts g t := by
  intro taken other rest behind h hlength hrest
  cases taken with
  | nil =>
    obtain rfl := List.length_eq_zero_iff.mp hlength.symm
    exact hnil
  | cons l ls =>
    cases other with
    | nil => cases hlength
    | cons m ms => exact hcons l m ls ms rest behind h (Nat.succ.inj hlength) hrest

namespace Runs

variable {s u : List Lexeme}

/-! ### Single lexemes -/

theorem kind? (h : Runs g s u) : Scan.kind? s = Scan.kind? u := by
  rcases h.cases with ⟨rfl, rfl⟩ | ⟨l, ls, m, ms, rfl, rfl, hlm, -⟩
  · rfl
  · exact congrArg some hlm.kind

theorem startsWith (h : Runs g s u) (kind : LexemeKind) :
    Scan.startsWith kind s = Scan.startsWith kind u := by
  rw [Scan.startsWith, Scan.startsWith, h.kind?]

theorem word? (h : Runs g s u) : Scan.word? s = Scan.word? u := by
  rcases h.cases with ⟨rfl, rfl⟩ | ⟨l, ls, m, ms, rfl, rfl, hlm, -⟩
  · rfl
  · exact hlm.word

theorem startsWithWord (h : Runs g s u) (word : String) :
    Scan.startsWithWord word s = Scan.startsWithWord word u := by
  rw [Scan.startsWithWord, Scan.startsWithWord, h.word?]

theorem skip (h : Runs g s u) (kind : LexemeKind) : Runs g (Scan.skip kind s) (Scan.skip kind u) := by
  rw [Scan.skip, Scan.skip, h.startsWith]
  split
  · exact h.tail
  · exact h

theorem tokenOfKind (h : Runs g s u) (kind : LexemeKind) :
    Both g SameText (Scan.tokenOfKind kind s) (Scan.tokenOfKind kind u) := by
  rcases h.cases with ⟨rfl, rfl⟩ | ⟨l, ls, m, ms, rfl, rfl, hlm, hrest⟩
  · exact ⟨rfl, h⟩
  · rw [Scan.tokenOfKind, Scan.tokenOfKind, hlm.kind]
    split
    · exact ⟨congrArg some hlm.token, hrest⟩
    · exact ⟨rfl, h⟩

theorem isNaming {l m : Lexeme} (h : l.Alike m) : l.isNaming = m.isNaming := by
  rw [Lexeme.isNaming, Lexeme.isNaming, h.kind]

theorem name (h : Runs g s u) : Both g SameText (Scan.name s) (Scan.name u) := by
  rcases h.cases with ⟨rfl, rfl⟩ | ⟨l, ls, m, ms, rfl, rfl, hlm, hrest⟩
  · exact ⟨rfl, h⟩
  · rw [Scan.name, Scan.name, isNaming hlm]
    split
    · exact ⟨congrArg some hlm.token, hrest⟩
    · exact ⟨rfl, h⟩

/-! ### Several lexemes -/

/-- What a reader took from two lists that are alike, and what it left. -/
structure Split (g : List Char → List Char → Prop) (x y : List Lexeme × List Lexeme) : Prop where
  alike : LinesAlike g (x.1 ++ x.2) (y.1 ++ y.2)
  length : x.1.length = y.1.length
  rest : Runs g x.2 y.2

/-- A reader that looks at the kinds only takes as many lexemes of both. -/
theorem split (h : Runs g s u) {x y : List Lexeme × List Lexeme} (hx : x.1 ++ x.2 = s)
    (hy : y.1 ++ y.2 = u) (hlength : x.1.length = y.1.length) : Split g x y := by
  subst hx hy
  exact ⟨h.alike, hlength, h.of_append hlength⟩

theorem takeWhile (h : Runs g s u) (p : LexemeKind → Bool) :
    Split g (s.takeWhile (p ·.kind), s.dropWhile (p ·.kind))
      (u.takeWhile (p ·.kind), u.dropWhile (p ·.kind)) := by
  refine h.split List.takeWhile_append_dropWhile List.takeWhile_append_dropWhile ?_
  have hmap : ∀ ls : List Lexeme, (ls.takeWhile (p ·.kind)).length =
      ((ls.map (·.kind)).takeWhile p).length := fun ls => by
    rw [List.takeWhile_map, List.length_map]
    rfl
  rw [hmap, hmap, h.map_kind]

theorem skipSeparators (h : Runs g s u) :
    Runs g (Scan.skipSeparators s) (Scan.skipSeparators u) :=
  (h.takeWhile fun kind => kind = .newline || kind = .semicolon).rest

theorem skipNewlines (h : Runs g s u) : Runs g (Scan.skipNewlines s) (Scan.skipNewlines u) :=
  (h.takeWhile (· = .newline)).rest

theorem skipToWord? (h : Runs g s u) (word : String) :
    Option.Rel (Runs g) (Scan.skipToWord? word s) (Scan.skipToWord? word u) := by
  rw [Scan.skipToWord?, Scan.skipToWord?, h.skipNewlines.startsWithWord]
  split
  · exact .some h.skipNewlines.tail
  · exact .none

theorem length_takeNested (stops : LexemeKind → Bool → Bool) (depth : Nat) :
    ∀ s u : List Lexeme, s.map (·.kind) = u.map (·.kind) →
      (Scan.takeNested stops depth s).1.length = (Scan.takeNested stops depth u).1.length := by
  intro s
  induction s generalizing depth with
  | nil =>
    intro u h
    obtain rfl := List.map_eq_nil_iff.mp h.symm
    rfl
  | cons l ls ih =>
    intro u h
    cases u with
    | nil => cases h
    | cons m ms =>
      obtain ⟨hkind, hrest⟩ := List.cons.inj h
      unfold Scan.takeNested
      rw [show l.kind = m.kind from hkind]
      split
      · rfl
      · split
        · rfl
        · exact congrArg (· + 1) (ih _ _ hrest)
        · exact congrArg (· + 1) (ih _ _ hrest)
        · exact congrArg (· + 1) (ih _ _ hrest)

theorem takeNested (h : Runs g s u) (stops : LexemeKind → Bool → Bool) (depth : Nat) :
    Split g (Scan.takeNested stops depth s) (Scan.takeNested stops depth u) :=
  h.split (Scan.takeNested_append ..) (Scan.takeNested_append ..)
    (length_takeNested stops depth s u h.map_kind)

theorem length_balanced (depth : Nat) : ∀ s u : List Lexeme, s.map (·.kind) = u.map (·.kind) →
    (Scan.balanced depth s).1.length = (Scan.balanced depth u).1.length := by
  intro s
  induction s generalizing depth with
  | nil =>
    intro u h
    obtain rfl := List.map_eq_nil_iff.mp h.symm
    rfl
  | cons l ls ih =>
    intro u h
    cases u with
    | nil => cases h
    | cons m ms =>
      obtain ⟨hkind, hrest⟩ := List.cons.inj h
      unfold Scan.balanced
      rw [show l.kind = m.kind from hkind]
      split
      · rfl
      · rfl
      · rfl
      · exact congrArg (· + 1) (ih _ _ hrest)
      · exact congrArg (· + 1) (ih _ _ hrest)
      · exact congrArg (· + 1) (ih _ _ hrest)

theorem balanced (h : Runs g s u) (depth : Nat) :
    Split g (Scan.balanced depth s) (Scan.balanced depth u) :=
  h.split (Scan.balanced_append ..) (Scan.balanced_append ..)
    (length_balanced depth s u h.map_kind)

/-- A text in one line is displayed in the same way. -/
theorem Split.display {x y : List Lexeme × List Lexeme} (h : Split g x y)
    (hline : ∀ l ∈ x.1, l.kind ≠ .newline) :
    displayText (String.ofList (Lexeme.textOf x.1)) =
      displayText (String.ofList (Lexeme.textOf y.1)) := h.alike.display h.length hline

/-- A text in one line is displayed in the same way, if there is one. -/
theorem Split.sameDisplay {x y : List Lexeme × List Lexeme} (h : Split g x y)
    (hline : ∀ l ∈ x.1, l.kind ≠ .newline) (stop stop' : Span) :
    SameDisplay (Scan.tokenUnlessEmpty stop x.1 x.2) (Scan.tokenUnlessEmpty stop' y.1 y.2) := by
  unfold Scan.tokenUnlessEmpty
  by_cases hnil : x.1 = []
  · have hother : y.1 = [] := List.length_eq_zero_iff.mp (by rw [← h.length, hnil]; rfl)
    rw [if_pos hnil, if_pos hother]
    rfl
  · have hother : y.1 ≠ [] := fun hy => hnil (List.length_eq_zero_iff.mp (by rw [h.length, hy]; rfl))
    rw [if_neg hnil, if_neg hother]
    exact congrArg some (h.display hline)

/-! ### The head -/

section Head

variable (stop stop' : Span)

theorem starter (h : Runs g s u) :
    Both g Starter.Alike (Head.starter stop s) (Head.starter stop' u) :=
  have hname := (h.drop 3).name
  ⟨hname.value, hname.rest.skip _⟩

theorem participantType (h : Runs g s u) :
    Both g SameText (Head.participantType s) (Head.participantType u) := by
  unfold Head.participantType
  rw [h.startsWith, h.tail.startsWith]
  split
  · exact h.tail.name
  · exact ⟨rfl, h⟩

theorem stereotype (h : Runs g s u) :
    Both g SameDisplay (Head.stereotype stop s) (Head.stereotype stop' u) := by
  have hsplit := h.tail.takeWhile fun kind => kind ≠ .closeStereotype && kind ≠ .newline
  unfold Head.stereotype
  rw [h.startsWith]
  split
  · refine ⟨congrArg some (hsplit.display fun l hl => ?_), hsplit.rest.skip _⟩
    have := List.mem_takeWhile_imp hl
    simp only [Bool.and_eq_true, decide_eq_true_eq] at this
    exact this.2
  · exact ⟨rfl, h⟩

theorem label (h : Runs g s u) : Both g SameText (Head.label s) (Head.label u) := by
  unfold Head.label
  rw [h.startsWithWord]
  split
  · exact h.tail.name
  · exact ⟨rfl, h⟩

theorem declaration (h : Runs g s u) :
    Both g Declaration.Alike (Head.declaration stop s) (Head.declaration stop' u) :=
  have htype := h.participantType
  have hstereotype := htype.rest.stereotype stop stop'
  have hname := hstereotype.rest.name
  have hlabel := hname.rest.label
  have hcolor := hlabel.rest.tokenOfKind .color
  have hwidth := hcolor.rest.tokenOfKind .number
  ⟨⟨hname.value, htype.value, hstereotype.value, hlabel.value, hcolor.value, hwidth.value⟩,
    hwidth.rest⟩

theorem atDeclaration (h : Runs g s u) : Head.atDeclaration s = Head.atDeclaration u := by
  have hfollow : Head.canFollowName s.tail = Head.canFollowName u.tail := by
    unfold Head.canFollowName
    rw [h.tail.kind?, h.tail.startsWithWord, h.tail.tail.startsWith]
  unfold Head.atDeclaration
  rw [h.kind?, h.word?, h.tail.word?, hfollow]

theorem members (h : Runs g s u) (fuel : Nat) :
    Both g (List.Forall₂ Declaration.Alike) (Head.members stop fuel s)
      (Head.members stop' fuel u) := by
  induction fuel generalizing s u with
  | zero => exact ⟨.nil, h⟩
  | succ fuel ih =>
    have hskip := h.skipSeparators
    have hnil : decide (Scan.skipSeparators s = []) = decide (Scan.skipSeparators u = []) :=
      decide_eq_decide.mpr hskip.alike.nil_iff
    unfold Head.members
    dsimp only
    rw [hnil, hskip.startsWith, hskip.atDeclaration]
    split
    · exact ⟨.nil, hskip⟩
    · split
      · have hfirst := hskip.declaration stop stop'
        have hothers := ih hfirst.rest
        exact ⟨.cons hfirst.value hothers.value, hothers.rest⟩
      · exact ih hskip.tail

theorem group (h : Runs g s u) :
    Both g Group.Alike (Head.group stop s) (Head.group stop' u) := by
  have hname := h.tail.tokenOfKind .name
  have hopen := hname.rest.skip .openBrace
  have hmembers := hopen.members stop stop'
  unfold Head.group
  dsimp only
  rw [hopen.length_eq]
  have hall := hmembers ((Scan.skip .openBrace (Scan.tokenOfKind .name u.tail).2).length + 1)
  exact ⟨⟨hname.value, hall.value⟩, hall.rest.skip _⟩

theorem entries (h : Runs g s u) (fuel : Nat) {x y : Syntax.Head} (hxy : x.Alike y) :
    Both g Head.Alike (Head.entries stop fuel x s) (Head.entries stop' fuel y u) := by
  induction fuel generalizing s u x y with
  | zero => exact ⟨hxy, h⟩
  | succ fuel ih =>
    have hskip := h.skipSeparators
    have hstarter : Head.atStarter (Scan.skipSeparators s) =
        Head.atStarter (Scan.skipSeparators u) := by
      unfold Head.atStarter
      rw [hskip.startsWith, hskip.tail.word?, (hskip.drop 2).startsWith]
    have hgroup : Head.atGroup (Scan.skipSeparators s) =
        Head.atGroup (Scan.skipSeparators u) := by
      unfold Head.atGroup
      rw [hskip.startsWithWord, hskip.tail.startsWith, hskip.tail.startsWith,
        (hskip.drop 2).startsWith]
    unfold Head.entries
    dsimp only
    rw [hstarter, hgroup, hskip.atDeclaration]
    split
    · have hread := hskip.starter stop stop'
      exact ih hread.rest ⟨hxy.items, .some hread.value⟩
    · split
      · have hread := hskip.group stop stop'
        exact ih hread.rest
          ⟨List.rel_append hxy.items (.cons (.group hread.value) .nil), hxy.starter⟩
      · split
        · have hread := hskip.declaration stop stop'
          exact ih hread.rest
            ⟨List.rel_append hxy.items (.cons (.participant hread.value) .nil), hxy.starter⟩
        · exact ⟨hxy, hskip⟩

theorem head (h : Runs g s u) : Both g (Option.Rel Head.Alike) (Head.ofLexemes stop s)
    (Head.ofLexemes stop' u) := by
  have hentries := h.entries stop stop' (s.length + 1) (x := ⟨[], none⟩) (y := ⟨[], none⟩)
    ⟨.nil, .none⟩
  have hempty : ∀ {x y : Syntax.Head}, x.Alike y →
      (x.items.isEmpty && x.starter.isNone) = (y.items.isEmpty && y.starter.isNone) := by
    intro x y hxy
    have hitems : x.items.isEmpty = y.items.isEmpty := by
      rw [Bool.eq_iff_iff, List.isEmpty_iff_length_eq_zero, List.isEmpty_iff_length_eq_zero,
        hxy.items.length_eq]
    rcases rel_cases hxy.starter with ⟨hx, hy⟩ | ⟨a, b, hx, hy, -⟩ <;> rw [hitems, hx, hy]
    rfl
  unfold Head.ofLexemes
  rw [← h.length_eq]
  refine ⟨?_, hentries.rest⟩
  dsimp only
  rw [hempty hentries.value]
  split
  · exact .none
  · exact .some hentries.value

end Head

/-! ### Parts of statements -/

section Statements

variable (stop stop' : Span)

theorem content (h : Runs g s u) :
    Both g SameDisplay (Statements.content stop s) (Statements.content stop' u) := by
  have hsplit := h.tail.takeNested
    (fun kind top => kind = .newline || (false && top && kind = .semicolon)) 0
  unfold Statements.content
  rw [h.startsWith]
  split
  · exact ⟨hsplit.sameDisplay (Scan.restOfLine_line false s.tail) stop stop', hsplit.rest⟩
  · exact ⟨rfl, h⟩

theorem assignment (h : Runs g s u) :
    Both g (Option.Rel Assignment.Alike) (Statements.assignment s) (Statements.assignment u) := by
  unfold Statements.assignment
  rw [h.startsWith, h.tail.startsWith, h.tail.startsWith, (h.drop 2).startsWith, h.startsWithWord]
  split
  · exact ⟨.some ⟨h.tail.name.value, h.name.value⟩, h.drop 3⟩
  · split
    · exact ⟨.some ⟨h.name.value, rfl⟩, h.drop 2⟩
    · exact ⟨.none, h⟩

theorem referenceNames (h : Runs g s u) :
    Both g (fun x y : List Token => x.map (·.text) = y.map (·.text))
      (Statements.referenceNames s) (Statements.referenceNames u) := by
  induction s generalizing u with
  | nil =>
    obtain rfl := h.alike.nil_iff.mp rfl
    exact ⟨rfl, h⟩
  | cons l ls ih =>
    obtain ⟨m, ms, rfl, hlm, -⟩ := h.alike.of_cons
    have hothers := ih (show Runs g ls ms from h.tail)
    unfold Statements.referenceNames
    rw [hlm.kind]
    split
    · exact ⟨rfl, h.tail⟩
    · exact ⟨rfl, h⟩
    · exact ⟨rfl, h⟩
    · refine ⟨?_, hothers.rest⟩
      dsimp only
      rw [isNaming hlm]
      split
      · rw [List.map_cons, List.map_cons, hothers.value, hlm.token]
      · exact hothers.value

section Texts

variable {t : String → String → Prop} (ht : CloseTexts g t)

include ht

/-- What stands in parentheses, up to the closing one. -/
theorem parentheses (h : Runs g s u) :
    t (String.ofList (Lexeme.textOf (Scan.balanced 0 s.tail).1))
      (String.ofList (Lexeme.textOf (Scan.balanced 0 u.tail).1)) := by
  have hsplit := h.tail.balanced 0
  exact ht _ _ _ _ hsplit.alike hsplit.length (Scan.balanced_stops 0 s.tail)

theorem condition (h : Runs g s u) :
    Both g (Option.Rel (Condition.Alike t)) (Statements.condition stop s)
      (Statements.condition stop' u) := by
  unfold Statements.condition
  rw [h.startsWith]
  split
  · exact ⟨.some (parentheses ht h), (h.tail.balanced 0).rest.skip _⟩
  · exact ⟨.none, h⟩

theorem arguments (h : Runs g s u) :
    Both g (Option.Rel (Arguments.Alike t)) (Statements.arguments stop s)
      (Statements.arguments stop' u) := by
  unfold Statements.arguments
  rw [h.startsWith]
  split
  · exact ⟨.some (parentheses ht h), (h.tail.balanced 0).rest.skip _⟩
  · exact ⟨.none, h⟩

/-! ### Constructs without inner blocks -/

omit ht in
theorem ret (h : Runs g s u) :
    Both g (Construct.Alike t) (Statements.ret stop s) (Statements.ret stop' u) :=
  have hsplit := h.tail.takeNested
    (fun kind top => kind = .newline || (true && top && kind = .semicolon)) 0
  ⟨.ret ⟨hsplit.sameDisplay (Scan.restOfLine_line true s.tail) stop stop', .none⟩, hsplit.rest⟩

omit ht in
theorem annotatedReturn (h : Runs g s u) :
    Both g (Construct.Alike t) (Statements.annotatedReturn stop s)
      (Statements.annotatedReturn stop' u) :=
  have hsender := (h.drop 2).name
  have hreceiver := (hsender.rest.skip .arrow).name
  have hcontent := hreceiver.rest.content stop stop'
  ⟨.ret ⟨rfl, .some ⟨hsender.value, hreceiver.value, hcontent.value⟩⟩, hcontent.rest⟩

omit ht in
theorem divider (h : Runs g s u) :
    Both g (Construct.Alike t) (Statements.divider stop s) (Statements.divider stop' u) := by
  have hsplit := h.tail.takeWhile fun kind => kind ≠ .doubleEqual && kind ≠ .newline
  refine ⟨.divider (hsplit.sameDisplay (fun l hl => ?_) stop stop'), hsplit.rest.skip _⟩
  have := List.mem_takeWhile_imp hl
  simp only [Bool.and_eq_true, decide_eq_true_eq] at this
  exact this.2

omit ht in
theorem reference (h : Runs g s u) :
    Both g (Construct.Alike t) (Statements.reference stop s) (Statements.reference stop' u) :=
  have hnames := (h.drop 2).referenceNames
  ⟨.reference hnames.value, hnames.rest⟩

/-! ### Constructs with inner blocks -/

variable {body other : List Lexeme → List Statement × List Lexeme}
  (hbody : ∀ s u, Runs g s u → Both g (Statements.Alike t) (body s) (other u))

include hbody

omit ht in
theorem block (h : Runs g s u) :
    Both g (Block.Alike t) (Statements.block stop body s) (Statements.block stop' other u) := by
  have hinner := hbody _ _ h.tail
  unfold Statements.block
  rw [h.startsWith]
  split
  · exact ⟨.present hinner.value, hinner.rest.skip _⟩
  · exact ⟨.missing, h⟩

theorem branch (h : Runs g s u) (role : BranchRole) {bs cs : List Branch} :
    Branches.Alike t bs cs → Branches.Alike t
      ((Statements.branch stop body role s).1 :: bs) ((Statements.branch stop' other role u).1 :: cs) :=
  have hguard := h.condition stop stop' ht
  have hinner := hguard.rest.block stop stop' hbody
  .cons hguard.value hinner.value

theorem branch_rest (h : Runs g s u) (role : BranchRole) :
    Runs g (Statements.branch stop body role s).2 (Statements.branch stop' other role u).2 :=
  ((h.condition stop stop' ht).rest.block stop stop' hbody).rest

omit ht in
theorem unguardedBranch (h : Runs g s u) (role : BranchRole) :
    Both g (Branches.Alike t) (Statements.unguardedBranch stop body role s)
      (Statements.unguardedBranch stop' other role u) := by
  have hinner := h.block stop stop' hbody
  unfold Statements.unguardedBranch
  refine ⟨?_, hinner.rest⟩
  dsimp only
  rw [hinner.value.isPresent]
  split
  · exact .cons .none hinner.value .nil
  · exact .nil

theorem elseBranches (h : Runs g s u) (fuel : Nat) :
    Both g (Branches.Alike t) (Statements.elseBranches stop body fuel s)
      (Statements.elseBranches stop' other fuel u) := by
  induction fuel generalizing s u with
  | zero => exact ⟨.nil, h⟩
  | succ fuel ih =>
    unfold Statements.elseBranches
    rcases rel_cases (h.skipToWord? "else") with ⟨hs, hu⟩ | ⟨r, q, hs, hu, hrest⟩
    · rw [hs, hu]
      exact ⟨.nil, h⟩
    · rw [hs, hu]
      dsimp only
      rw [hrest.startsWithWord]
      split
      · have hothers := ih (hrest.tail.branch_rest stop stop' ht hbody .furtherCondition)
        exact ⟨hrest.tail.branch stop stop' ht hbody _ hothers.value, hothers.rest⟩
      · exact hrest.unguardedBranch stop stop' hbody _

theorem catchBranches (h : Runs g s u) (fuel : Nat) :
    Both g (Branches.Alike t) (Statements.catchBranches stop body fuel s)
      (Statements.catchBranches stop' other fuel u) := by
  induction fuel generalizing s u with
  | zero => exact ⟨.nil, h⟩
  | succ fuel ih =>
    unfold Statements.catchBranches
    rcases rel_cases (h.skipToWord? "catch") with ⟨hs, hu⟩ | ⟨r, q, hs, hu, hrest⟩
    · rw [hs, hu]
      exact ⟨.nil, h⟩
    · rw [hs, hu]
      have hothers := ih (hrest.branch_rest stop stop' ht hbody .handler)
      exact ⟨hrest.branch stop stop' ht hbody _ hothers.value, hothers.rest⟩

omit ht in
theorem finallyBranch (h : Runs g s u) :
    Both g (Branches.Alike t) (Statements.finallyBranch stop body s)
      (Statements.finallyBranch stop' other u) := by
  unfold Statements.finallyBranch
  rcases rel_cases (h.skipToWord? "finally") with ⟨hs, hu⟩ | ⟨r, q, hs, hu, hrest⟩
  · rw [hs, hu]
    exact ⟨.nil, h⟩
  · rw [hs, hu]
    exact hrest.unguardedBranch stop stop' hbody _

theorem alternative (h : Runs g s u) :
    Both g (Construct.Alike t) (Statements.alternative stop body s)
      (Statements.alternative stop' other u) := by
  have hfirst := h.tail.branch_rest stop stop' ht hbody .condition
  have hothers := hfirst.elseBranches stop stop' ht hbody
    ((Statements.branch stop body .condition s.tail).2.length + 1)
  unfold Statements.alternative
  dsimp only
  rw [← hfirst.length_eq]
  exact ⟨.block (h.tail.branch stop stop' ht hbody _ hothers.value), hothers.rest⟩

theorem tryCatch (h : Runs g s u) :
    Both g (Construct.Alike t) (Statements.tryCatch stop body s)
      (Statements.tryCatch stop' other u) := by
  have hattempt := h.tail.block stop stop' hbody
  have hhandlers := hattempt.rest.catchBranches stop stop' ht hbody
    ((Statements.block stop body s.tail).2.length + 1)
  have hcleanup := hhandlers.rest.finallyBranch stop stop' hbody
  unfold Statements.tryCatch
  dsimp only
  rw [← hattempt.rest.length_eq]
  exact ⟨.block (.cons .none hattempt.value (hhandlers.value.append hcleanup.value)),
    hcleanup.rest⟩

theorem guarded (h : Runs g s u) (kind : BlockKind) :
    Both g (Construct.Alike t) (Statements.guarded stop body kind s)
      (Statements.guarded stop' other kind u) :=
  ⟨.block (h.tail.branch stop stop' ht hbody .body .nil),
    h.tail.branch_rest stop stop' ht hbody .body⟩

omit ht in
theorem unguarded (h : Runs g s u) (kind : BlockKind) :
    Both g (Construct.Alike t) (Statements.unguarded stop body kind s)
      (Statements.unguarded stop' other kind u) :=
  have hinner := h.tail.block stop stop' hbody
  ⟨.block (.cons .none hinner.value .nil), hinner.rest⟩

theorem creation {r q : List Lexeme} (h : Runs g r q) {a b : Option Assignment}
    (hab : Option.Rel Assignment.Alike a b) :
    Both g (Construct.Alike t) (Statements.creation stop body s a r)
      (Statements.creation stop' other u b q) :=
  have hname := h.tail.name
  have harguments := hname.rest.arguments stop stop' ht
  have hinner := harguments.rest.block stop stop' hbody
  ⟨.creation ⟨hab, hname.value, harguments.value⟩ hinner.value, hinner.rest⟩

theorem call {r q : List Lexeme} (h : Runs g r q) {a b : Option Assignment}
    {sender sender' receiver receiver' method method' : Option Token}
    (hab : Option.Rel Assignment.Alike a b) (hsender : SameText sender sender')
    (hreceiver : SameText receiver receiver') (hmethod : SameText method method') :
    Both g (Construct.Alike t) (Statements.call stop body s a sender receiver method r)
      (Statements.call stop' other u b sender' receiver' method' q) :=
  have harguments := h.arguments stop stop' ht
  have hinner := harguments.rest.block stop stop' hbody
  ⟨.call ⟨hsender, hreceiver, hmethod, harguments.value, hab⟩ hinner.value, hinner.rest⟩

theorem message {r q : List Lexeme} (h : Runs g r q) {a b : Option Assignment} {first first' : Token}
    (hab : Option.Rel Assignment.Alike a b) (hfirst : first.text = first'.text) :
    Both g (Construct.Alike t) (Statements.message stop body s a first r)
      (Statements.message stop' other u b first' q) := by
  have hfirst : SameText (some first) (some first') := congrArg some hfirst
  have hname := h.tail.name
  unfold Statements.message
  rw [h.startsWith, h.startsWith]
  split
  · -- behind an arrow: a call, or an asynchronous message
    have hmethod := hname.rest.tail.name
    have hcontent := hname.rest.content stop stop'
    dsimp only
    rw [hname.rest.startsWith]
    split
    · exact hmethod.rest.call stop stop' ht hbody hab hfirst hname.value hmethod.value
    · exact ⟨.asyncMessage ⟨hfirst, hname.value, hcontent.value⟩, hcontent.rest⟩
  · split
    · exact hname.rest.call stop stop' ht hbody hab rfl hfirst hname.value
    · exact h.call stop stop' ht hbody hab rfl rfl hfirst

theorem interaction (h : Runs g s u) :
    Both g (Option.Rel (Construct.Alike t)) (Statements.interaction stop body s)
      (Statements.interaction stop' other u) := by
  have hassignment := h.assignment
  have hname := hassignment.rest.name
  unfold Statements.interaction
  dsimp only
  rw [hassignment.rest.startsWithWord]
  split
  · have hcreation := hassignment.rest.creation stop stop' ht hbody hassignment.value
      (s := s) (u := u)
    exact ⟨.some hcreation.value, hcreation.rest⟩
  · have hpair : ∀ r : List Lexeme, Scan.name r = ((Scan.name r).1, (Scan.name r).2) := fun _ => rfl
    rcases SameText.cases hname.value with ⟨hs, hu⟩ | ⟨x, y, hs, hu, htext⟩
    · -- without a name, only an assignment can be left of the statement
      rw [hpair, hs, hpair (Statements.assignment u).2, hu]
      refine ⟨?_, hname.rest⟩
      dsimp only
      rcases rel_cases hassignment.value with ⟨hs, hu⟩ | ⟨a, b, hs, hu, hab⟩
      · rw [hs, hu]
        exact .none
      · rw [hs, hu]
        exact .some (.call ⟨rfl, rfl, rfl, .none, .some hab⟩ .missing)
    · rw [hpair, hs, hpair (Statements.assignment u).2, hu]
      have hmessage := hname.rest.message stop stop' ht hbody hassignment.value htext
        (s := s) (u := u)
      exact ⟨.some hmessage.value, hmessage.rest⟩

/-- The results of a keyword, if it is one here. -/
theorem keywordConstruct? (h : Runs g s u) (word : String) :
    Option.Rel (Both g (Construct.Alike t)) (Statements.keywordConstruct? stop body s word)
      (Statements.keywordConstruct? stop' other u word) := by
  unfold Statements.keywordConstruct?
  rw [h.tail.startsWith]
  -- one case for each keyword
  split
  · exact .some (h.alternative stop stop' ht hbody)
  · split
    · exact .some (h.guarded stop stop' ht hbody _)
    · split
      · exact .some (h.unguarded stop stop' hbody _)
      · split
        · exact .some (h.unguarded stop stop' hbody _)
        · split
          · exact .some (h.guarded stop stop' ht hbody _)
          · split
            · exact .some (h.guarded stop stop' ht hbody _)
            · split
              · exact .some (h.tryCatch stop stop' ht hbody)
              · split
                · exact .some (h.reference stop stop')
                · split
                  · exact .some (h.ret stop stop')
                  · exact .none

theorem construct? (h : Runs g s u) :
    Both g (Option.Rel (Construct.Alike t)) (Statements.construct? stop body s)
      (Statements.construct? stop' other u) := by
  have hinteraction := h.interaction stop stop' ht hbody
  have hkeyword : Option.Rel (Both g (Construct.Alike t))
      ((Scan.word? s).bind (Statements.keywordConstruct? stop body s))
      ((Scan.word? u).bind (Statements.keywordConstruct? stop' other u)) := by
    rw [h.word?]
    cases Scan.word? u with
    | none => exact .none
    | some word => exact h.keywordConstruct? stop stop' ht hbody word
  unfold Statements.construct?
  rw [h.kind?]
  split
  · have hread := h.divider stop stop' (t := t)
    exact ⟨.some hread.value, hread.rest⟩
  · rw [h.tail.startsWithWord]
    split
    · have hread := h.annotatedReturn stop stop' (t := t)
      exact ⟨.some hread.value, hread.rest⟩
    · exact ⟨.none, h⟩
  · rcases rel_cases hkeyword with ⟨hs, hu⟩ | ⟨x, y, hs, hu, hread⟩
    · rw [hs, hu]
      exact hinteraction
    · rw [hs, hu]
      exact ⟨.some hread.value, hread.rest⟩
  · exact hinteraction
  · exact ⟨.none, h⟩

end Texts

end Statements

end Runs

/-! ### Where statements stand -/

/-- What takes a first lexeme stands where that stands. -/
theorem StandFrom.samePlace_spanUpTo {p : Position} {l : Lexeme} {ls rest : List Lexeme}
    (h : StandFrom p (l :: ls)) (hrest : rest <:+ ls) (stop : Span) :
    (Scan.spanUpTo stop (l :: ls) rest).SamePlace l.span := by
  obtain ⟨front, rfl⟩ := hrest
  have hfront : StandFrom p (l :: front) := (standFrom_append.mp h).1
  rw [Scan.spanUpTo, show l :: (front ++ rest) = (l :: front) ++ rest from rfl, Scan.upTo_append,
    hfront.spanOf_eq, h.2.1]
  exact ⟨rfl, rfl⟩

/-- What takes a first lexeme of both stands in the same place, unless that is a newline. -/
theorem Runs.samePlace_spanUpTo {l m : Lexeme} {ls ms rest behind : List Lexeme}
    (h : Runs g (l :: ls) (m :: ms)) (hl : l.kind ≠ .newline) (hrest : rest <:+ ls)
    (hbehind : behind <:+ ms) (stop stop' : Span) :
    (Scan.spanUpTo stop (l :: ls) rest).SamePlace (Scan.spanUpTo stop' (m :: ms) behind) := by
  obtain ⟨p, hp⟩ := h.stand
  obtain ⟨q, hq⟩ := h.stand'
  have hplace := h.alike.samePlace hl
  have hfirst := hp.samePlace_spanUpTo hrest stop
  have hsecond := hq.samePlace_spanUpTo hbehind stop'
  exact ⟨hfirst.1.trans (hplace.1.trans hsecond.1.symm),
    hfirst.2.trans (hplace.2.trans hsecond.2.symm)⟩

section Spans

variable (stop : Span) (body : List Lexeme → List Statement × List Lexeme)

theorem span_message (s : List Lexeme) (a : Option Assignment) (first : Token) (r : List Lexeme) :
    (Statements.message stop body s a first r).1.span =
      Scan.spanUpTo stop s (Statements.message stop body s a first r).2 := by
  unfold Statements.message
  split
  · dsimp only
    split <;> rfl
  · split <;> rfl

theorem span_interaction (s : List Lexeme) : ∀ c ∈ (Statements.interaction stop body s).1,
    c.span = Scan.spanUpTo stop s (Statements.interaction stop body s).2 := by
  unfold Statements.interaction
  dsimp only
  split
  · rintro c ⟨⟩
    rfl
  · split
    · rintro c ⟨⟩
      exact span_message stop body s _ _ _
    · intro c hc
      obtain ⟨a, -, rfl⟩ := Option.map_eq_some_iff.mp hc
      rfl

theorem span_keywordConstruct? (s : List Lexeme) (word : String) :
    ∀ r ∈ Statements.keywordConstruct? stop body s word, r.1.span = Scan.spanUpTo stop s r.2 := by
  unfold Statements.keywordConstruct?
  intro r hr
  repeat' split at hr
  all_goals cases hr
  all_goals rfl

/-- A construct spans what was taken for it. -/
theorem span_construct? (s : List Lexeme) : ∀ c ∈ (Statements.construct? stop body s).1,
    c.span = Scan.spanUpTo stop s (Statements.construct? stop body s).2 := by
  unfold Statements.construct?
  split
  · rintro c ⟨⟩
    rfl
  · split
    · rintro c ⟨⟩
      rfl
    · exact fun c hc => nomatch hc
  · split
    · next construct rest hkeyword =>
      rintro c ⟨⟩
      obtain ⟨word, _, hword⟩ := Option.bind_eq_some_iff.mp hkeyword
      exact span_keywordConstruct? stop body s word _ hword
    · exact span_interaction stop body s
  · exact span_interaction stop body s
  · exact fun c hc => nomatch hc

end Spans

/-! ### Statements -/

namespace Runs

section Bodies

variable {s u : List Lexeme} (stop stop' : Span) {t : String → String → Prop}
  (ht : CloseTexts g t) {body other : List Lexeme → List Statement × List Lexeme}
  (hbody : ∀ s u, Runs g s u → Both g (Statements.Alike t) (body s) (other u))
  (hsuffix : ∀ s, (body s).2 <:+ s) (hsuffix' : ∀ s, (other s).2 <:+ s)

include ht hbody hsuffix hsuffix'

theorem statement {l m : Lexeme} {ls ms : List Lexeme} (h : Runs g (l :: ls) (m :: ms))
    (hseparator : l.isSeparator = false) (hbrace : l.kind ≠ .closeBrace) :
    Both g (Statement.Alike t) (Statements.statement stop body (l :: ls))
      (Statements.statement stop' other (m :: ms)) := by
  have hkind : l.kind = m.kind := (List.cons.inj h.map_kind).1
  have hline : l.kind ≠ .newline := by
    simp only [Lexeme.isSeparator, Bool.or_eq_false_iff, decide_eq_false_iff_not] at hseparator
    exact hseparator.1
  have hread := h.construct? stop stop' ht hbody
  have hpair : ∀ x : Option Construct × List Lexeme, x = (x.1, x.2) := fun _ => rfl
  unfold Statements.statement
  rcases rel_cases hread.value with ⟨hs, hu⟩ | ⟨c, d, hs, hu, hcd⟩
  · -- nothing was understood, so the rest of the statement is skipped
    rw [hpair (Statements.construct? stop body (l :: ls)), hs, construct?_none stop _ hs,
      hpair (Statements.construct? stop' other (m :: ms)), hu, construct?_none stop' _ hu]
    have hsplit := h.takeNested (fun kind top => top && (kind = .newline || kind = .semicolon)) 0
    have hseparator' : m.isSeparator = false := by
      rw [← hseparator, Lexeme.isSeparator, Lexeme.isSeparator, hkind]
    refine ⟨.unrecognized (h.samePlace_spanUpTo hline ?_ ?_ stop stop'), hsplit.rest⟩
    · exact Scan.restOfStatement_cons hseparator hbrace
    · exact Scan.restOfStatement_cons hseparator' (hkind ▸ hbrace)
  · have hspan := span_construct? stop body (l :: ls) c hs
    have hspan' := span_construct? stop' other (m :: ms) d hu
    have hplace := h.samePlace_spanUpTo hline (reads_construct? stop hsuffix _ c hs).suffix
      (reads_construct? stop' hsuffix' _ d hu).suffix stop stop'
    rw [hpair (Statements.construct? stop body (l :: ls)), hs,
      hpair (Statements.construct? stop' other (m :: ms)), hu]
    refine ⟨.recognized hcd ?_ hplace, hread.rest⟩
    rw [hspan, hspan']
    exact hplace

end Bodies

theorem strayBraces {l m : Lexeme} {ls ms : List Lexeme} {t : String → String → Prop}
    (h : Runs g (l :: ls) (m :: ms)) (hbrace : l.kind = .closeBrace) (stop stop' : Span) :
    Both g (Statement.Alike t) (Statements.strayBraces stop (l :: ls))
      (Statements.strayBraces stop' (m :: ms)) := by
  have hkind : l.kind = m.kind := (List.cons.inj h.map_kind).1
  have hsplit := h.takeWhile (· = .closeBrace)
  -- a run of braces is what comes before its rest, and takes at least the first of them
  have hupTo : ∀ s : List Lexeme, s.takeWhile (·.kind = .closeBrace) =
      Scan.upTo s (s.dropWhile (·.kind = .closeBrace)) := by
    intro s
    have happend := Scan.upTo_append (s.takeWhile (·.kind = .closeBrace))
      (s.dropWhile (·.kind = .closeBrace))
    rw [List.takeWhile_append_dropWhile] at happend
    exact happend.symm
  have hsuffix : ∀ (l : Lexeme) (ls : List Lexeme), l.kind = .closeBrace →
      (l :: ls).dropWhile (·.kind = .closeBrace) <:+ ls := by
    intro l ls hl
    rw [List.dropWhile_cons_of_pos (by simp [hl])]
    exact List.dropWhile_suffix _
  refine ⟨.unrecognized ?_, hsplit.rest⟩
  unfold Scan.tokenOf
  dsimp only
  rw [hupTo, hupTo (m :: ms)]
  exact h.samePlace_spanUpTo (by rw [hbrace]; decide) (hsuffix l ls hbrace)
    (hsuffix m ms (hkind ▸ hbrace)) stop stop'

/-- **Lists of statements that are alike.** -/
theorem statements {s u : List Lexeme} (stop stop' : Span) {t : String → String → Prop}
    (ht : CloseTexts g t) (h : Runs g s u) (nested : Bool) (fuel : Nat) :
    Both g (Statements.Alike t) (Statements.ofLexemes stop nested fuel s)
      (Statements.ofLexemes stop' nested fuel u) := by
  induction fuel generalizing nested s u with
  | zero => exact ⟨.nil, h⟩
  | succ fuel ih =>
    have hskip := h.skipSeparators
    unfold Statements.ofLexemes
    dsimp only
    rcases hskip.cases with ⟨hs, hu⟩ | ⟨l, ls, m, ms, hs, hu, hlm, -⟩
    · rw [hs, hu] at hskip ⊢
      exact ⟨.nil, hskip⟩
    · have hseparator := Scan.isSeparator_head hs
      rw [hs, hu] at hskip ⊢
      rw [show Scan.kind? (l :: ls) = some l.kind from rfl,
        show Scan.kind? (m :: ms) = some l.kind from congrArg some hlm.kind.symm]
      dsimp only
      split
      · exact ⟨.nil, hskip⟩
      · have hfirst : Both g (Statement.Alike t)
            (if l.kind = .closeBrace then Statements.strayBraces stop (l :: ls)
              else Statements.statement stop (Statements.ofLexemes stop true fuel) (l :: ls))
            (if l.kind = .closeBrace then Statements.strayBraces stop' (m :: ms)
              else Statements.statement stop' (Statements.ofLexemes stop' true fuel) (m :: ms)) := by
          split
          · next hbrace => exact hskip.strayBraces hbrace stop stop'
          · next hbrace =>
            exact hskip.statement stop stop' ht (fun s u h => ih h true)
              (Statements.ofLexemes_suffix stop true fuel)
              (Statements.ofLexemes_suffix stop' true fuel) hseparator hbrace
        have hothers := ih hfirst.rest nested
        exact ⟨.cons hfirst.value hothers.value, hothers.rest⟩

end Runs

/-! ### Programs -/

/-- **Sources with lexemes that are alike are programs that are alike.** -/
theorem alike_parse {t : String → String → Prop} (ht : CloseTexts g t) {source other : String}
    (h : LinesAlike g (lex source) (lex other)) : (parse source).Alike t (parse other) := by
  have hruns : Runs g (lex source) (lex other) :=
    ⟨h, ⟨_, standFrom_lex source⟩, ⟨_, standFrom_lex other⟩⟩
  have hskip := hruns.skipSeparators
  have hhead := hskip.head (endOfInput source (lex source)) (endOfInput other (lex other))
  have hstatements := hhead.rest.statements (endOfInput source (lex source))
    (endOfInput other (lex other)) ht false
  refine ⟨hhead.value, ?_⟩
  unfold Program.statements parse
  dsimp only [Block.statements]
  rw [hhead.rest.length_eq]
  exact (hstatements _).value

end SequenceDiagram
