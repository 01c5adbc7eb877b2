import SequenceDiagram.Proofs.Syntax.Tiling

namespace SequenceDiagram

open Syntax

/-!
# What groups are read from

Inside the braces of a group everything that is not a declaration is passed over.

* `Grouped after body ds`: the lexemes `body` are the declarations `ds` one behind the other, with
  separators and lexemes that were passed over between them. `grouped_members`: that is what the
  members of a group are read from.
* `Group.StandsIn`: where a group stands among the lexemes of a source, and what its braces hold.
* `Grouped.covered`: a lexeme in the braces is a separator, or it lies in exactly one member, or it
  lies in none and no declaration starts there.
-/

/-! ### Declarations -/

namespace Head

variable (stop : Span)

section Parts

variable {l : Lexeme} {ls : List Lexeme}

theorem participantType_atSign (hkind : l.kind = .atSign)
    (hword : (Scan.word? ls).isSome = true) : (participantType (l :: ls)).2 <:+ ls := by
  cases ls with
  | nil => cases hword
  | cons m ms =>
    have hname : m.kind = .name := by
      by_contra hno
      simp [Scan.word?, Lexeme.word?, hno] at hword
    unfold participantType
    rw [if_pos (by simp [Scan.startsWith, Scan.kind?, hkind, hname])]
    exact Scan.name_suffix _

theorem participantType_of_ne (hkind : l.kind ≠ .atSign) :
    (participantType (l :: ls)).2 = l :: ls := by
  simp [participantType, Scan.startsWith, Scan.kind?, hkind]

theorem stereotype_openStereotype (hkind : l.kind = .openStereotype) :
    (stereotype stop (l :: ls)).2 <:+ ls := by
  unfold stereotype
  rw [if_pos (by simp [Scan.startsWith, Scan.kind?, hkind])]
  exact (Scan.skip_suffix _ _).trans (List.dropWhile_suffix _)

theorem stereotype_of_ne (hkind : l.kind ≠ .openStereotype) :
    (stereotype stop (l :: ls)).2 = l :: ls := by
  simp [stereotype, Scan.startsWith, Scan.kind?, hkind]

/-- A declaration takes the lexeme at which it starts. -/
theorem declaration_suffix_tail (h : atDeclaration (l :: ls) = true) :
    (declaration stop (l :: ls)).2 <:+ ls := by
  -- the name and what follows it take no part of the first lexeme back
  have hbehind : (declaration stop (l :: ls)).2 <:+
      (Scan.name (stereotype stop (participantType (l :: ls)).2).2).2 :=
    ((Scan.tokenOfKind_suffix .number _).trans (Scan.tokenOfKind_suffix .color _)).trans
      (label_suffix _)
  have hnaming : ∀ kind, l.kind = kind → kind ≠ .atSign → kind ≠ .openStereotype →
      l.isNaming = true → (declaration stop (l :: ls)).2 <:+ ls := by
    rintro _ rfl hat hopen hname
    rw [participantType_of_ne hat, stereotype_of_ne stop hopen, Scan.name, if_pos hname] at hbehind
    exact hbehind
  have hskipped : ∀ s, s <:+ ls → (Scan.name s).2 <:+ ls := fun s hs => (Scan.name_suffix s).trans hs
  cases hkind : l.kind with
  | atSign =>
    have hword : (Scan.word? ls).isSome = true := by
      unfold atDeclaration at h
      simp only [Scan.kind?, List.head?_cons, Option.map_some, hkind, List.tail_cons] at h
      cases hw : Scan.word? ls with
      | none => simp [hw] at h
      | some w => rfl
    exact hbehind.trans (hskipped _ ((stereotype_suffix stop _).trans
      (participantType_atSign hkind hword)))
  | openStereotype =>
    rw [participantType_of_ne (by simp [hkind])] at hbehind
    exact hbehind.trans (hskipped _ (stereotype_openStereotype stop hkind))
  | name => exact hnaming _ hkind (by simp) (by simp) (by simp [Lexeme.isNaming, hkind])
  | quoted => exact hnaming _ hkind (by simp) (by simp) (by simp [Lexeme.isNaming, hkind])
  | _ => simp [atDeclaration, Scan.kind?, hkind] at h

end Parts

end Head

/-! ### Members -/

/-- A lexeme that a group passes over, with `rest` behind it: no declaration starts there, and it
    does not close the group. -/
def PassedOver (l : Lexeme) (rest : List Lexeme) : Prop :=
  Head.atDeclaration (l :: rest) = false ∧ l.kind ≠ .closeBrace

/-- The lexemes are the declarations, with separators and lexemes that were passed over between them;
    `after` stands behind. -/
inductive Grouped (after : List Lexeme) : List Lexeme → List Declaration → Prop where
  | nil : Grouped after [] []
  | passed {l : Lexeme} {rest : List Lexeme} {ds : List Declaration}
    (hl : l.isSeparator = true ∨ PassedOver l (rest ++ after)) (h : Grouped after rest ds) :
    Grouped after (l :: rest) ds
  | member {taken rest : List Lexeme} {d : Declaration} {ds : List Declaration}
    (hne : taken ≠ []) (hspan : d.span = Scan.cover taken) (h : Grouped after rest ds) :
    Grouped after (taken ++ rest) (d :: ds)

theorem Grouped.separators {after gap body : List Lexeme} {ds : List Declaration}
    (hgap : ∀ l ∈ gap, l.isSeparator = true) (h : Grouped after body ds) :
    Grouped after (gap ++ body) ds := by
  induction gap with
  | nil => exact h
  | cons l rest ih =>
    obtain ⟨hl, hrest⟩ := List.forall_mem_cons.mp hgap
    exact .passed (.inl hl) (ih hrest)

/-- **The members of a group are read one behind the other**, up to a closing brace or the end of
    the input. -/
theorem grouped_members (stop : Span) (fuel : Nat) (s : List Lexeme) (hfuel : s.length < fuel) :
    ((Head.members stop fuel s).2 = [] ∨
        Scan.startsWith .closeBrace (Head.members stop fuel s).2 = true) ∧
      ∃ body, s = body ++ (Head.members stop fuel s).2 ∧
        Grouped (Head.members stop fuel s).2 body (Head.members stop fuel s).1 := by
  -- on the bound: a member takes at least one lexeme, and so does passing over
  induction fuel generalizing s with
  | zero => omega
  | succ fuel ih =>
    have hlen := (Scan.skipSeparators_suffix s).length_le
    have hskip : s.takeWhile Lexeme.isSeparator ++ Scan.skipSeparators s = s :=
      List.takeWhile_append_dropWhile
    have hgap : ∀ l ∈ s.takeWhile Lexeme.isSeparator, l.isSeparator = true :=
      fun _ hl => List.mem_takeWhile_imp hl
    unfold Head.members
    dsimp only
    split
    · next hend =>
      simp only [Bool.or_eq_true, decide_eq_true_eq] at hend
      have hgrouped : Grouped (Scan.skipSeparators s) (s.takeWhile Lexeme.isSeparator ++ []) [] :=
        .separators hgap .nil
      rw [List.append_nil] at hgrouped
      exact ⟨hend, _, hskip.symm, hgrouped⟩
    · next hend =>
      cases hs : Scan.skipSeparators s with
      | nil => simp [hs] at hend
      | cons l ls =>
        rw [hs] at hlen hskip hend
        rw [List.length_cons] at hlen
        split
        · next hat =>
          obtain ⟨taken, htaken⟩ := Head.declaration_suffix_tail stop hat
          have hrest : (Head.declaration stop (l :: ls)).2.length ≤ ls.length :=
            (Head.declaration_suffix_tail stop hat).length_le
          obtain ⟨hstops, body, hbody, hgrouped⟩ :=
            ih (Head.declaration stop (l :: ls)).2 (by omega)
          refine ⟨hstops, s.takeWhile Lexeme.isSeparator ++ (l :: taken ++ body), ?_,
            .separators hgap (.member (List.cons_ne_nil l taken) ?_ hgrouped)⟩
          · rw [List.append_assoc, List.append_assoc, ← hbody, List.cons_append, htaken, hskip]
          · have hall : l :: ls = (l :: taken) ++ (Head.declaration stop (l :: ls)).2 := by
              rw [List.cons_append, htaken]
            show Scan.spanUpTo stop (l :: ls) (Head.declaration stop (l :: ls)).2 = _
            generalize (Head.declaration stop (l :: ls)).2 = rest at hall
            rw [hall]
            exact Scan.spanUpTo_append stop (List.cons_ne_nil l taken) rest
        · next hno =>
          obtain ⟨hstops, body, hbody, hgrouped⟩ := ih ls (by omega)
          rw [List.tail_cons]
          refine ⟨hstops, s.takeWhile Lexeme.isSeparator ++ l :: body, ?_,
            .separators hgap (.passed (.inr ⟨?_, ?_⟩) hgrouped)⟩
          · rw [List.append_assoc, List.cons_append, ← hbody, hskip]
          · rw [← hbody]
            simpa using hno
          · intro hkind
            simp [Scan.startsWith, Scan.kind?, hkind] at hend

/-! ### Groups -/

/-- The group stands among the lexemes of a source, with `body` in its braces and `after` behind
    that. Only the end of the input can take the place of its closing brace. -/
inductive Syntax.Group.StandsIn (lexemes : List Lexeme) (g : Group) :
    List Lexeme → List Lexeme → Prop where
  | closed {before title body behind : List Lexeme} {opening closing : Lexeme}
    (hlexemes : lexemes = before ++ (title ++ opening :: (body ++ [closing])) ++ behind)
    (htitle : Scan.startsWithWord "group" title = true ∧ title.length ≤ 2)
    (hopening : opening.kind = .openBrace) (hclosing : closing.kind = .closeBrace)
    (hspan : g.span = Scan.cover (title ++ opening :: (body ++ [closing]))) :
    StandsIn lexemes g body (closing :: behind)
  | unclosed {before title body : List Lexeme} {opening : Lexeme}
    (hlexemes : lexemes = before ++ (title ++ opening :: body))
    (htitle : Scan.startsWithWord "group" title = true ∧ title.length ≤ 2)
    (hopening : opening.kind = .openBrace)
    (hspan : g.span = Scan.cover (title ++ opening :: body)) :
    StandsIn lexemes g body []

/-- Where a group comes, its members are read behind the opening brace. -/
theorem Head.exists_title {s : List Lexeme} (h : atGroup s = true) :
    ∃ title opening inner, s = title ++ opening :: inner ∧
      (Scan.startsWithWord "group" title = true ∧ title.length ≤ 2) ∧
      opening.kind = .openBrace ∧
      Scan.skip .openBrace (Scan.tokenOfKind .name s.tail).2 = inner := by
  unfold atGroup at h
  rw [Bool.and_eq_true, Bool.or_eq_true, Bool.and_eq_true] at h
  obtain ⟨hword, hbrace⟩ := h
  cases s with
  | nil => cases hword
  | cons keyword rest =>
    rcases hbrace with hbrace | ⟨hname, hbrace⟩
    · obtain ⟨opening, inner, hrest, hkind⟩ := Scan.startsWith_iff.mp hbrace
      rw [List.tail_cons] at hrest
      subst hrest
      exact ⟨[keyword], opening, inner, rfl, ⟨hword, by simp⟩, hkind,
        by simp [Scan.tokenOfKind, Scan.skip, Scan.startsWith, Scan.kind?, hkind]⟩
    · obtain ⟨name, others, hrest, hkind⟩ := Scan.startsWith_iff.mp hname
      rw [List.tail_cons] at hrest
      subst hrest
      obtain ⟨opening, inner, hrest, hopening⟩ := Scan.startsWith_iff.mp hbrace
      rw [List.drop_succ_cons, List.drop_succ_cons, List.drop_zero] at hrest
      subst hrest
      exact ⟨[keyword, name], opening, inner, rfl, ⟨hword, by simp⟩, hopening,
        by simp [Scan.tokenOfKind, Scan.skip, Scan.startsWith, Scan.kind?, hkind, hopening]⟩

/-- **A group stands where it is read**, and its members are what its braces hold. -/
theorem standsIn_group (stop : Span) {s whole : List Lexeme} (h : Head.atGroup s = true)
    (hs : s <:+ whole) : ∃ body after, (Head.group stop s).1.StandsIn whole body after ∧
      Grouped after body (Head.group stop s).1.members := by
  obtain ⟨before, rfl⟩ := hs
  obtain ⟨title, opening, inner, hsplit, htitle, hopening, hinner⟩ := Head.exists_title h
  obtain ⟨hstops, body, hbody, hgrouped⟩ :=
    grouped_members stop (inner.length + 1) inner (Nat.lt_succ_self _)
  have hgroup : (Head.group stop s).1.members = (Head.members stop (inner.length + 1) inner).1 ∧
      (Head.group stop s).1.span = Scan.spanUpTo stop s
        (Scan.skip .closeBrace (Head.members stop (inner.length + 1) inner).2) := by
    unfold Head.group
    dsimp only
    rw [hinner]
    exact ⟨rfl, rfl⟩
  rw [← hgroup.1] at hgrouped
  have hspan := hgroup.2
  generalize (Head.members stop (inner.length + 1) inner).2 = after at *
  refine ⟨body, after, ?_, hgrouped⟩
  rcases hstops with rfl | hclose
  · rw [List.append_nil] at hbody
    subst hbody
    refine .unclosed (by rw [hsplit]) htitle hopening ?_
    have hall : s = (title ++ opening :: inner) ++ [] := by rw [hsplit, List.append_nil]
    rw [hspan, hall]
    exact Scan.spanUpTo_append stop (by simp) []
  · obtain ⟨closing, behind, rfl, hclosing⟩ := Scan.startsWith_iff.mp hclose
    have hall : s = (title ++ opening :: (body ++ [closing])) ++ behind := by
      rw [hsplit, hbody]
      simp
    refine .closed (by rw [hall, ← List.append_assoc]) htitle hopening hclosing ?_
    rw [hspan, Scan.skip, if_pos hclose, List.tail_cons, hall]
    exact Scan.spanUpTo_append stop (by simp) behind

/-- Every group of a head was read where a group comes. -/
theorem exists_of_group_mem (stop : Span) (fuel : Nat) (head : Syntax.Head) (s : List Lexeme)
    {g : Group} (hg : HeadItem.group g ∈ (Head.entries stop fuel head s).1.items) :
    HeadItem.group g ∈ head.items ∨
      ∃ start, start <:+ s ∧ Head.atGroup start = true ∧ g = (Head.group stop start).1 := by
  induction fuel generalizing head s with
  | zero => exact .inl hg
  | succ fuel ih =>
    have hskip := Scan.skipSeparators_suffix s
    -- what is read further on is read from an end of the list
    have hlater : ∀ (rest : List Lexeme) (head' : Syntax.Head), rest <:+ Scan.skipSeparators s →
        HeadItem.group g ∈ (Head.entries stop fuel head' rest).1.items →
        HeadItem.group g ∈ head'.items ∨
          ∃ start, start <:+ s ∧ Head.atGroup start = true ∧ g = (Head.group stop start).1 := by
      intro rest head' hrest hmem
      refine (ih head' rest hmem).imp id ?_
      rintro ⟨start, hstart, hat, heq⟩
      exact ⟨start, (hstart.trans hrest).trans hskip, hat, heq⟩
    unfold Head.entries at hg
    dsimp only at hg
    split at hg
    · exact hlater _ { head with starter := some (Head.starter stop (Scan.skipSeparators s)).1 }
        (Head.starter_suffix stop _) hg
    · split at hg
      · next hat =>
        rcases hlater _ _ (Head.group_suffix stop _) hg with hmem | hmem
        · rcases List.mem_append.mp hmem with hmem | hmem
          · exact .inl hmem
          · simp only [List.mem_singleton, HeadItem.group.injEq] at hmem
            exact .inr ⟨_, hskip, hat, hmem⟩
        · exact .inr hmem
      · split at hg
        · rcases hlater _ _ (Head.declaration_suffix stop _) hg with hmem | hmem
          · rcases List.mem_append.mp hmem with hmem | hmem
            · exact .inl hmem
            · simp at hmem
          · exact .inr hmem
        · exact .inl hg

/-- Every group of a source stands among its lexemes. -/
theorem standsIn_parse {source : String} {h : Syntax.Head} (hh : (parse source).head = some h)
    {g : Group} (hg : HeadItem.group g ∈ h.items) :
    ∃ body after, g.StandsIn (lex source) body after ∧ Grouped after body g.members := by
  have hitems : HeadItem.group g ∈ (Head.entries (endOfInput source (lex source))
      ((Scan.skipSeparators (lex source)).length + 1) ⟨[], none⟩
      (Scan.skipSeparators (lex source))).1.items := by
    have hhead : (Head.ofLexemes (endOfInput source (lex source))
        (Scan.skipSeparators (lex source))).1 = some h := hh
    unfold Head.ofLexemes at hhead
    dsimp only at hhead
    split at hhead
    · cases hhead
    · cases hhead
      exact hg
  obtain ⟨start, hstart, hat, rfl⟩ :=
    (exists_of_group_mem _ _ _ _ hitems).resolve_left List.not_mem_nil
  exact standsIn_group _ hat (hstart.trans (Scan.skipSeparators_suffix _))

/-! ### What lies in the members -/

namespace Grouped

variable {p : Position} {after body : List Lexeme} {ds : List Declaration}

/-- The members lie between the start and the end of the lexemes, and none is empty. -/
theorem bounds (h : Grouped after body ds) (hstand : StandFrom p body) :
    ∀ d ∈ ds, p.offset ≤ d.span.start ∧ d.span.start < d.span.stop ∧
      d.span.stop ≤ (p.after (body.flatMap Lexeme.chars)).offset := by
  induction h generalizing p with
  | nil => exact fun d hd => nomatch hd
  | @passed l rest ds hl h ih =>
    have hstart := Position.offset_le_after p l.chars
    intro d hd
    have hlater := ih hstand.2.2 d hd
    rw [List.flatMap_cons, Position.after_append]
    omega
  | @member taken rest d ds hne hspan h ih =>
    obtain ⟨htaken, hrest⟩ := standFrom_append.mp hstand
    have hstart := htaken.start_cover hne
    have hstop := htaken.stop_cover hne
    have hend := Position.offset_le_after (p.after (taken.flatMap Lexeme.chars))
      (rest.flatMap Lexeme.chars)
    rw [List.flatMap_append, Position.after_append]
    intro e he
    rcases List.mem_cons.mp he with rfl | he
    · rw [hspan]
      omega
    · have hlater := ih hrest e he
      omega

/-- **A lexeme of a group is a separator, lies in exactly one member, or is lost**, and then it was
    passed over. -/
theorem covered (h : Grouped after body ds) (hstand : StandFrom p body)
    {front back : List Lexeme} {l : Lexeme} (hbody : body = front ++ l :: back)
    (hseparator : l.isSeparator = false) :
    (∃! d, d ∈ ds ∧ l.span.Within d.span) ∨
      (∀ d ∈ ds, ¬ l.span.Within d.span) ∧ PassedOver l (back ++ after) := by
  induction h generalizing p front with
  | nil => simp at hbody
  | @passed m rest ds hm h ih =>
    have hbehind := h.bounds hstand.2.2
    cases front with
    | nil =>
      obtain ⟨rfl, rfl⟩ := List.cons.inj hbody
      refine .inr ⟨?_, hm.resolve_left (by simp [hseparator])⟩
      -- every member starts behind the lexeme
      rintro d hd ⟨hstart, -⟩
      have hsingle : StandFrom p ([m] ++ rest) := hstand
      have hm := (standFrom_append.mp hsingle).1.bounds (l := m) (by simp)
      have hd := hbehind d hd
      rw [List.flatMap_singleton] at hm
      omega
    | cons m' front =>
      obtain ⟨rfl, rfl⟩ := List.cons.inj hbody
      exact ih hstand.2.2 rfl
  | @member taken rest d ds hne hspan h ih =>
    obtain ⟨htaken, hrest⟩ := standFrom_append.mp hstand
    have hstop := htaken.stop_cover hne
    have hbehind := h.bounds hrest
    rw [← hspan] at hstop
    -- a lexeme behind the member does not lie in it
    have hlater : ∀ front', rest = front' ++ l :: back →
        (∃! e, e ∈ d :: ds ∧ l.span.Within e.span) ∨
          (∀ e ∈ d :: ds, ¬ l.span.Within e.span) ∧ PassedOver l (back ++ after) := by
      intro front' hsplit
      have hl := hrest.bounds (l := l) (by simp [hsplit])
      have hnot : ¬ l.span.Within d.span := by
        rintro ⟨-, hle⟩
        omega
      simp only [List.mem_cons, forall_eq_or_imp]
      rcases ih hrest hsplit with ⟨e, ⟨he, hwithin⟩, hunique⟩ | ⟨hlost, hpassed⟩
      · refine .inl ⟨e, ⟨.inr he, hwithin⟩, ?_⟩
        rintro e' ⟨rfl | he', hwithin'⟩
        · exact absurd hwithin' hnot
        · exact hunique e' ⟨he', hwithin'⟩
      · exact .inr ⟨⟨hnot, hlost⟩, hpassed⟩
    rcases List.append_eq_append_iff.mp hbody with ⟨front', -, hsplit⟩ | ⟨inside, hinside, hsplit⟩
    · exact hlater front' hsplit
    · cases inside with
      | nil => exact hlater [] hsplit.symm
      | cons l' inside =>
        obtain ⟨rfl, -⟩ := List.cons.inj hsplit
        have hl : l ∈ taken := by simp [hinside]
        have hwithin := htaken.within_cover l hl
        have hbounds := htaken.bounds hl
        rw [← hspan] at hwithin
        refine .inl ⟨d, ⟨List.mem_cons_self, hwithin⟩, ?_⟩
        -- all other members start behind the first
        rintro e ⟨he, hstart, -⟩
        rcases List.mem_cons.mp he with rfl | he
        · rfl
        · have hbehind := hbehind e he
          omega

end Grouped

end SequenceDiagram
