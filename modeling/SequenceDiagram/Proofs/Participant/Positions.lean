import SequenceDiagram.Proofs.Participant.Mentions
import SequenceDiagram.Proofs.Source.Positions
import SequenceDiagram.Proofs.Syntax.ReadOff
import SequenceDiagram.Proofs.Syntax.Tiling

namespace SequenceDiagram

open Syntax

/-!
# Recorded positions are occurrences

The places that a record keeps are those that have to be rewritten if the name changes.

* `Syntax.Named`: a mention goes by a word of the tree, which is the name, or the constructor in a
  name that is put together (`Syntax.Creates`).
* `namedSteps`: all mentions of statements go by their words, and `named_program` says so of a whole
  program.
* `isSlice_word`: the words of a tree are cut out of its source.
* `recorded_positions_are_occurrences` puts both together.
-/

/-! ### What a mention goes by -/

/-- A creation among the statements, at some depth, has its constructor at the place and gives the
    created participant the name. -/
def Syntax.Creates (ss : List Statement) (name : String) (s : Span) : Prop :=
  ∃ t : Statement, t.In ss ∧ ∃ c body k, t.construct? = some (.creation c body) ∧
    c.constructor = some k ∧ k.span = s ∧ creationName c.assignment k.text = name

/-- The mention goes by one of the words: by its text, or as the constructor of a creation among the
    statements. A mention without a place goes by nothing. -/
def Syntax.Named (ps : List Piece) (ss : List Statement) (x : String × Mention) : Prop :=
  ∀ s, x.2.position = some s → ∃ t, .word t ∈ ps ∧ t.span = s ∧ (t.text = x.1 ∨ Creates ss x.1 s)

/-- What holds of some statements holds of more. -/
theorem Syntax.Statement.In.mono {t : Statement} {ss us : List Statement} (h : t.In ss)
    (hsub : ss ⊆ us) : t.In us := by
  cases h with
  | here h => exact .here (hsub h)
  | inside hs hb h => exact .inside (hsub hs) hb h

namespace Syntax.Creates

variable {ss us : List Statement} {name : String} {s : Span}

theorem mono (h : Creates ss name s) (hsub : ss ⊆ us) : Creates us name s := by
  obtain ⟨t, ht, hcreation⟩ := h
  exact ⟨t, ht.mono hsub, hcreation⟩

/-- A creation in a block of a statement stands at some depth in the statement. -/
theorem inside {u : Statement} {b : Block} (h : Creates b.statements name s) (hb : b ∈ u.blocks) :
    Creates [u] name s := by
  obtain ⟨t, ht, hcreation⟩ := h
  exact ⟨t, .inside List.mem_cons_self hb ht, hcreation⟩

end Syntax.Creates

namespace Syntax.Named

variable {ps qs : List Piece} {ss us : List Statement} {x : String × Mention}

/-- More pieces have more words. -/
theorem of_subset (h : Named ps ss x) (hps : ps ⊆ qs)
    (hcreates : ∀ name s, Creates ss name s → Creates us name s) : Named qs us x := by
  intro s hs
  obtain ⟨t, ht, hspan, hname⟩ := h s hs
  exact ⟨t, hps ht, hspan, hname.imp id (hcreates _ _)⟩

theorem pieces (h : Named ps ss x) (hps : ps ⊆ qs) : Named qs ss x :=
  h.of_subset hps fun _ _ h => h

/-- The word of a name names it. -/
theorem word {t : Token} (ht : .word t ∈ ps) {m : Mention} (hm : m.position = some t.span) :
    Named ps ss (t.text, m) := by
  intro s hs
  rw [hm, Option.some.injEq] at hs
  exact ⟨t, ht, hs, .inl rfl⟩

end Syntax.Named

theorem mem_words {t : Token} {token : Option Token} (h : token = some t) :
    .word t ∈ words token := by
  rw [h]
  exact List.mem_cons_self

theorem named_used {token : Option Token} {ss : List Statement} :
    ∀ x ∈ Token.used token, Named (words token) ss x := by
  intro x hx
  obtain ⟨t, ht, rfl⟩ := List.mem_map.mp hx
  have htoken := (Option.filter_eq_some_iff.mp (Option.mem_toList.mp ht)).1
  exact .word (mem_words htoken) rfl

/-! ### The head -/

theorem named_declaration {ss : List Statement} (groupId : Option String) (d : Declaration) :
    ∀ x ∈ d.mentions groupId, Named d.pieces ss x := by
  intro x hx
  obtain ⟨t, ht, rfl⟩ := List.mem_map.mp hx
  have hword := mem_words (Option.mem_toList.mp ht)
  refine .word ?_ rfl
  simp [Declaration.pieces, hword]

theorem named_headItem {ss : List Statement} (item : HeadItem) :
    ∀ x ∈ item.mentions, Named item.pieces ss x := by
  cases item with
  | participant d => exact named_declaration none d
  | group g =>
    intro x hx
    obtain ⟨d, hd, hx⟩ := List.mem_flatMap.mp hx
    refine (named_declaration _ d x hx).pieces fun p hp => ?_
    exact List.mem_cons_of_mem _ (List.mem_append_right _ (List.mem_flatMap.mpr ⟨d, hd, hp⟩))

theorem named_head {ss : List Statement} (useStarter : Bool) (h : Syntax.Head) :
    ∀ x ∈ h.mentions useStarter, Named h.pieces ss x := by
  intro x hx
  rcases List.mem_append.mp hx with hx | hx
  · obtain ⟨item, hitem, hx⟩ := List.mem_flatMap.mp hx
    refine (named_headItem item x hx).pieces fun p hp => ?_
    exact List.mem_append_left _ (List.mem_flatMap.mpr ⟨item, hitem, hp⟩)
  · -- the name of the declared starter
    obtain ⟨t, ht, rfl⟩ := List.mem_map.mp hx
    obtain ⟨starter, hstarter, hname⟩ := Option.bind_eq_some_iff.mp
      (Option.filter_eq_some_iff.mp (Option.mem_toList.mp ht)).1
    refine .word ?_ rfl
    simp [Syntax.Head.pieces, hstarter, Starter.pieces, mem_words hname]

/-! ### Statements -/

theorem named_asyncMessage {ss : List Statement} (m : AsyncMessage) :
    ∀ x ∈ m.mentions, Named m.pieces ss x := by
  intro x hx
  rcases List.mem_append.mp hx with hx | hx
  · refine (named_used x hx).pieces fun p hp => ?_
    simp [AsyncMessage.pieces, hp]
  · refine (named_used x hx).pieces fun p hp => ?_
    simp [AsyncMessage.pieces, hp]

theorem named_call {ss : List Statement} (c : Call) :
    ∀ x ∈ c.mentions, Named c.pieces ss x := by
  intro x hx
  rcases List.mem_append.mp hx with hx | hx
  · refine (named_used x hx).pieces fun p hp => ?_
    simp [Call.pieces, hp]
  · refine (named_used x hx).pieces fun p hp => ?_
    simp [Call.pieces, hp]

/-- A created participant is named by the creation itself. -/
theorem named_creation {c : Creation} {body : Block} {span : Span} {text : String} :
    ∀ x ∈ c.mentions, Named c.pieces [.recognized (.creation c body) span text] x := by
  intro x hx
  obtain ⟨k, hk, rfl⟩ := List.mem_map.mp hx
  have hk := Option.mem_toList.mp hk
  intro s hs
  cases hs
  refine ⟨k, ?_, rfl, .inr ⟨_, .here List.mem_cons_self, c, body, k, rfl, hk, rfl, rfl⟩⟩
  simp [Creation.pieces, mem_words hk]

theorem named_reference {ss : List Statement} (r : Reference) :
    ∀ x ∈ r.mentions, Named r.pieces ss x := by
  intro x hx
  obtain ⟨t, ht, hx⟩ := List.mem_flatMap.mp hx
  refine (named_used x hx).pieces fun p hp => ?_
  cases List.mem_singleton.mp hp
  exact List.mem_cons_of_mem _ (List.mem_map_of_mem (List.mem_of_mem_tail ht))

theorem piecesOf_subset_pieces (body : Block) : piecesOf body.statements ⊆ body.pieces := by
  cases body with
  | missing => exact List.Subset.refl _
  | present ss span => exact List.subset_cons_self _ _

/-- What is named in the body of a statement is named in the statement. -/
theorem named_body {body : Block} {u : Statement} (hb : body ∈ u.blocks) {ps : List Piece}
    (h : ∀ x ∈ mentionsOf body.statements, Named (piecesOf body.statements) body.statements x)
    (hps : body.pieces ⊆ ps) : ∀ x ∈ body.mentions, Named ps [u] x := by
  intro x hx
  rw [Block.mentions_eq] at hx
  exact (h x hx).of_subset (List.Subset.trans (piecesOf_subset_pieces body) hps)
    fun name s h => h.inside hb

/-- **All mentions of statements go by their words**, at every depth. -/
theorem namedSteps : Syntax.Steps
    (fun s => ∀ x ∈ s.mentions, Named s.pieces [s] x)
    (fun ss => ∀ x ∈ mentionsOf ss, Named (piecesOf ss) ss x)
    (fun bs => ∀ x ∈ mentionsIn bs, ∃ b ∈ bs, Named (piecesIn bs) b.block.statements x) where
  unrecognized span text x hx := nomatch hx
  call c body span text hbody x hx := by
    rcases List.mem_append.mp hx with hx | hx
    · refine (named_call c x hx).pieces fun p hp => ?_
      exact List.mem_cons_of_mem _ (List.mem_append_left _ hp)
    · refine named_body List.mem_cons_self hbody (fun p hp => ?_) x hx
      exact List.mem_cons_of_mem _ (List.mem_append_right _ hp)
  creation c body span text hbody x hx := by
    rcases List.mem_append.mp hx with hx | hx
    · refine (named_creation x hx).pieces fun p hp => ?_
      exact List.mem_cons_of_mem _ (List.mem_append_left _ hp)
    · refine named_body List.mem_cons_self hbody (fun p hp => ?_) x hx
      exact List.mem_cons_of_mem _ (List.mem_append_right _ hp)
  asyncMessage m span text x hx := (named_asyncMessage m x hx).pieces (List.subset_cons_self _ _)
  ret r span text x hx := by
    obtain ⟨m, hm, hx⟩ := List.mem_flatMap.mp hx
    refine (named_asyncMessage m x hx).pieces fun p hp => ?_
    have hpieces := List.mem_flatMap.mpr ⟨m, hm, hp⟩
    exact List.mem_cons_of_mem _ (List.mem_cons_of_mem _ (List.mem_append_right _ hpieces))
  divider d span text x hx := nomatch hx
  reference r span text x hx := (named_reference r x hx).pieces (List.subset_cons_self _ _)
  block kind bs inner span text hbs x hx := by
    obtain ⟨b, hb, h⟩ := hbs x hx
    refine h.of_subset (fun p hp => ?_) fun name s h => h.inside (List.mem_map_of_mem hb)
    exact List.mem_cons_of_mem _ (List.mem_cons_of_mem _ hp)
  nil x hx := nomatch hx
  cons s rest hs hrest x hx := by
    rcases List.mem_append.mp hx with hx | hx
    · refine (hs x hx).of_subset (List.subset_append_left _ _) fun name t h => h.mono ?_
      exact List.cons_subset_cons s (List.nil_subset rest)
    · refine (hrest x hx).of_subset (List.subset_append_right _ _) fun name t h => h.mono ?_
      exact List.subset_cons_self s rest
  noBranch x hx := nomatch hx
  branch role guard body rest hbody hrest x hx := by
    rcases List.mem_append.mp hx with hx | hx
    · rw [Block.mentions_eq] at hx
      refine ⟨_, List.mem_cons_self, (hbody x hx).pieces fun p hp => ?_⟩
      exact List.mem_append_left _ (List.mem_append_right _ (piecesOf_subset_pieces body hp))
    · obtain ⟨b, hb, h⟩ := hrest x hx
      exact ⟨b, List.mem_cons_of_mem _ hb, h.pieces (List.subset_append_right _ _)⟩

/-- All mentions of a program go by its words. -/
theorem named_program (program : Program) (starter : Option String) :
    ∀ x ∈ program.mentions starter, Named program.pieces program.statements x := by
  intro x hx
  rcases List.mem_append.mp hx with hx | hx
  · rcases List.mem_append.mp hx with hx | hx
    · obtain ⟨h, hh, hx⟩ := List.mem_flatMap.mp hx
      refine (named_head _ h x hx).pieces fun p hp => ?_
      exact List.mem_append_left _ (List.mem_flatMap.mpr ⟨h, hh, hp⟩)
    · -- a starter from outside has no place
      obtain ⟨name, _, rfl⟩ := List.mem_map.mp hx
      exact fun s hs => nomatch hs
  · refine (namedSteps.statements program.statements x hx).pieces fun p hp => ?_
    exact List.mem_append_right _ (piecesOf_subset_pieces program.block hp)

/-! ### The result -/

/-- A word of the tree of a source is a lexeme, which its place cuts out of the source. -/
theorem isSlice_word {source : String} {t : Token} (ht : .word t ∈ (parse source).pieces) :
    t.span.start < t.span.stop ∧ ∃ text, IsSlice source t.span text ∧ unquote text = t.text := by
  cases readOff_parse source _ ht with
  | @word l hl =>
    obtain ⟨-, hlt, hslice⟩ := lexeme_located hl
    refine ⟨hlt, String.ofList l.text, hslice, ?_⟩
    show String.ofList (unquoteChars (String.ofList l.text).toList) = _
    rw [String.toList_ofList]
    rfl

/-- **Recorded positions are occurrences of the name.** Every place that is recorded for a
    participant is a stretch of the source that is not empty. Without its quotes it is the name, or
    it is the constructor of a creation that gives the created participant the name. -/
theorem recorded_positions_are_occurrences (source : String) (starter : Option String) :
    ∀ p ∈ (collect (parse source) starter).ledger.entries, ∀ s ∈ p.positions,
      s.start < s.stop ∧ s.stop ≤ source.utf8ByteSize ∧ ∃ text, IsSlice source s text ∧
        (unquote text = p.name ∨ Creates (parse source).statements p.name s) := by
  intro p hp s hs
  rw [ledger_collect] at hp
  rcases Ledger.mem_positions_addAll hp hs with ⟨m, hm, hposition⟩ | ⟨q, hq, _⟩
  · obtain ⟨t, ht, rfl, hname⟩ := named_program (parse source) starter _ hm s hposition
    obtain ⟨hlt, text, hslice, htext⟩ := isSlice_word ht
    refine ⟨hlt, ?_, text, hslice, ?_⟩
    · obtain ⟨before, after, hsource, hstart, hstop⟩ := hslice
      rw [hstop, hstart, hsource, String.utf8ByteSize_append, String.utf8ByteSize_append]
      exact Nat.le_add_right _ _
    · rw [htext]
      exact hname
  · cases hq

/-- Quotes belong to the place and not to the name, and a created participant is found at its
    constructor. -/
theorem quoted_name_and_constructor_occur :
    let source := "\"A b\".m \x7b x = new C \x7d"
    let quoted : Participant := { Participant.named "A b" with positions := [⟨0, 5, 1, 0⟩] }
    let created : Participant := { Participant.named "x:C" with positions := [⟨18, 19, 1, 18⟩] }
    (collect (parse source) none).ledger.entries = [quoted, created] ∧
      (∃ text, IsSlice source ⟨0, 5, 1, 0⟩ text ∧
        (unquote text = "A b" ∨ Creates (parse source).statements "A b" ⟨0, 5, 1, 0⟩)) ∧
      ∃ text, IsSlice source ⟨18, 19, 1, 18⟩ text ∧
        (unquote text = "x:C" ∨ Creates (parse source).statements "x:C" ⟨18, 19, 1, 18⟩) := by
  intro source quoted created
  have hentries : (collect (parse source) none).ledger.entries = [quoted, created] := by
    decide +kernel
  refine ⟨hentries, ?_, ?_⟩
  · exact (recorded_positions_are_occurrences source none quoted
      (hentries ▸ List.mem_cons_self) _ List.mem_cons_self).2.2
  · exact (recorded_positions_are_occurrences source none created
      (hentries ▸ List.mem_cons_of_mem _ List.mem_cons_self) _ List.mem_cons_self).2.2

end SequenceDiagram
