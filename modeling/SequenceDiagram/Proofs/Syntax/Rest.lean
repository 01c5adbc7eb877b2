import SequenceDiagram.Syntax.Head

namespace SequenceDiagram

/-!
# What readers leave

* `Head.ofLexemes_suffix`: what the head leaves is an end of what it was given. The same holds of
  each of its parts.
* `length_lex_le`: a source has at most as many lexemes as bytes.
-/

/-! ### Single lexemes -/

namespace Scan

theorem skip_suffix (kind : LexemeKind) (s : List Lexeme) : skip kind s <:+ s := by
  unfold skip
  split
  · exact List.tail_suffix s
  · exact List.suffix_refl s

theorem tokenOfKind_suffix (kind : LexemeKind) (s : List Lexeme) :
    (tokenOfKind kind s).2 <:+ s := by
  cases s with
  | nil => exact List.suffix_refl _
  | cons l rest =>
    rw [tokenOfKind]
    split
    · exact List.suffix_cons l rest
    · exact List.suffix_refl _

theorem name_suffix (s : List Lexeme) : (name s).2 <:+ s := by
  cases s with
  | nil => exact List.suffix_refl _
  | cons l rest =>
    rw [name]
    split
    · exact List.suffix_cons l rest
    · exact List.suffix_refl _

theorem skipSeparators_suffix (s : List Lexeme) : skipSeparators s <:+ s :=
  List.dropWhile_suffix _

end Scan

/-! ### The head -/

namespace Head

variable (stop : Span) (s : List Lexeme)

theorem starter_suffix : (starter stop s).2 <:+ s :=
  ((Scan.skip_suffix .closeParen _).trans (Scan.name_suffix _)).trans (List.drop_suffix 3 s)

theorem participantType_suffix : (participantType s).2 <:+ s := by
  unfold participantType
  split
  · exact (Scan.name_suffix _).trans (List.tail_suffix s)
  · exact List.suffix_refl s

theorem stereotype_suffix : (stereotype stop s).2 <:+ s := by
  unfold stereotype
  split
  · exact ((Scan.skip_suffix _ _).trans (List.dropWhile_suffix _)).trans (List.tail_suffix s)
  · exact List.suffix_refl s

theorem label_suffix : (label s).2 <:+ s := by
  unfold label
  split
  · exact (Scan.name_suffix _).trans (List.tail_suffix s)
  · exact List.suffix_refl s

theorem declaration_suffix : (declaration stop s).2 <:+ s := by
  have hlabel : (label (Scan.name (stereotype stop (participantType s).2).2).2).2 <:+ s :=
    (((label_suffix _).trans (Scan.name_suffix _)).trans (stereotype_suffix stop _)).trans
      (participantType_suffix s)
  exact ((Scan.tokenOfKind_suffix .number _).trans (Scan.tokenOfKind_suffix .color _)).trans hlabel

theorem members_suffix (fuel : Nat) : (members stop fuel s).2 <:+ s := by
  induction fuel generalizing s with
  | zero => exact List.suffix_refl s
  | succ fuel ih =>
    have hskip := Scan.skipSeparators_suffix s
    unfold members
    dsimp only
    split
    · exact hskip
    · split
      -- a member is read, or one lexeme is passed over
      · exact ((ih _).trans (declaration_suffix stop _)).trans hskip
      · exact ((ih _).trans (List.tail_suffix _)).trans hskip

theorem group_suffix : (group stop s).2 <:+ s := by
  have hbrace : Scan.skip .openBrace (Scan.tokenOfKind .name s.tail).2 <:+ s :=
    ((Scan.skip_suffix .openBrace _).trans (Scan.tokenOfKind_suffix .name _)).trans
      (List.tail_suffix s)
  unfold group
  exact ((Scan.skip_suffix .closeBrace _).trans (members_suffix stop _ _)).trans hbrace

theorem entries_suffix (fuel : Nat) (head : Syntax.Head) : (entries stop fuel head s).2 <:+ s := by
  induction fuel generalizing s head with
  | zero => exact List.suffix_refl s
  | succ fuel ih =>
    have hskip := Scan.skipSeparators_suffix s
    unfold entries
    dsimp only
    split
    -- the starter, a group, a participant, or the end of the head
    · exact ((ih _ _).trans (starter_suffix stop _)).trans hskip
    · split
      · exact ((ih _ _).trans (group_suffix stop _)).trans hskip
      · split
        · exact ((ih _ _).trans (declaration_suffix stop _)).trans hskip
        · exact hskip

/-- What the head leaves is an end of the source. -/
theorem ofLexemes_suffix : (ofLexemes stop s).2 <:+ s :=
  entries_suffix stop s (s.length + 1) ⟨[], none⟩

end Head

/-! ### The lexemes of a source -/

/-- Every lexeme takes at least one character. -/
theorem length_lexFrom_le (p : Position) (gap cs : List Char) :
    (lexFrom p gap cs).length ≤ cs.length := by
  induction hn : cs.length using Nat.strongRecOn generalizing p gap cs with
  | ind n ih =>
    subst hn
    cases cs with
    | nil =>
      unfold lexFrom
      exact Nat.le_refl _
    | cons c rest =>
      -- what is left behind the first character, and every end of it, is shorter
      have hshort : ∀ cs : List Char, cs <:+ rest → ∀ p gap,
          (lexFrom p gap cs).length ≤ rest.length := by
        intro cs hcs p gap
        have hlt : cs.length < (c :: rest).length := Nat.lt_succ_of_le hcs.length_le
        exact Nat.le_trans (ih cs.length hlt p gap cs rfl) hcs.length_le
      unfold lexFrom
      dsimp only
      split
      · exact Nat.le_succ_of_le (hshort rest (List.suffix_refl _) _ _)
      · split
        · exact Nat.le_succ_of_le (hshort _ (List.dropWhile_suffix _) _ _)
        · exact Nat.succ_le_succ (hshort _ (List.drop_suffix _ _) _ _)

/-- Every character takes at least one byte. -/
theorem length_add_offset_le (p : Position) (cs : List Char) :
    p.offset + cs.length ≤ (p.after cs).offset := by
  induction cs generalizing p with
  | nil => exact Nat.le_refl _
  | cons c cs ih =>
    have hstep := ih (p.next c)
    have hpos := Char.utf8Size_pos c
    rw [Position.offset_next] at hstep
    rw [Position.after_cons, List.length_cons]
    omega

/-- A text has at most as many characters as bytes. -/
theorem length_le_utf8ByteSize (text : String) : text.length ≤ text.utf8ByteSize := by
  have hbytes := length_add_offset_le .start text.toList
  rw [Position.offset_after, String.ofList_toList, String.length_toList] at hbytes
  have hstart : Position.start.offset = 0 := rfl
  omega

/-- A source has at most as many lexemes as bytes. -/
theorem length_lex_le (source : String) : (lex source).length ≤ source.utf8ByteSize := by
  have hchars : (lex source).length ≤ source.toList.length := length_lexFrom_le _ _ _
  rw [String.length_toList] at hchars
  exact Nat.le_trans hchars (length_le_utf8ByteSize source)

end SequenceDiagram
