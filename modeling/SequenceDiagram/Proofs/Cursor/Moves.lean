import SequenceDiagram.Proofs.Cursor.Tape

namespace SequenceDiagram

open Syntax

/-!
# Moves of the cursor

A `Cursor` is a reader that stands before a lexeme of a tape, moves on over the tape, and breaks off
as soon as an operation on the tape slips.

* `Cursor.Follows source bound m s r`: with the cursor at `s`, an end of the lexemes of the source,
  the reader `m` does not break off. It gives what `r` has first, and leaves the cursor at what `r`
  has second.
* `Cursor.Follows.bind` and its companions put readers together, so that each reader with a cursor
  is shown to follow the reader of lists of the same name.
-/

/-- A reader that moves over a tape. -/
abbrev Cursor (α : Type) : Type := ReaderT Tape (StateT Nat (Except Slip)) α

namespace Cursor

/-! ### What a reader gives -/

section Follows

variable {α β : Type}

/-- The reader with the cursor does what the reader of lists does with the lexemes `s`, if there are
    not too many of them. -/
def Follows (source : String) (bound : Nat) (m : Cursor α) (s : List Lexeme)
    (r : α × List Lexeme) : Prop :=
  s <:+ lex source → s.length ≤ bound →
    m (Tape.of source) (place source s) = .ok (r.1, place source r.2) ∧ r.2 <:+ s

namespace Follows

variable {source : String} {bound : Nat} {m m' : Cursor α} {f : α → Cursor β} {s : List Lexeme}
  {r r' : α × List Lexeme} {q : β × List Lexeme}

/-- The lexemes can be taken to be an end of those of the source. -/
theorem of_suffix (h : s <:+ lex source → s.length ≤ bound → Follows source bound m s r) :
    Follows source bound m s r :=
  fun hs hbound => h hs hbound hs hbound

/-- The bound does not matter where there are few lexemes. -/
theorem of_le {few : Nat} (h : Follows source few m s r) (hfew : s.length ≤ few) :
    Follows source bound m s r :=
  fun hs _ => h hs hfew

theorem pure (a : α) : Follows source bound (pure a) s (a, s) :=
  fun _ _ => ⟨rfl, List.suffix_refl s⟩

/-- One reader after the other. -/
theorem bind (h : Follows source bound m s r)
    (hf : r.2 <:+ s → Follows source bound (f r.1) r.2 q) : Follows source bound (m >>= f) s q := by
  intro hs hbound
  obtain ⟨hrun, hrest⟩ := h hs hbound
  obtain ⟨hrun', hrest'⟩ := hf hrest (hrest.trans hs) (Nat.le_trans hrest.length_le hbound)
  refine ⟨?_, hrest'.trans hrest⟩
  show (m (Tape.of source) (place source s) >>= fun x => f x.1 (Tape.of source) x.2) = _
  rw [hrun]
  exact hrun'

/-- A reader whose result is changed. -/
theorem map (f : α → β) (h : Follows source bound m s r) :
    Follows source bound (f <$> m) s (f r.1, r.2) := by
  intro hs hbound
  obtain ⟨hrun, hrest⟩ := h hs hbound
  refine ⟨?_, hrest⟩
  show (m (Tape.of source) (place source s) >>= fun x => Except.ok (f x.1, x.2)) = _
  rw [hrun]
  rfl

/-- One of two readers, by a question that may move the cursor. -/
theorem cond {c : Cursor Bool} {b : Bool} {t : List Lexeme} (hc : Follows source bound c s (b, t))
    (h : b = true → t <:+ s → Follows source bound m t r)
    (h' : ¬b = true → t <:+ s → Follows source bound m' t r') :
    Follows source bound (do if ← c then m else m') s (if b = true then r else r') := by
  refine hc.bind fun ht => ?_
  dsimp only
  split
  · next hb => exact h hb ht
  · next hb => exact h' hb ht

/-- The second question is only asked if the answer to the first is yes. -/
theorem and {m m' : Cursor Bool} {a b : Bool} (h : Follows source bound m s (a, s))
    (h' : Follows source bound m' s (b, s)) : Follows source bound (m <&&> m') s (a && b, s) := by
  refine h.bind fun _ => ?_
  cases a with
  | false => exact pure false
  | true => exact h'

/-- The second question is only asked if the answer to the first is no. -/
theorem or {m m' : Cursor Bool} {a b : Bool} (h : Follows source bound m s (a, s))
    (h' : Follows source bound m' s (b, s)) : Follows source bound (m <||> m') s (a || b, s) := by
  refine h.bind fun _ => ?_
  cases a with
  | false => exact h'
  | true => exact pure true

end Follows

end Follows

/-! ### Looking ahead -/

section Look

variable {α : Type}

/-- Breaks off. -/
def slip (x : Slip) : Cursor α := fun _ _ => .error x

/-- Looks something up on the tape. -/
def look (f : Tape → Except Slip α) : Cursor α := fun t pos => (f t).map (·, pos)

/-- The number of the next lexeme. -/
def here : Cursor Nat := fun _ pos => .ok (pos, pos)

/-- How many lexemes are left. -/
def remaining : Cursor Nat := fun t pos => .ok (t.marks.length - pos, pos)

/-- The kind of the lexeme that stands `n` lexemes further on. -/
def kind? (n : Nat) : Cursor (Option LexemeKind) :=
  fun t pos => .ok (t.marks[pos + n]?.map (·.kind), pos)

/-- There is no next lexeme. -/
def atEnd : Cursor Bool := do return (← kind? 0).isNone

/-- The lexeme that stands `n` lexemes further on, if it is a word. -/
def word? (n : Nat) : Cursor (Option String) := fun t pos =>
  match t.marks[pos + n]? with
  | some m => (t.word? m).map (·, pos)
  | none => .ok (none, pos)

/-- The lexeme that stands `n` lexemes further on is of this kind. -/
def isKind (n : Nat) (kind : LexemeKind) : Cursor Bool := do return (← kind? n) = some kind

/-- The lexeme that stands `n` lexemes further on is this word. -/
def isWord (n : Nat) (word : String) : Cursor Bool := do return (← word? n) = some word

end Look

/-! ### Single lexemes -/

/-- Moves over the next lexeme. -/
def bump : Cursor (Option Mark) := fun t pos =>
  .ok (t.marks[pos]?, if pos < t.marks.length then pos + 1 else pos)

/-- Moves over the next lexemes. -/
def bumps : Nat → Cursor Unit
  | 0 => return ()
  | n + 1 => do
    let _ ← bump
    bumps n

/-- Moves over the next lexeme, if it is of this kind. -/
def eat (kind : LexemeKind) : Cursor (Option Mark) := do
  if ← isKind 0 kind then bump else return none

/-- Moves over the next lexeme, if it is of this kind, and tells whether it is. -/
def eats (kind : LexemeKind) : Cursor Bool := do return (← eat kind).isSome

/-- The lexeme as a token. -/
def token : Option Mark → Cursor (Option Token)
  | some m => some <$> look (·.token m)
  | none => return none

/-- The next lexeme as a name, if it can be one. -/
def name : Cursor (Option Token) := do
  let kind ← kind? 0
  if kind = some .name ∨ kind = some .quoted then token (← bump) else return none

/-- The next lexeme as a token, if it is of this kind. -/
def tokenOfKind (kind : LexemeKind) : Cursor (Option Token) := do token (← eat kind)

/-! ### Several lexemes -/

/-- Moves over lexemes while they are of certain kinds. -/
def skipWhile (p : LexemeKind → Bool) : Cursor Unit := fun t pos =>
  .ok ((), pos + ((t.marks.drop pos).takeWhile (p ·.kind)).length)

/-- Moves over the separators. -/
def skipSeparators : Cursor Unit :=
  skipWhile fun kind => kind = .newline || kind = .semicolon

/-- Moves over newlines, but only if the lexeme behind them is this word. -/
def continuesWith (word : String) : Cursor Bool := fun t pos => do
  let next := pos + ((t.marks.drop pos).takeWhile (·.kind = .newline)).length
  let (found, _) ← isWord 0 word t next
  return (found, if found then next else pos)

/-- Where the lexemes since a number stand. -/
def spanSince (start : Nat) : Cursor Span := fun t pos =>
  .ok (t.spanOf start (max pos start), pos)

/-- The lexemes since a number, as a token. -/
def tokenSince (start : Nat) : Cursor Token := fun t pos => (t.tokenOf start pos).map (·, pos)

/-- The lexemes since a number, as a token, unless there are none. -/
def tokenUnlessEmpty (start : Nat) : Cursor (Option Token) := do
  if start < (← here) then some <$> tokenSince start else return none

/-- What a reader gives, which is also told where the lexemes stand that it moved over. -/
def spanned {α : Type} (m : Cursor (Span → α)) : Cursor α := do
  let start ← here
  let f ← m
  return f (← spanSince start)

/-! ### The readers of lists do the same -/

variable {source : String} {bound : Nat} (s : List Lexeme)

theorem follows_here : Follows source bound here s (place source s, s) :=
  fun _ _ => ⟨rfl, List.suffix_refl s⟩

theorem follows_remaining : Follows source bound remaining s (s.length, s) := by
  intro hs _
  refine ⟨?_, List.suffix_refl s⟩
  have hlength : (Tape.of source).marks.length = (lex source).length := List.length_map _
  rw [remaining, hlength, place, Nat.sub_sub_self hs.length_le]

theorem follows_look {α : Type} {f : Tape → Except Slip α} {a : α}
    (h : s <:+ lex source → f (Tape.of source) = .ok a) :
    Follows source bound (look f) s (a, s) := by
  intro hs _
  refine ⟨?_, List.suffix_refl s⟩
  rw [look, h hs]
  rfl

theorem follows_kind? (n : Nat) : Follows source bound (kind? n) s (Scan.kind? (s.drop n), s) := by
  intro hs _
  refine ⟨?_, List.suffix_refl s⟩
  rw [kind?, getElem?_marks hs, Scan.kind?, List.head?_drop, Option.map_map]
  rfl

theorem follows_atEnd : Follows source bound atEnd s (decide (s = []), s) := by
  have hnone : (Scan.kind? s).isNone = decide (s = []) := by
    cases s with
    | nil => rfl
    | cons l rest => exact (decide_eq_false (List.cons_ne_nil l rest)).symm
  rw [← hnone]
  exact (follows_kind? s 0).bind fun _ => .pure _

theorem follows_word? (n : Nat) : Follows source bound (word? n) s (Scan.word? (s.drop n), s) := by
  intro hs _
  refine ⟨?_, List.suffix_refl s⟩
  rw [word?, getElem?_marks hs, Scan.word?, List.head?_drop]
  cases hl : s[n]? with
  | none => rfl
  | some l =>
    have hmem := hs.subset (List.mem_of_getElem? hl)
    show ((Tape.of source).word? l.mark).map _ = _
    rw [word?_tape hmem]
    rfl

theorem follows_isKind (n : Nat) (kind : LexemeKind) :
    Follows source bound (isKind n kind) s (Scan.startsWith kind (s.drop n), s) :=
  (follows_kind? s n).bind fun _ => .pure _

theorem follows_startsWith (kind : LexemeKind) :
    Follows source bound (isKind 0 kind) s (Scan.startsWith kind s, s) := follows_isKind s 0 kind

theorem follows_isKind_one (kind : LexemeKind) :
    Follows source bound (isKind 1 kind) s (Scan.startsWith kind s.tail, s) := by
  rw [← List.drop_one]
  exact follows_isKind s 1 kind

theorem follows_isWord (n : Nat) (word : String) :
    Follows source bound (isWord n word) s (Scan.startsWithWord word (s.drop n), s) :=
  (follows_word? s n).bind fun _ => .pure _

theorem follows_isWord_one (word : String) :
    Follows source bound (isWord 1 word) s (Scan.startsWithWord word s.tail, s) := by
  rw [← List.drop_one]
  exact follows_isWord s 1 word

theorem follows_startsWithWord (word : String) :
    Follows source bound (isWord 0 word) s (Scan.startsWithWord word s, s) :=
  follows_isWord s 0 word

theorem follows_bump : Follows source bound bump s (s.head?.map Lexeme.mark, s.tail) := by
  intro hs _
  refine ⟨?_, List.tail_suffix s⟩
  have hmark := getElem?_marks hs 0
  rw [Nat.add_zero, ← List.head?_eq_getElem?] at hmark
  have hlength : (Tape.of source).marks.length = (lex source).length := List.length_map _
  have hplace : (if place source s < (lex source).length then place source s + 1
      else place source s) = place source s.tail := by
    cases s with
    | nil => exact if_neg (Nat.lt_irrefl _)
    | cons l rest =>
      have hle := hs.length_le
      rw [List.tail_cons, place_cons hs, if_pos]
      rw [place, List.length_cons] at *
      omega
  rw [bump, hmark, hlength, hplace]

theorem startsWith_cons (kind : LexemeKind) (l : Lexeme) (rest : List Lexeme) :
    Scan.startsWith kind (l :: rest) = decide (l.kind = kind) := by
  simp [Scan.startsWith, Scan.kind?]

theorem follows_bumps (n : Nat) : Follows source bound (bumps n) s ((), s.drop n) := by
  induction n generalizing s with
  | zero => exact .pure ()
  | succ n ih =>
    rw [← List.drop_tail]
    exact (follows_bump s).bind fun _ => ih s.tail

theorem follows_bumps_one : Follows source bound (bumps 1) s ((), s.tail) := by
  rw [← List.drop_one]
  exact follows_bumps s 1

theorem follows_eat (kind : LexemeKind) : Follows source bound (eat kind) s
    (if Scan.startsWith kind s then s.head?.map Lexeme.mark else none, Scan.skip kind s) := by
  refine (follows_startsWith s kind).bind fun _ => ?_
  unfold Scan.skip
  by_cases hkind : Scan.startsWith kind s = true
  · simp only [if_pos hkind]
    exact follows_bump s
  · simp only [if_neg hkind]
    exact .pure none

theorem follows_eats (kind : LexemeKind) :
    Follows source bound (eats kind) s (Scan.startsWith kind s, Scan.skip kind s) := by
  have hsome : (if Scan.startsWith kind s then s.head?.map Lexeme.mark else none).isSome =
      Scan.startsWith kind s := by
    cases s with
    | nil => rfl
    | cons l rest => by_cases hl : l.kind = kind <;> simp [startsWith_cons, hl]
  rw [← hsome]
  exact (follows_eat s kind).bind fun _ => .pure _

theorem follows_token {l : Lexeme} (hl : l ∈ lex source) :
    Follows source bound (token (some l.mark)) s (some l.token, s) :=
  .map some (follows_look s fun _ => token_tape hl)

theorem follows_name : Follows source bound name s (Scan.name s) := by
  refine .of_suffix fun hs _ => ?_
  cases s with
  | nil => exact (follows_kind? [] 0).bind fun _ => .pure none
  | cons l rest =>
    refine (follows_kind? (l :: rest) 0).bind fun _ => ?_
    have hnaming : (some l.kind = some .name ∨ some l.kind = some .quoted) ↔ l.isNaming = true := by
      simp [Lexeme.isNaming]
    show Follows source bound
      (if some l.kind = some .name ∨ some l.kind = some .quoted then _ else _) _
      (if l.isNaming = true then _ else _)
    by_cases hl : l.isNaming = true
    · rw [if_pos hl, if_pos (hnaming.mpr hl)]
      refine (follows_bump (l :: rest)).bind fun _ => ?_
      exact follows_token rest (hs.subset List.mem_cons_self)
    · rw [if_neg hl, if_neg (mt hnaming.mp hl)]
      exact .pure none

/-- A word can be a name. -/
theorem follows_name_of_startsWith (h : Scan.startsWith .name s = true) :
    Follows source bound name s ((Scan.name s).1, s.tail) := by
  have hrest : (Scan.name s).2 = s.tail := by
    obtain ⟨l, rest, rfl, hkind⟩ := Scan.startsWith_iff.mp h
    rw [Scan.name, if_pos (by rw [Lexeme.isNaming, hkind]; rfl), List.tail_cons]
  rw [← hrest]
  exact follows_name s

theorem follows_tokenOfKind (kind : LexemeKind) :
    Follows source bound (tokenOfKind kind) s (Scan.tokenOfKind kind s) := by
  refine .of_suffix fun hs _ => (follows_eat s kind).bind fun _ => ?_
  cases s with
  | nil => exact .pure none
  | cons l rest =>
    have hkind : Scan.startsWith kind (l :: rest) = true ↔ l.kind = kind := by
      simp [Scan.startsWith, Scan.kind?]
    unfold Scan.tokenOfKind Scan.skip
    by_cases hl : l.kind = kind
    · simp only [if_pos hl, if_pos (hkind.mpr hl)]
      exact follows_token rest (hs.subset List.mem_cons_self)
    · simp only [if_neg hl, if_neg (mt hkind.mp hl)]
      exact .pure none

theorem place_takeWhile (p : LexemeKind → Bool) (hs : s <:+ lex source) :
    place source s + (((Tape.of source).marks.drop (place source s)).takeWhile (p ·.kind)).length =
      place source (s.dropWhile fun l => p l.kind) := by
  rw [drop_marks hs, List.takeWhile_map, List.length_map]
  exact (place_append List.takeWhile_append_dropWhile hs).symm

theorem follows_skipWhile (p : LexemeKind → Bool) :
    Follows source bound (skipWhile p) s ((), s.dropWhile fun l => p l.kind) := by
  intro hs _
  refine ⟨?_, List.dropWhile_suffix _⟩
  rw [skipWhile, place_takeWhile s p hs]

theorem follows_skipSeparators :
    Follows source bound skipSeparators s ((), Scan.skipSeparators s) := follows_skipWhile s _

theorem follows_continuesWith (word : String) : Follows source bound (continuesWith word) s
    (Scan.startsWithWord word (Scan.skipNewlines s),
      if Scan.startsWithWord word (Scan.skipNewlines s) then Scan.skipNewlines s else s) := by
  intro hs hbound
  have hskip : Scan.skipNewlines s <:+ s := List.dropWhile_suffix _
  have hrun : isWord 0 word (Tape.of source) (place source (Scan.skipNewlines s)) =
      .ok (Scan.startsWithWord word (Scan.skipNewlines s), place source (Scan.skipNewlines s)) :=
    (follows_isWord _ 0 word (hskip.trans hs) (Nat.le_trans hskip.length_le hbound)).1
  have hplace := place_takeWhile s (fun kind => kind = .newline) hs
  refine ⟨?_, ?_⟩
  · rw [continuesWith, hplace]
    show (isWord 0 word (Tape.of source) (place source (Scan.skipNewlines s)) >>= _) = _
    rw [hrun]
    cases Scan.startsWithWord word (Scan.skipNewlines s) <;> rfl
  · dsimp only
    split
    · exact hskip
    · exact List.suffix_refl s

/-! ### Places of what was read -/

theorem follows_spanSince {rest : List Lexeme} (hs : s <:+ lex source) (hrest : rest <:+ s) :
    Follows source bound (spanSince (place source s)) rest
      (Scan.spanUpTo (stopOf source) s rest, rest) := by
  intro _ _
  refine ⟨?_, List.suffix_refl rest⟩
  obtain ⟨taken, rfl⟩ := hrest
  have hmax : max (place source rest) (place source (taken ++ rest)) = place source rest := by
    rw [place_append rfl hs]
    exact Nat.max_eq_left (Nat.le_add_right _ _)
  rw [spanSince, hmax, spanOf_tape rfl hs, Scan.spanUpTo, Scan.upTo_append]

theorem follows_tokenSince {taken rest : List Lexeme} (happend : taken ++ rest = s)
    (hs : s <:+ lex source) : Follows source bound (tokenSince (place source s)) rest
      (Scan.tokenOf (stopOf source) taken rest, rest) := by
  intro _ _
  refine ⟨?_, List.suffix_refl rest⟩
  rw [tokenSince, tokenOf_tape happend hs]
  rfl

theorem follows_tokenUnlessEmpty {taken rest : List Lexeme} (happend : taken ++ rest = s)
    (hs : s <:+ lex source) : Follows source bound (tokenUnlessEmpty (place source s)) rest
      (Scan.tokenUnlessEmpty (stopOf source) taken rest, rest) := by
  refine (follows_here rest).bind fun _ => ?_
  have hplace := place_append happend hs
  unfold Scan.tokenUnlessEmpty
  dsimp only
  by_cases hnil : taken = []
  · rw [hnil, List.length_nil, Nat.add_zero] at hplace
    rw [if_pos hnil, if_neg (Nat.not_lt_of_ge (Nat.le_of_eq hplace))]
    exact .pure none
  · have hpos := List.length_pos_iff.mpr hnil
    rw [if_neg hnil, if_pos (by omega)]
    exact (follows_tokenSince s happend hs).map some

theorem follows_spanned {α : Type} {m : Cursor (Span → α)} {r : (Span → α) × List Lexeme}
    (h : Follows source bound m s r) : Follows source bound (spanned m) s
      (r.1 (Scan.spanUpTo (stopOf source) s r.2), r.2) := by
  refine .of_suffix fun hs _ => (follows_here s).bind fun _ => h.bind fun hrest => ?_
  exact (follows_spanSince s hs hrest).bind fun _ => .pure _

end Cursor

end SequenceDiagram
