import SequenceDiagram.Source.Lexeme
import SequenceDiagram.Syntax.Tree
import SequenceDiagram.Text.Display

namespace SequenceDiagram

/-!
# Reading from the front of a list of lexemes

Every reader takes a list of lexemes and gives back what it read together with the lexemes that are
left, which are always the end of the list it was given.

* `spanOf` and `tokenOf` give the place and the text of the lexemes that a reader took. A reader
  that took nothing stands right before the next lexeme, or at the end of the input.
* `takeNested` takes lexemes up to a stop, `balanced` up to a closing parenthesis. Both count the
  brackets that they open and leave a closing brace that is not theirs.
-/

/-! ### Single lexemes -/

namespace Lexeme

/-- The lexeme as a token: quotes around the text go. -/
def token (l : Lexeme) : Token := ⟨String.ofList (unquoteChars l.text), l.span⟩

/-- The lexeme as a word, if it is one. -/
def word? (l : Lexeme) : Option String :=
  if l.kind = .name then some (String.ofList l.text) else none

/-- The lexeme can name a participant or a method. -/
def isNaming (l : Lexeme) : Bool := l.kind = .name || l.kind = .quoted

/-- The lexeme separates statements. -/
def isSeparator (l : Lexeme) : Bool := l.kind = .newline || l.kind = .semicolon

end Lexeme

namespace Scan

/-- The kind of the next lexeme. -/
def kind? (s : List Lexeme) : Option LexemeKind := s.head?.map (·.kind)

/-- The next lexeme is of this kind. -/
def startsWith (kind : LexemeKind) (s : List Lexeme) : Bool := kind? s = some kind

/-- The next lexeme, if it is a word. -/
def word? (s : List Lexeme) : Option String := s.head?.bind Lexeme.word?

/-- The next lexeme is this word. -/
def startsWithWord (word : String) (s : List Lexeme) : Bool := word? s = some word

/-- What is left behind a lexeme of this kind, if one comes next. -/
def skip (kind : LexemeKind) (s : List Lexeme) : List Lexeme :=
  if startsWith kind s then s.tail else s

/-- The next lexeme as a token, if it is of this kind. -/
def tokenOfKind (kind : LexemeKind) : List Lexeme → Option Token × List Lexeme
  | [] => (none, [])
  | l :: rest => if l.kind = kind then (some l.token, rest) else (none, l :: rest)

/-- The next lexeme as a name, if it can be one. -/
def name : List Lexeme → Option Token × List Lexeme
  | [] => (none, [])
  | l :: rest => if l.isNaming then (some l.token, rest) else (none, l :: rest)

/-- What is left behind the separators. -/
def skipSeparators (s : List Lexeme) : List Lexeme := s.dropWhile Lexeme.isSeparator

/-- What is left behind the newlines. -/
def skipNewlines (s : List Lexeme) : List Lexeme := s.dropWhile (·.kind = .newline)

/-- What is left behind a word that comes next, or comes first on a later line. -/
def skipToWord? (word : String) (s : List Lexeme) : Option (List Lexeme) :=
  if startsWithWord word (skipNewlines s) then some (skipNewlines s).tail else none

/-! ### Several lexemes -/

/-- Where the lexemes `taken` stand, with `rest` behind them. -/
def spanOf (endOfInput : Span) (taken rest : List Lexeme) : Span :=
  match taken.head?, taken.getLast? with
  | some first, some last => first.span.join last.span
  | _, _ =>
    match rest with
    | next :: _ => next.span.empty
    | [] => endOfInput

/-- The source text of the lexemes `taken`, with `rest` behind them. -/
def tokenOf (endOfInput : Span) (taken rest : List Lexeme) : Token :=
  ⟨String.ofList (Lexeme.textOf taken), spanOf endOfInput taken rest⟩

/-- The lexemes of `s` before `rest`, which is an end of `s`. -/
def upTo (s rest : List Lexeme) : List Lexeme := s.take (s.length - rest.length)

/-- Where the lexemes of `s` before `rest` stand. -/
def spanUpTo (endOfInput : Span) (s rest : List Lexeme) : Span :=
  spanOf endOfInput (upTo s rest) rest

/-- The taken lexemes as a token, unless there are none. -/
def tokenUnlessEmpty (endOfInput : Span) (taken rest : List Lexeme) : Option Token :=
  if taken = [] then none else some (tokenOf endOfInput taken rest)

/-- Puts a lexeme in front of what was taken. -/
def push (l : Lexeme) (p : List Lexeme × List Lexeme) : List Lexeme × List Lexeme :=
  (l :: p.1, p.2)

/-- Takes lexemes up to one that `stops` says no to, or up to a brace that closes what was open
    before. `stops` is told the kind and whether all braces opened on the way are closed again,
    `depth` counts those that are not. -/
def takeNested (stops : LexemeKind → Bool → Bool) (depth : Nat) :
    List Lexeme → List Lexeme × List Lexeme
  | [] => ([], [])
  | l :: rest =>
    if stops l.kind (depth = 0) then ([], l :: rest)
    else match l.kind, depth with
      | .closeBrace, 0 => ([], l :: rest)
      | .closeBrace, depth + 1 => push l (takeNested stops depth rest)
      | .openBrace, depth => push l (takeNested stops (depth + 1) rest)
      | _, depth => push l (takeNested stops depth rest)

/-- Takes the rest of a statement that was not understood. -/
def restOfStatement (s : List Lexeme) : List Lexeme × List Lexeme :=
  takeNested (fun kind top => top && (kind = .newline || kind = .semicolon)) 0 s

/-- Takes the rest of a line, or only the part before a semicolon. -/
def restOfLine (upToSemicolon : Bool) (s : List Lexeme) : List Lexeme × List Lexeme :=
  takeNested (fun kind top => kind = .newline || (upToSemicolon && top && kind = .semicolon)) 0 s

/-- Takes lexemes up to the parenthesis that closes the one before them, or up to a brace; `depth`
    counts the parentheses opened on the way. -/
def balanced (depth : Nat) : List Lexeme → List Lexeme × List Lexeme
  | [] => ([], [])
  | l :: rest =>
    match l.kind, depth with
    | .openBrace, _ => ([], l :: rest)
    | .closeBrace, _ => ([], l :: rest)
    | .closeParen, 0 => ([], l :: rest)
    | .closeParen, depth + 1 => push l (balanced depth rest)
    | .openParen, depth => push l (balanced (depth + 1) rest)
    | _, depth => push l (balanced depth rest)

/-! ### What was taken and what is left -/

theorem upTo_append (taken rest : List Lexeme) : upTo (taken ++ rest) rest = taken := by
  simp [upTo]

theorem takeNested_append (stops : LexemeKind → Bool → Bool) (depth : Nat) (s : List Lexeme) :
    (takeNested stops depth s).1 ++ (takeNested stops depth s).2 = s := by
  fun_induction takeNested stops depth s <;> simp_all [push]

theorem balanced_append (depth : Nat) (s : List Lexeme) :
    (balanced depth s).1 ++ (balanced depth s).2 = s := by
  fun_induction balanced depth s <;> simp_all [push]

end Scan

end SequenceDiagram
