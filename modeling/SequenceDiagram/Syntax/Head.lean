import SequenceDiagram.Syntax.Scan

namespace SequenceDiagram

open Syntax

/-!
# The head of a source

The head goes on as long as a starter, a group or a declaration comes next.

* A starter is `@Starter(`, in any case, with a name.
* A group is `group {` or `group name {`; inside its braces everything that is not a declaration is
  passed over.
* A declaration starts with `@`, with `<<`, or with a name that is no keyword and that what follows
  does not make a statement.
-/

namespace Head

/-- The words that start a statement of their own. -/
def keywords : List String :=
  ["if", "else", "while", "for", "forEach", "foreach", "loop", "par", "opt", "critical", "section",
    "try", "catch", "finally", "return", "new", "ref", "group"]

/-- The word is `starter`, in any case. -/
def isStarterWord (word : String) : Bool :=
  String.ofList (word.toList.map Char.toLower) = "starter"

/-- A starter comes next. -/
def atStarter (s : List Lexeme) : Bool :=
  Scan.startsWith .atSign s && (Scan.word? s.tail).any isStarterWord &&
    Scan.startsWith .openParen (s.drop 2)

/-- A group comes next. -/
def atGroup (s : List Lexeme) : Bool :=
  Scan.startsWithWord "group" s && (Scan.startsWith .openBrace s.tail ||
    (Scan.startsWith .name s.tail && Scan.startsWith .openBrace (s.drop 2)))

/-- A name followed by this can be a declaration. -/
def canFollowName (s : List Lexeme) : Bool :=
  match Scan.kind? s with
  | none => true
  | some .newline => true
  | some .semicolon => true
  | some .color => true
  | some .number => true
  | some .quoted => true
  | some .atSign => true
  | some .closeBrace => true
  | some .openStereotype => true
  | some .name => Scan.startsWithWord "as" s || !Scan.startsWith .assign s.tail
  | _ => false

/-- A declaration comes next. -/
def atDeclaration (s : List Lexeme) : Bool :=
  match Scan.kind? s with
  | some .atSign => (Scan.word? s.tail).any fun w => w ≠ "return" && !isStarterWord w
  | some .openStereotype => true
  | some .name => !(Scan.word? s).any (keywords.contains ·) && canFollowName s.tail
  | some .quoted => canFollowName s.tail
  | _ => false

/-- Reads a starter. -/
def starter (endOfInput : Span) (s : List Lexeme) : Starter × List Lexeme :=
  let (name, rest) := Scan.name (s.drop 3)
  let rest := Scan.skip .closeParen rest
  (⟨name, Scan.spanUpTo endOfInput s rest⟩, rest)

/-- Reads `@` and the type of a participant. -/
def participantType (s : List Lexeme) : Option Token × List Lexeme :=
  if Scan.startsWith .atSign s && Scan.startsWith .name s.tail then Scan.name s.tail else (none, s)

/-- Reads a stereotype up to its end or the end of the line. -/
def stereotype (endOfInput : Span) (s : List Lexeme) : Option Token × List Lexeme :=
  if Scan.startsWith .openStereotype s then
    let inner := fun l : Lexeme => l.kind ≠ .closeStereotype && l.kind ≠ .newline
    let taken := s.tail.takeWhile inner
    let rest := s.tail.dropWhile inner
    (some (Scan.tokenOf endOfInput taken rest), Scan.skip .closeStereotype rest)
  else (none, s)

/-- Reads `as` and a label. -/
def label (s : List Lexeme) : Option Token × List Lexeme :=
  if Scan.startsWithWord "as" s then Scan.name s.tail else (none, s)

/-- Reads a declaration. -/
def declaration (endOfInput : Span) (s : List Lexeme) : Declaration × List Lexeme :=
  let (type, rest) := participantType s
  let (stereotype, rest) := stereotype endOfInput rest
  let (name, rest) := Scan.name rest
  let (label, rest) := label rest
  let (color, rest) := Scan.tokenOfKind .color rest
  let (width, rest) := Scan.tokenOfKind .number rest
  (⟨name, type, stereotype, label, color, width, Scan.spanUpTo endOfInput s rest⟩, rest)

/-- Reads the declarations of a group up to its closing brace; at most `fuel` lexemes are left. -/
def members (endOfInput : Span) : Nat → List Lexeme → List Declaration × List Lexeme
  | 0, s => ([], s)
  | fuel + 1, s =>
    let s := Scan.skipSeparators s
    if s = [] || Scan.startsWith .closeBrace s then ([], s)
    else if atDeclaration s then
      let (first, rest) := declaration endOfInput s
      let (others, rest) := members endOfInput fuel rest
      (first :: others, rest)
    else members endOfInput fuel s.tail

/-- Reads a group. -/
def group (endOfInput : Span) (s : List Lexeme) : Group × List Lexeme :=
  let (name, rest) := Scan.tokenOfKind .name s.tail
  let rest := Scan.skip .openBrace rest
  let (members, rest) := members endOfInput (rest.length + 1) rest
  let rest := Scan.skip .closeBrace rest
  (⟨name, members, Scan.spanUpTo endOfInput s rest⟩, rest)

/-- Reads the entries of the head; at most `fuel` lexemes are left. The last starter counts. -/
def entries (endOfInput : Span) : Nat → Syntax.Head → List Lexeme → Syntax.Head × List Lexeme
  | 0, head, s => (head, s)
  | fuel + 1, head, s =>
    let s := Scan.skipSeparators s
    if atStarter s then
      let (starter, rest) := starter endOfInput s
      entries endOfInput fuel { head with starter := some starter } rest
    else if atGroup s then
      let (group, rest) := group endOfInput s
      entries endOfInput fuel { head with items := head.items ++ [.group group] } rest
    else if atDeclaration s then
      let (declaration, rest) := declaration endOfInput s
      entries endOfInput fuel { head with items := head.items ++ [.participant declaration] } rest
    else (head, s)

/-- Reads the head; a head without entries is none. -/
def ofLexemes (endOfInput : Span) (s : List Lexeme) : Option Syntax.Head × List Lexeme :=
  let (head, rest) := entries endOfInput (s.length + 1) ⟨[], none⟩ s
  (if head.items.isEmpty && head.starter.isNone then none else some head, rest)

end Head

end SequenceDiagram
