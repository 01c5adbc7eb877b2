import SequenceDiagram.Source.Span
import SequenceDiagram.Text.CharClass

namespace SequenceDiagram

/-!
# Lexemes

`lex` splits a source into lexemes. Each lexeme carries its text, its span and the **gap** before
it: the white space and the `//` comments that were skipped. A newline is a lexeme of its own and
never part of a gap.

* `lexemeAt` decides, from its first character, what kind of lexeme starts here and how far it goes.
* A quoted text ends with its closing quote or before the end of the line; a number takes a point
  only if a digit follows; `#` needs a letter or a digit; all that is left is a lexeme of its own.
-/

/-- The kinds of lexemes. -/
inductive LexemeKind where
  | name
  | quoted
  | number
  | color
  | dot
  | comma
  | colon
  | semicolon
  | openParen
  | closeParen
  | openBrace
  | closeBrace
  | arrow
  | assign
  | doubleEqual
  | atSign
  | openStereotype
  | closeStereotype
  | newline
  | other
  deriving DecidableEq

/-- A piece of the source, with what was skipped before it. -/
structure Lexeme where
  kind : LexemeKind
  gap : List Char
  text : List Char
  span : Span
  deriving DecidableEq

/-! ### Where a lexeme ends -/

/-- How many characters follow the opening quote of a quoted text. -/
def quotedLength (rest : List Char) : Nat :=
  let body := rest.takeWhile fun c => c ≠ '"' && c ≠ '\n'
  if (rest.drop body.length).head? = some '"' then body.length + 1 else body.length

/-- How many characters follow the first digit of a number. -/
def numberLength (rest : List Char) : Nat :=
  let whole := (rest.takeWhile Char.isDigit).length
  match rest.drop whole with
  | '.' :: d :: more =>
    if d.isDigit then whole + 1 + ((d :: more).takeWhile Char.isDigit).length else whole
  | _ => whole

/-- The kind of a lexeme that is not more than two characters long, and how many characters follow
    the first. -/
def symbolAt (c : Char) (rest : List Char) : LexemeKind × Nat :=
  match c, rest with
  | '-', '>' :: _ => (.arrow, 1)
  | '=', '=' :: _ => (.doubleEqual, 1)
  | '=', _ => (.assign, 0)
  | '<', '<' :: _ => (.openStereotype, 1)
  | '>', '>' :: _ => (.closeStereotype, 1)
  | '.', _ => (.dot, 0)
  | ',', _ => (.comma, 0)
  | ':', _ => (.colon, 0)
  | ';', _ => (.semicolon, 0)
  | '(', _ => (.openParen, 0)
  | ')', _ => (.closeParen, 0)
  | '{', _ => (.openBrace, 0)
  | '}', _ => (.closeBrace, 0)
  | '@', _ => (.atSign, 0)
  | _, _ => (.other, 0)

/-- The kind of the lexeme that starts with `c`, and how many characters of `rest` belong to it. -/
def lexemeAt (c : Char) (rest : List Char) : LexemeKind × Nat :=
  if c = '\n' then (.newline, 0)
  else if c = '"' then (.quoted, quotedLength rest)
  else if isNameStart c then (.name, (rest.takeWhile isNamePart).length)
  else if c.isDigit then (.number, numberLength rest)
  else if c = '#' then
    let length := (rest.takeWhile Char.isAlphanum).length
    (if length = 0 then .other else .color, length)
  else symbolAt c rest

/-! ### The lexemes of a source -/

/-- A `//` comment starts here. -/
def startsComment (c : Char) (rest : List Char) : Bool := c == '/' && rest.head? == some '/'

/-- The lexemes of the characters from a position on; `gap` was skipped right before it. -/
def lexFrom (p : Position) (gap : List Char) : List Char → List Lexeme
  | [] => []
  | c :: rest =>
    if isBlank c && c ≠ '\n' then lexFrom (p.next c) (gap ++ [c]) rest
    else if startsComment c rest then
      let comment := c :: rest.takeWhile (· ≠ '\n')
      lexFrom (p.after comment) (gap ++ comment) (rest.dropWhile (· ≠ '\n'))
    else
      let (kind, length) := lexemeAt c rest
      let text := c :: rest.take length
      ⟨kind, gap, text, Span.ofText p text⟩ :: lexFrom (p.after text) [] (rest.drop length)
termination_by cs => cs.length
decreasing_by
  · simp
  · have : (rest.dropWhile (· ≠ '\n')).length ≤ rest.length :=
      (List.dropWhile_sublist _).length_le
    simp only [List.length_cons]; omega
  · simp only [List.length_cons, List.length_drop]; omega

/-- The lexemes of a source. -/
def lex (source : String) : List Lexeme := lexFrom .start [] source.toList

namespace Lexeme

/-- The text of some lexemes in a row, with the gaps between them. -/
def textOf : List Lexeme → List Char
  | [] => []
  | first :: rest => first.text ++ rest.flatMap fun l => l.gap ++ l.text

end Lexeme

end SequenceDiagram
