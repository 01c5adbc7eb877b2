namespace SequenceDiagram.Yaml

/-!
# Places in a YAML text

* The classes of characters: blanks, line breaks, indicators, and what a text may hold at all.
* `unifyBreaks` writes the usual line breaks in one way. The separators of lines and of paragraphs
  break lines too, but remain themselves.
* A `Cursor` is a place in a text, with the line and the column on which all decisions about
  indentation rest.
-/

/-! ### Characters -/

/-- A space or a tab. -/
def isBlank (c : Char) : Bool := c == ' ' || c == '\t'

/-- A line break, after `unifyBreaks`. -/
def isBreak (c : Char) : Bool := c == '\n' || c == '\u2028' || c == '\u2029'

/-- A blank or a line break. -/
def isGap (c : Char) : Bool := isBlank c || isBreak c

/-- A word ends here: there is a gap or the end of the text. -/
def startsGap : List Char → Bool
  | [] => true
  | c :: _ => isGap c

/-- The line ends here. -/
def startsBreak : List Char → Bool
  | [] => true
  | c :: _ => isBreak c

/-- A bracket or a comma, which have a meaning inside brackets. -/
def isFlowMark (c : Char) : Bool :=
  c == ',' || c == '[' || c == ']' || c == '\x7b' || c == '\x7d'

/-- A character that no plain scalar starts with, unless more is known about the next one. -/
def isIndicator (c : Char) : Bool :=
  isFlowMark c || ['-', '?', ':', '#', '&', '*', '!', '|', '>', '\'', '"', '%', '@',
    '\x60'].contains c

/-- A letter or a digit of ASCII, an underscore or a dash. -/
def isNameChar (c : Char) : Bool := c.isAlphanum || c == '_' || c == '-'

/-- The mark of the byte order. -/
def byteOrderMark : Char := '\ufeff'

/-- The character may stand in a text. -/
def isPrintable (c : Char) : Bool :=
  c == '\t' || c == '\n' || c == '\r' || (' ' ≤ c && c ≤ '~') || c == '\u0085' ||
    ('\u00a0' ≤ c && c ≤ '\ufffd') || 0x10000 ≤ c.toNat

/-- Writes a carriage return, alone or before a line feed, and the next line character as a line
    feed. -/
def unifyBreaks : List Char → List Char
  | '\r' :: '\n' :: rest => '\n' :: unifyBreaks rest
  | '\r' :: rest => '\n' :: unifyBreaks rest
  | '\u0085' :: rest => '\n' :: unifyBreaks rest
  | c :: rest => c :: unifyBreaks rest
  | [] => []

/-! ### Pieces of a text -/

/-- The text behind blanks. -/
def skipBlanks (cs : List Char) : List Char := cs.dropWhile isBlank

/-- The text behind a comment, if one starts here. -/
def skipComment (cs : List Char) : List Char :=
  if cs.head? = some '#' then cs.dropWhile (!isBreak ·) else cs

/-- The start of the next line, if only blanks and a comment are left on this one. -/
def nextLine? (cs : List Char) : Option (List Char) :=
  match skipComment (skipBlanks cs) with
  | [] => some []
  | c :: rest => if isBreak c then some rest else none

/-! ### Cursors -/

/-- A place in a text: what lies ahead, and the line and the column of its first character. -/
structure Cursor where
  text : List Char
  line : Nat
  column : Nat

namespace Cursor

/-- The start of a text. -/
def start (text : List Char) : Cursor := ⟨text, 0, 0⟩

/-- The place behind one more character. -/
def next (c : Cursor) : Cursor :=
  match c.text with
  | [] => c
  | x :: rest => if isBreak x then ⟨rest, c.line + 1, 0⟩ else ⟨rest, c.line, c.column + 1⟩

/-- The place behind some more characters. -/
def skip (c : Cursor) : Nat → Cursor
  | 0 => c
  | n + 1 => c.next.skip n

/-- The place where `rest`, which is an end of the text, starts. -/
def moveTo (c : Cursor) (rest : List Char) : Cursor := c.skip (c.text.length - rest.length)

/-- Three times this mark stands alone at the start of the line. -/
def isAtMarker (c : Cursor) (mark : Char) : Bool :=
  c.column == 0 && [mark, mark, mark].isPrefixOf c.text && startsGap (c.text.drop 3)

/-- A mark that starts or ends a document stands here. -/
def isAtDocumentMarker (c : Cursor) : Bool := c.isAtMarker '-' || c.isAtMarker '.'

end Cursor

end SequenceDiagram.Yaml
