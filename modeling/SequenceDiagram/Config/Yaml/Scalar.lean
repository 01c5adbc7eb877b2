import SequenceDiagram.Config.Yaml.Cursor
import SequenceDiagram.Text.Hexadecimal

namespace SequenceDiagram.Yaml

/-!
# Scalars in YAML

* `plain?` reads a plain scalar, `quoted?` one in quotes. Both consist of words and of the gaps
  between them; `gapText` says what a gap stands for.
* `block?` reads the lines behind a `|` or a `>`; `blockText` puts them together.
-/

/-- How a scalar is written. -/
inductive ScalarStyle where
  | plain
  | quoted
  | literal
  | folded
  deriving DecidableEq

/-! ### Gaps -/

/-- What a gap between two words stands for: blanks on one line for themselves; else the line breaks
    for themselves, except that a first line feed is dropped, or is a space if nothing follows. -/
def gapText (gap : List Char) : List Char :=
  match gap.filter isBreak with
  | [] => gap
  | ['\n'] => [' ']
  | '\n' :: more => more
  | breaks => breaks

/-- The lines of a text, without their breaks. -/
def linesOf : List Char → List (List Char)
  | [] => [[]]
  | c :: rest =>
    if isBreak c then [] :: linesOf rest
    else match linesOf rest with
      | [] => [[c]]
      | line :: lines => (c :: line) :: lines

/-- A tab stands where only spaces may: in the first columns of a line that starts in the gap. -/
def abusesTabs (indent : Nat) (gap : List Char) : Bool :=
  (linesOf gap).tail.any fun line => (line.take indent).contains '\t'

/-! ### Plain scalars -/

/-- A plain scalar starts here. A dash, a question mark or a colon belongs to it if no gap follows;
    inside brackets only the dash does. -/
def startsPlain (inFlow : Bool) : List Char → Bool
  | [] => false
  | c :: rest =>
    !(isGap c || isIndicator c) || (c == '-' && !startsGap rest) ||
      (!inFlow && (c == '?' || c == ':') && !startsGap rest)

/-- A word of a plain scalar. It ends at a gap, at a colon before a gap, and inside brackets at a
    comma or a bracket. No colon may stand before one of these, nor before a question mark. -/
def plainWord? (inFlow : Bool) : List Char → Option (List Char × List Char)
  | [] => some ([], [])
  | c :: rest =>
    if inFlow && c == ':' && rest.head?.any (fun d => isFlowMark d || d == '?') then none
    else if isGap c || (c == ':' && startsGap rest) || (inFlow && isFlowMark c) then
      some ([], c :: rest)
    else (plainWord? inFlow rest).map fun (word, rest) => (c :: word, rest)

/-- A plain scalar that was read: its text, whether the line changed behind it, and what follows. -/
structure PlainScalar where
  text : List Char
  newLine : Bool
  behind : Cursor

/-- Reads a plain scalar. It ends before a comment, before a mark of a document, and outside of
    brackets before a line that is indented by less than `indent`. -/
def plain? (inFlow : Bool) (indent : Nat) : Nat → Cursor → Option PlainScalar
  | 0, _ => none
  | fuel + 1, c =>
    match plainWord? inFlow c.text with
    | none => none
    | some (word, rest) =>
      let (gap, rest) := rest.span isGap
      let next := c.moveTo rest
      let ends := gap.isEmpty || next.isAtDocumentMarker || rest.head? == some '#' ||
        (!inFlow && next.column < indent)
      if abusesTabs indent gap then none
      else if ends then some ⟨word, gap.any isBreak, next⟩
      else match plain? inFlow indent fuel next with
        | none => none
        | some more =>
          if more.text = [] then some ⟨word, gap.any isBreak, more.behind⟩
          else some { more with text := word ++ gapText gap ++ more.text }

/-! ### Scalars in quotes -/

/-- The escapes of one character. -/
def simpleEscapes : List (Char × Char) :=
  [('0', '\x00'), ('a', '\x07'), ('b', '\x08'), ('t', '\t'), ('\t', '\t'), ('n', '\n'),
    ('v', '\x0b'), ('f', '\x0c'), ('r', '\r'), ('e', '\x1b'), (' ', ' '), ('"', '"'), ('/', '/'),
    ('\\', '\\'), ('N', '\u0085'), ('_', '\u00a0'), ('L', '\u2028'), ('P', '\u2029')]

/-- Puts a character, if there is one, in front of a word. -/
def pushChar (c : Option Char) (word : Option (List Char × List Char)) :
    Option (List Char × List Char) :=
  match c, word with
  | some c, some (word, rest) => some (c :: word, rest)
  | _, _ => none

/-- A word between double quotes, with its escapes resolved. It ends before a quote, a gap or a
    backslash at the end of the line. -/
def doubleQuotedWord? : List Char → Option (List Char × List Char)
  | [] => some ([], [])
  | '\\' :: 'x' :: a :: b :: rest => pushChar (codePoint? [a, b]) (doubleQuotedWord? rest)
  | '\\' :: 'u' :: a :: b :: c :: d :: rest =>
    pushChar (codePoint? [a, b, c, d]) (doubleQuotedWord? rest)
  | '\\' :: 'U' :: a :: b :: c :: d :: e :: f :: g :: h :: rest =>
    pushChar (codePoint? [a, b, c, d, e, f, g, h]) (doubleQuotedWord? rest)
  | '\\' :: c :: rest =>
    if isBreak c then some ([], '\\' :: c :: rest)
    else pushChar (simpleEscapes.lookup c) (doubleQuotedWord? rest)
  | c :: rest =>
    if c == '\\' then none
    else if c == '"' || isGap c then some ([], c :: rest)
    else pushChar (some c) (doubleQuotedWord? rest)

/-- A word between single quotes, in which two quotes stand for one. It ends before a quote or a
    gap. -/
def singleQuotedWord : List Char → List Char × List Char
  | '\'' :: '\'' :: rest =>
    let (word, rest) := singleQuotedWord rest
    ('\'' :: word, rest)
  | c :: rest =>
    if c == '\'' || isGap c then ([], c :: rest)
    else
      let (word, rest) := singleQuotedWord rest
      (c :: word, rest)
  | [] => ([], [])

/-- A word between quotes. -/
def quotedWord? (quote : Char) (cs : List Char) : Option (List Char × List Char) :=
  if quote == '"' then doubleQuotedWord? cs else some (singleQuotedWord cs)

/-- What the gap behind a word in quotes stands for, and the text behind it. A backslash joins the
    next line without a space. -/
def quotedGap : List Char → List Char × List Char
  | '\\' :: rest =>
    let (gap, rest) := rest.tail.span isGap
    (gap.filter isBreak, rest)
  | rest =>
    let (gap, rest) := rest.span isGap
    (gapText gap, rest)

/-- Reads a scalar in quotes, from behind the opening one. No mark of a document stands in it. -/
def quoted? (quote : Char) : Nat → Cursor → Option (List Char × Cursor)
  | 0, _ => none
  | fuel + 1, c =>
    if c.isAtDocumentMarker then none
    else match quotedWord? quote c.text with
      | none => none
      | some (_, []) => none
      | some (word, end_ :: rest) =>
        if end_ == quote then some (word, c.moveTo rest)
        else
          let (gap, rest) := quotedGap (end_ :: rest)
          (quoted? quote fuel (c.moveTo rest)).map fun (more, behind) =>
            (word ++ gap ++ more, behind)

/-! ### Block scalars -/

/-- What becomes of the line breaks at the end of a block scalar. -/
inductive Chomping where
  | strip
  | clip
  | keep
  deriving DecidableEq

/-- The chomping that a sign asks for. -/
def Chomping.ofSign? (c : Char) : Option Chomping :=
  if c == '+' then some .keep else if c == '-' then some .strip else none

/-- Reads a sign. -/
def chomping (cs : List Char) : Chomping × List Char :=
  match cs.head?.bind Chomping.ofSign? with
  | some sign => (sign, cs.tail)
  | none => (.clip, cs)

/-- Reads a digit, which is not zero; without one the indentation is zero. -/
def indentation? (cs : List Char) : Option (Nat × List Char) :=
  match cs with
  | [] => some (0, [])
  | c :: rest =>
    if c == '0' then none
    else if c.isDigit then some (c.toNat - '0'.toNat, rest)
    else some (0, c :: rest)

/-- Reads what follows `|` or `>` on its line: a sign and a digit in any order. -/
def blockHeader? (cs : List Char) : Option (Chomping × Nat × List Char) :=
  match indentation? cs with
  | none => none
  | some (0, rest) =>
    let (sign, rest) := chomping rest
    if rest.length = cs.length then (nextLine? rest).map (sign, 0, ·)
    else match indentation? rest with
      | none => none
      | some (indent, rest) => (nextLine? rest).map (sign, indent, ·)
  | some (indent, rest) =>
    let (sign, rest) := chomping rest
    (nextLine? rest).map (sign, indent, ·)

/-- Empty lines: their breaks, the deepest column that they or the next line reach, the column at
    which the next line goes on, and the text from there. -/
structure BlockGap where
  breaks : List Char
  deepest : Nat
  column : Nat
  rest : List Char

/-- Skips empty lines, and the indentation of the next. As long as it is not known, which is written
    as zero, all spaces belong to it. No tab stands in it. -/
def blockGap? (indent : Nat) : Nat → List Char → Option BlockGap
  | 0, _ => none
  | fuel + 1, cs =>
    let spaces := (cs.takeWhile (· == ' ')).length
    let column := if indent = 0 then spaces else min spaces indent
    match cs.drop column with
    | [] => some ⟨[], column, column, []⟩
    | c :: rest =>
      if c == '\t' && (indent == 0 || column < indent) then none
      else if isBreak c then
        (blockGap? indent fuel rest).map fun g =>
          { g with breaks := c :: g.breaks, deepest := max column g.deepest }
      else some ⟨[], column, column, c :: rest⟩

/-- A line of a block scalar, its break, and the breaks of the empty lines behind it. -/
structure BlockLine where
  text : List Char
  ending : List Char
  emptyLines : List Char

/-- Reads the lines that are indented by `indent`. -/
def blockLines? (indent : Nat) : Nat → BlockGap → Option (List BlockLine × List Char)
  | 0, _ => none
  | fuel + 1, g =>
    if g.column = indent ∧ g.rest ≠ [] then
      let (text, rest) := g.rest.span (!isBreak ·)
      match blockGap? indent (rest.length + 1) (rest.drop 1) with
      | none => none
      | some next =>
        (blockLines? indent fuel next).map fun (lines, rest') =>
          (⟨text, rest.take 1, next.breaks⟩ :: lines, rest')
    else some ([], g.rest)

/-- What stands between two lines. Folding drops the line feed between two lines that do not start
    with a blank, or makes a space of it if no empty line follows. -/
def BlockLine.separator (style : ScalarStyle) (line next : BlockLine) : List Char :=
  if style = .folded ∧ line.ending = ['\n'] ∧ !line.text.head?.any isBlank ∧
      !next.text.head?.any isBlank then
    if line.emptyLines = [] then [' '] else line.emptyLines
  else line.ending ++ line.emptyLines

/-- The lines of a block scalar as one text. -/
def blockText (style : ScalarStyle) (chomping : Chomping) : List BlockLine → List Char
  | [] => []
  | [last] =>
    last.text ++ match chomping with
      | .strip => []
      | .clip => last.ending
      | .keep => last.ending ++ last.emptyLines
  | line :: next :: rest =>
    line.text ++ line.separator style next ++ blockText style chomping (next :: rest)

/-- Reads a block scalar, from behind its indicator. `least` is the least indentation that its lines
    have if none is given, and `base` is what a given one adds to. -/
def block? (style : ScalarStyle) (base least : Nat) (c : Cursor) : Option (List Char × Cursor) :=
  match blockHeader? c.text with
  | none => none
  | some (chomping, increment, rest) =>
    let given := if increment = 0 then 0 else base + increment
    match blockGap? given (rest.length + 1) rest with
    | none => none
    | some first =>
      let indent := if given = 0 then max first.deepest (max least 1) else given
      match blockLines? indent (rest.length + 1) first with
      | none => none
      | some (lines, rest) =>
        let leading := if lines = [] ∧ chomping ≠ .keep then [] else first.breaks
        some (leading ++ blockText style chomping lines, c.moveTo rest)

end SequenceDiagram.Yaml
