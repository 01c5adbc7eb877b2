import SequenceDiagram.Config.Yaml.Scalar
import SequenceDiagram.Config.Yaml.Tag

namespace SequenceDiagram.Yaml

/-!
# YAML tokens

`tokens?` splits a text into tokens. What indentation means has its tokens too: a block starts where
the column grows and ends where it shrinks.

* That something is a key is known only from the colon behind it. Until then it is a `PossibleKey`,
  of which there is at most one for each bracket that is open. The colon has to follow on the same
  line, at most 1024 characters behind the start of the key.
* Where a new key may start says `Scanner.keyAllowed`: at the start of a line, and behind the marks
  that are made for it.
-/

/-! ### Tokens -/

/-- A token. -/
inductive Token where
  | directive (directive : Directive)
  | documentStart
  | documentEnd
  | sequenceStart
  | mappingStart
  | blockEnd
  | flowSequenceStart
  | flowSequenceEnd
  | flowMappingStart
  | flowMappingEnd
  | item
  | comma
  | key
  | value
  | alias (name : String)
  | anchor (name : String)
  | tag (tag : Tag)
  | scalar (style : ScalarStyle) (text : String)
  deriving DecidableEq

/-! ### The state of the scanner -/

/-- Something that is a key if a colon follows: where it starts, the number of its first token, and
    whether the text makes no sense if it is none. -/
structure PossibleKey where
  line : Nat
  column : Nat
  position : Nat
  required : Bool

/-- A place in a text, and what is known there. -/
structure Scanner where
  cursor : Cursor
  tokens : Array Token
  /-- The columns of the open blocks, from the innermost. -/
  indents : List Nat
  /-- The possible key inside the innermost bracket. -/
  possibleKey : Option PossibleKey
  /-- The possible keys around each open bracket, from the innermost. -/
  outerKeys : List (Option PossibleKey)
  keyAllowed : Bool

namespace Scanner

/-- The start of a text. -/
def start (text : List Char) : Scanner := ⟨.start text, #[], [], none, [], true⟩

/-- A bracket is open. Then indentation means nothing. -/
def inFlow (s : Scanner) : Bool := !s.outerKeys.isEmpty

/-- The text ahead. -/
def text (s : Scanner) : List Char := s.cursor.text

/-- Behind a token that goes up to `rest`. -/
def emit (s : Scanner) (t : Token) (rest : List Char) : Scanner :=
  { s with tokens := s.tokens.push t, cursor := s.cursor.moveTo rest }

/-- A key may or may not start next. -/
def allowKey (s : Scanner) (allowed : Bool) : Scanner := { s with keyAllowed := allowed }

/-! ### Indentation -/

/-- The least column of what belongs to the innermost block. -/
def least (s : Scanner) : Nat :=
  match s.indents with
  | [] => 0
  | indent :: _ => indent + 1

/-- Opens a block, if the column lies deeper than the innermost one. Its token goes before the token
    number `position`. -/
def openBlock (s : Scanner) (column position : Nat) (t : Token) : Scanner :=
  if s.inFlow ∨ column < s.least then s
  else { s with
    indents := column :: s.indents
    tokens := s.tokens.insertIdxIfInBounds position t }

/-- Ends the blocks that `ends` says so of. -/
def closeBlocks (s : Scanner) (ends : Nat → Bool) : Scanner :=
  if s.inFlow then s
  else
    let closed := (s.indents.takeWhile ends).length
    { s with
      indents := s.indents.drop closed
      tokens := s.tokens ++ Array.replicate closed .blockEnd }

/-! ### Possible keys -/

/-- Forgets the possible key inside the innermost bracket, unless it has to be one. -/
def dropKey? (s : Scanner) : Option Scanner :=
  if s.possibleKey.any (·.required) then none else some { s with possibleKey := none }

/-- What starts here may be a key. At the column of a block it has to be. -/
def saveKey? (s : Scanner) : Option Scanner :=
  if s.keyAllowed then
    let key : PossibleKey :=
      { line := s.cursor.line
        column := s.cursor.column
        position := s.tokens.size
        required := !s.inFlow && s.indents.head? == some s.cursor.column }
    s.dropKey?.map fun s => { s with possibleKey := some key }
  else some s

/-- The possible key is too far away for a colon at a place to belong to it. -/
def PossibleKey.isStale (k : PossibleKey) (c : Cursor) : Bool :=
  k.line < c.line || k.column + 1024 < c.column

/-- Forgets the possible keys that are too far away, unless one of them has to be a key. -/
def dropStaleKeys? (s : Scanner) : Option Scanner :=
  let stale (k : Option PossibleKey) : Bool := k.any (PossibleKey.isStale · s.cursor)
  if (s.possibleKey :: s.outerKeys).any fun k => stale k && k.any (·.required) then none
  else
    let fresh (k : Option PossibleKey) : Option PossibleKey := if stale k then none else k
    some { s with possibleKey := fresh s.possibleKey, outerKeys := s.outerKeys.map fresh }

/-! ### Between tokens -/

/-- Skips blanks, comments and line breaks. A tab is a blank only where no key may start. -/
def skipGap (inFlow : Bool) : Nat → Bool → Cursor → Bool × Cursor
  | 0, keyAllowed, c => (keyAllowed, c)
  | fuel + 1, keyAllowed, c =>
    let c := if c.column = 0 ∧ c.text.head? = some byteOrderMark then c.next else c
    let isSkipped (x : Char) : Bool := x == ' ' || ((inFlow || !keyAllowed) && x == '\t')
    let c := c.moveTo (skipComment (c.text.dropWhile isSkipped))
    if c.text ≠ [] ∧ startsBreak c.text then skipGap inFlow fuel (keyAllowed || !inFlow) c.next
    else (keyAllowed, c)

/-- Goes on to the next token. -/
def toToken? (s : Scanner) : Option Scanner :=
  let (keyAllowed, cursor) := skipGap s.inFlow (s.text.length + 1) s.keyAllowed s.cursor
  let s := { s with cursor := cursor, keyAllowed := keyAllowed }
  s.dropStaleKeys?.map fun s => s.closeBlocks (s.cursor.column < ·)

/-! ### Single tokens -/

/-- Behind a mark that stands at the start of a line and ends all blocks. -/
def atLineStart? (s : Scanner) (t : Token) (rest : List Char) : Option Scanner :=
  (s.closeBlocks fun _ => true).dropKey?.map fun s => (s.allowKey false).emit t rest

/-- Behind an opening bracket. -/
def openBracket? (s : Scanner) (t : Token) (rest : List Char) : Option Scanner :=
  s.saveKey?.map fun s =>
    let inside := { s with possibleKey := none, outerKeys := s.possibleKey :: s.outerKeys }
    (inside.allowKey true).emit t rest

/-- Behind a closing bracket. -/
def closeBracket? (s : Scanner) (t : Token) (rest : List Char) : Option Scanner :=
  s.dropKey?.map fun s =>
    let s := match s.outerKeys with
      | [] => s
      | k :: outer => { s with possibleKey := k, outerKeys := outer }
    (s.allowKey false).emit t rest

/-- Behind a comma. -/
def comma? (s : Scanner) (rest : List Char) : Option Scanner :=
  s.dropKey?.map fun s => (s.allowKey true).emit .comma rest

/-- Behind the dash of an item. Outside of brackets it stands only where a key may. -/
def item? (s : Scanner) (rest : List Char) : Option Scanner :=
  if !s.inFlow && !s.keyAllowed then none
  else (s.openBlock s.cursor.column s.tokens.size .sequenceStart).dropKey?.map fun s =>
    (s.allowKey true).emit .item rest

/-- Behind a question mark, which announces a key. -/
def key? (s : Scanner) (rest : List Char) : Option Scanner :=
  if !s.inFlow && !s.keyAllowed then none
  else (s.openBlock s.cursor.column s.tokens.size .mappingStart).dropKey?.map fun s =>
    (s.allowKey (!s.inFlow)).emit .key rest

/-- Behind a colon. If there is a possible key, it is one. -/
def value? (s : Scanner) (rest : List Char) : Option Scanner :=
  match s.possibleKey with
  | some k =>
    let s := { s with
      possibleKey := none
      tokens := s.tokens.insertIdxIfInBounds k.position .key }
    some (((s.openBlock k.column k.position .mappingStart).allowKey false).emit .value rest)
  | none =>
    if !s.inFlow && !s.keyAllowed then none
    else
      let s := s.openBlock s.cursor.column s.tokens.size .mappingStart
      some ((s.allowKey (!s.inFlow)).emit .value rest)

/-- Behind an anchor, an alias or a tag, which may be a part of a key. -/
def property? (s : Scanner) (found : Option (Token × List Char)) : Option Scanner :=
  match found with
  | none => none
  | some (t, rest) => s.saveKey?.map fun s => (s.allowKey false).emit t rest

/-- Behind a scalar in quotes. -/
def quoted? (s : Scanner) (quote : Char) : Option Scanner :=
  s.saveKey?.bind fun s =>
    (Yaml.quoted? quote (s.text.length + 1) s.cursor.next).map fun (text, behind) =>
      { s.allowKey false with
        tokens := s.tokens.push (.scalar .quoted (.ofList text))
        cursor := behind }

/-- Behind a plain scalar. -/
def plain? (s : Scanner) : Option Scanner :=
  s.saveKey?.bind fun s =>
    (Yaml.plain? s.inFlow s.least (s.text.length + 1) s.cursor).map fun p =>
      { s.allowKey p.newLine with
        tokens := s.tokens.push (.scalar .plain (.ofList p.text))
        cursor := p.behind }

/-- Behind a block scalar. -/
def block? (s : Scanner) (style : ScalarStyle) : Option Scanner :=
  s.dropKey?.bind fun s =>
    (Yaml.block? style (s.indents.head?.getD 0) s.least s.cursor.next).map fun (text, behind) =>
      { s.allowKey true with
        tokens := s.tokens.push (.scalar style (.ofList text))
        cursor := behind }

/-! ### All tokens -/

/-- Behind the token that starts here with a character. -/
def token? (s : Scanner) (c : Char) (rest : List Char) : Option Scanner :=
  if s.cursor.column = 0 ∧ c = '%' then
    (Directive.read? rest).bind fun (d, rest) => s.atLineStart? (.directive d) rest
  else if s.cursor.isAtMarker '-' then s.atLineStart? .documentStart (s.text.drop 3)
  else if s.cursor.isAtMarker '.' then s.atLineStart? .documentEnd (s.text.drop 3)
  else if c = '[' then s.openBracket? .flowSequenceStart rest
  else if c = '\x7b' then s.openBracket? .flowMappingStart rest
  else if c = ']' then s.closeBracket? .flowSequenceEnd rest
  else if c = '\x7d' then s.closeBracket? .flowMappingEnd rest
  else if c = ',' then s.comma? rest
  else if c = '-' ∧ startsGap rest then s.item? rest
  else if c = '?' ∧ (s.inFlow ∨ startsGap rest) then s.key? rest
  else if c = ':' ∧ (s.inFlow ∨ startsGap rest) then s.value? rest
  else if c = '*' then
    s.property? ((anchorName? rest).map fun (name, rest) => (.alias (.ofList name), rest))
  else if c = '&' then
    s.property? ((anchorName? rest).map fun (name, rest) => (.anchor (.ofList name), rest))
  else if c = '!' then s.property? ((tag? s.inFlow (c :: rest)).map fun (t, rest) => (.tag t, rest))
  else if c = '|' ∧ !s.inFlow then s.block? .literal
  else if c = '>' ∧ !s.inFlow then s.block? .folded
  else if c = '\'' ∨ c = '"' then s.quoted? c
  else if startsPlain s.inFlow (c :: rest) then s.plain?
  else none

/-- The tokens of the whole text. -/
def run? (s : Scanner) : Nat → Option (Array Token)
  | 0 => none
  | fuel + 1 =>
    match s.toToken? with
    | none => none
    | some s =>
      match s.text with
      | [] => (s.closeBlocks fun _ => true).dropKey?.map (·.tokens)
      | c :: rest => (s.token? c rest).bind (·.run? fuel)

end Scanner

/-- The tokens of a text. -/
def tokens? (text : String) : Option (List Token) :=
  if text.toList.all isPrintable then
    let cs := unifyBreaks text.toList
    ((Scanner.start cs).run? (cs.length + 1)).map (·.toList)
  else none

end SequenceDiagram.Yaml
