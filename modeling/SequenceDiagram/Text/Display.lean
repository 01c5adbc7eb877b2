import SequenceDiagram.Text.CharClass

namespace SequenceDiagram

/-!
# Display text

How raw source text becomes a name or a label:

* `sanitize` keeps the characters that XML allows, and `sanitizedLength` counts them;
* `unquote` strips white space and one pair of double quotes around the rest;
* `displayText` puts the text on a single line with tight punctuation, so that
  `B.method( a ,` / ` b )` becomes `B.method(a, b)`.

All steps are functions on lists of characters.
-/

/-! ### Cleaning -/

/-- The text without the characters that XML does not allow. -/
def sanitize (text : String) : String := String.ofList (text.toList.filter isXmlChar)

/-- How many characters `sanitize` keeps. -/
def sanitizedLength (text : String) : Nat := text.toList.countP isXmlChar

/-- The characters without the white space at either end. -/
def trimChars (cs : List Char) : List Char :=
  ((cs.dropWhile isBlank).reverse.dropWhile isBlank).reverse

/-- The trimmed characters, without the quotes if they start and end with one each. -/
def unquoteChars (cs : List Char) : List Char :=
  match trimChars cs with
  | '"' :: rest => if rest.getLast? = some '"' then rest.dropLast else '"' :: rest
  | trimmed => trimmed

/-- The trimmed text, without the double quotes around it. -/
def unquote (text : String) : String := String.ofList (unquoteChars text.toList)

/-! ### One line with tight punctuation -/

/-- A parenthesis, a comma or a point. -/
def isTight (c : Char) : Bool := c == '(' || c == ')' || c == ',' || c == '.'

/-- The first character exists and satisfies `p`. -/
def startsWith (p : Char → Bool) : List Char → Bool
  | [] => false
  | c :: _ => p c

/-- Each run of white space becomes one space. -/
def collapseBlanks : List Char → List Char
  | [] => []
  | c :: rest =>
    if isBlank c then
      if startsWith isBlank rest then collapseBlanks rest else ' ' :: collapseBlanks rest
    else c :: collapseBlanks rest

/-- White space next to tight punctuation goes; `afterTight` says that the character before was
    such punctuation. -/
def tightenFrom (afterTight : Bool) : List Char → List Char
  | [] => []
  | c :: rest =>
    if isBlank c && (afterTight || startsWith isTight (rest.dropWhile isBlank)) then
      tightenFrom afterTight rest
    else c :: tightenFrom (isTight c) rest

/-- A space goes after each comma. -/
def spaceCommas (cs : List Char) : List Char :=
  cs.flatMap fun c => if c = ',' then [',', ' '] else [c]

/-- The display form of a list of characters. -/
def displayChars (cs : List Char) : List Char :=
  trimChars (spaceCommas (tightenFrom false (collapseBlanks (unquoteChars (cs.filter isXmlChar)))))

/-- The display form of a text: clean, unquoted, on one line, with tight punctuation. -/
def displayText (text : String) : String := String.ofList (displayChars text.toList)

end SequenceDiagram
