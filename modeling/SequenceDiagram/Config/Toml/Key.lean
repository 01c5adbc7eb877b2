import SequenceDiagram.Config.Toml.Scalar

namespace SequenceDiagram.Toml

/-!
# Blanks, strings and keys in TOML

* `skipBlanks`, `skipComment?` and `skipLines?` find what comes next.
* `basicString?` and `literalString?` read strings, which may be keys; `behindString?` finds the end
  of any string. Of the strings over several lines nothing but their form matters.
* `keyPath?` reads a key, which is a path if it has dots.
-/

/-! ### Blanks and comments -/

/-- A character that may stand in a comment or a string as it is. -/
def isPlain (c : Char) : Bool := c == '\t' || (' ' ≤ c && c ≠ '\x7f')

/-- The text behind blanks. -/
def skipBlanks (cs : List Char) : List Char := cs.dropWhile fun c => c == ' ' || c == '\t'

/-- The text behind blanks and a comment, which ends with the line. -/
def skipComment? (cs : List Char) : Option (List Char) :=
  match skipBlanks cs with
  | '#' :: rest =>
    let (comment, rest) := rest.span (· ≠ '\n')
    if comment.all isPlain then some rest else none
  | rest => some rest

/-- The text behind the end of the line. -/
def endOfLine? (cs : List Char) : Option (List Char) :=
  match skipComment? cs with
  | some ('\n' :: rest) => some rest
  | some [] => some []
  | _ => none

/-- The text behind blanks, comments and line ends. -/
def skipLines? (fuel : Nat) (cs : List Char) : Option (List Char) :=
  match fuel, skipComment? cs with
  | fuel + 1, some ('\n' :: rest) => skipLines? fuel rest
  | _, result => result

/-! ### Strings -/

/-- The escapes of one character. -/
def simpleEscapes : List (Char × Char) :=
  [('b', '\x08'), ('t', '\t'), ('n', '\n'), ('f', '\x0c'), ('r', '\r'), ('e', '\x1b'),
    ('"', '"'), ('\\', '\\')]

/-- The rest of a string in double quotes, with its escapes resolved, and the text behind it. -/
def basicString? : List Char → Option (List Char × List Char)
  | [] => none
  | '"' :: rest => some ([], rest)
  | '\\' :: 'x' :: a :: b :: rest => escaped (codePoint? [a, b]) (basicString? rest)
  | '\\' :: 'u' :: a :: b :: c :: d :: rest =>
    escaped (codePoint? [a, b, c, d]) (basicString? rest)
  | '\\' :: 'U' :: a :: b :: c :: d :: e :: f :: g :: h :: rest =>
    escaped (codePoint? [a, b, c, d, e, f, g, h]) (basicString? rest)
  | '\\' :: c :: rest => escaped (simpleEscapes.lookup c) (basicString? rest)
  | c :: rest => escaped (if isPlain c then some c else none) (basicString? rest)
where
  escaped (c : Option Char) (rest : Option (List Char × List Char)) :
      Option (List Char × List Char) :=
    match c, rest with
    | some c, some (cs, rest) => some (c :: cs, rest)
    | _, _ => none

/-- The rest of a string in single quotes and the text behind it. -/
def literalString? (cs : List Char) : Option (List Char × List Char) :=
  match cs.span (· ≠ '\'') with
  | (text, _ :: rest) => if text.all isPlain then some (text, rest) else none
  | (_, []) => none

/-- The text behind the quotes that end a string over several lines: three, and up to two that
    belong to the string. -/
def behindQuotes (quote : Char) (cs : List Char) : List Char :=
  cs.drop (min 5 (cs.takeWhile (· == quote)).length)

/-- Only blanks are left on the line. -/
def endsLine (cs : List Char) : Bool := (skipBlanks cs).head? == some '\n'

/-- The text behind the rest of a string over several lines in double quotes. A backslash at the end
    of a line joins the next one. -/
def behindLongBasic? : List Char → Option (List Char)
  | [] => none
  | '"' :: '"' :: '"' :: rest => some (behindQuotes '"' ('"' :: '"' :: '"' :: rest))
  | '\\' :: 'x' :: a :: b :: rest =>
    if (codePoint? [a, b]).isSome then behindLongBasic? rest else none
  | '\\' :: 'u' :: a :: b :: c :: d :: rest =>
    if (codePoint? [a, b, c, d]).isSome then behindLongBasic? rest else none
  | '\\' :: 'U' :: a :: b :: c :: d :: e :: f :: g :: h :: rest =>
    if (codePoint? [a, b, c, d, e, f, g, h]).isSome then behindLongBasic? rest else none
  | '\\' :: c :: rest =>
    if (simpleEscapes.lookup c).isSome || endsLine (c :: rest) then behindLongBasic? rest else none
  | c :: rest => if isPlain c || c == '\n' then behindLongBasic? rest else none

/-- The text behind the rest of a string over several lines in single quotes. -/
def behindLongLiteral? : List Char → Option (List Char)
  | [] => none
  | '\'' :: '\'' :: '\'' :: rest => some (behindQuotes '\'' ('\'' :: '\'' :: '\'' :: rest))
  | c :: rest => if isPlain c || c == '\n' then behindLongLiteral? rest else none

/-- The text behind a string, if one starts here. -/
def behindString? : List Char → Option (List Char)
  | '"' :: '"' :: '"' :: rest => behindLongBasic? rest
  | '\'' :: '\'' :: '\'' :: rest => behindLongLiteral? rest
  | '"' :: rest => (basicString? rest).map (·.2)
  | '\'' :: rest => (literalString? rest).map (·.2)
  | _ => none

/-! ### Keys -/

/-- A key without dots. -/
def simpleKey? : List Char → Option (String × List Char)
  | '"' :: rest => (basicString? rest).map fun (key, rest) => (.ofList key, rest)
  | '\'' :: rest => (literalString? rest).map fun (key, rest) => (.ofList key, rest)
  | cs =>
    let (key, rest) := cs.span isBareKey
    if key = [] then none else some (.ofList key, rest)

/-- A key with dots, between blanks. -/
def keyPath? (fuel : Nat) (cs : List Char) : Option (List String × List Char) :=
  match fuel with
  | 0 => none
  | fuel + 1 =>
    match simpleKey? (skipBlanks cs) with
    | none => none
    | some (key, rest) =>
      match skipBlanks rest with
      | '.' :: rest => (keyPath? fuel rest).map fun (path, rest) => (key :: path, rest)
      | rest => some ([key], rest)

end SequenceDiagram.Toml
