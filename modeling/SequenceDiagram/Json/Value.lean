namespace SequenceDiagram

/-!
# JSON texts

* A `JsonValue` is a JSON text without its spacing; numbers keep the digits they are written with.
* `JsonValue.compact` writes it without any space, and `JsonValue.pretty` with one entry a line,
  indented by two more spaces than what is around it.
-/

/-- A JSON text without its spacing. -/
inductive JsonValue where
  | null
  | bool (value : Bool)
  | number (text : String)
  | string (text : String)
  | array (items : List JsonValue)
  | object (entries : List (String × JsonValue))

namespace JsonValue

/-! ### Strings -/

/-- The characters that stand for a character inside quotes: quotes, backslashes and control
    characters are escaped. -/
def escapeChar (c : Char) : List Char :=
  match c with
  | '"' => ['\\', '"']
  | '\\' => ['\\', '\\']
  | '\x08' => ['\\', 'b']
  | '\t' => ['\\', 't']
  | '\n' => ['\\', 'n']
  | '\x0c' => ['\\', 'f']
  | '\r' => ['\\', 'r']
  | c =>
    if c < ' ' then
      '\\' :: 'u' :: '0' :: '0' :: Nat.digitChar (c.toNat / 16) :: [Nat.digitChar (c.toNat % 16)]
    else [c]

/-- A text in quotes. -/
def quote (text : String) : String :=
  String.ofList ('"' :: text.toList.flatMap escapeChar ++ ['"'])

/-! ### Compact texts -/

/-- The truth value as a word. -/
def boolText (value : Bool) : String := if value then "true" else "false"

/-- Texts in brackets, with commas between them. -/
def inBrackets (left right : String) (texts : List String) : String :=
  left ++ ",".intercalate texts ++ right

mutual

/-- The text without spaces. -/
def compact : JsonValue → String
  | null => "null"
  | bool value => boolText value
  | number text => text
  | string text => quote text
  | array items => inBrackets "[" "]" (compactItems items)
  | object entries => inBrackets "\x7b" "\x7d" (compactEntries entries)

/-- The texts of the items of an array. -/
def compactItems : List JsonValue → List String
  | [] => []
  | item :: rest => compact item :: compactItems rest

/-- The texts of the entries of an object. -/
def compactEntries : List (String × JsonValue) → List String
  | [] => []
  | (key, value) :: rest => (quote key ++ ":" ++ compact value) :: compactEntries rest

end

/-! ### Texts with one entry a line -/

/-- The start of a line. -/
def newLine (indent : Nat) : String := String.ofList ('\n' :: List.replicate indent ' ')

/-- Texts in brackets, each on a line of its own; nothing stands between the brackets if there is no
    text. -/
def onLines (left right : String) (indent : Nat) (texts : List String) : String :=
  if texts = [] then left ++ right
  else left ++ ",".intercalate (texts.map (newLine (indent + 2) ++ ·)) ++ newLine indent ++ right

mutual

/-- The text whose first line is indented by `indent`. -/
def prettyAt (indent : Nat) : JsonValue → String
  | null => "null"
  | bool value => boolText value
  | number text => text
  | string text => quote text
  | array items => onLines "[" "]" indent (prettyItems (indent + 2) items)
  | object entries => onLines "\x7b" "\x7d" indent (prettyEntries (indent + 2) entries)

/-- The texts of the items of an array. -/
def prettyItems (indent : Nat) : List JsonValue → List String
  | [] => []
  | item :: rest => prettyAt indent item :: prettyItems indent rest

/-- The texts of the entries of an object. -/
def prettyEntries (indent : Nat) : List (String × JsonValue) → List String
  | [] => []
  | (key, value) :: rest =>
    (quote key ++ ": " ++ prettyAt indent value) :: prettyEntries indent rest

end

/-- The text with one entry a line. -/
def pretty (value : JsonValue) : String := prettyAt 0 value

end JsonValue

end SequenceDiagram
