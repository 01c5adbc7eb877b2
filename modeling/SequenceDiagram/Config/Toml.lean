import SequenceDiagram.Config.Toml.Key
import SequenceDiagram.Config.Toml.Table

namespace SequenceDiagram.Toml

/-!
# Settings in TOML

`settings?` reads a TOML document and gives the values at its top level.

Of the values only numbers are of use to a configuration (`Scalar`). All others have to be
well-formed.
-/

/-! ### Values -/

/-- How many brackets may be open at once. -/
def maxDepth : Nat := 80

mutual

/-- A value, inside which no more than `room` brackets are open at once, and the text behind it. -/
def value? (fuel room : Nat) (cs : List Char) : Option (Scalar × List Char) :=
  match fuel, room, cs with
  | 0, _, _ => none
  | fuel + 1, room + 1, '[' :: rest => (items? fuel room rest).map (.other, ·)
  | fuel + 1, room + 1, '\x7b' :: rest => (entries? fuel room .empty rest).map (.other, ·)
  | _ + 1, _, cs =>
    match behindString? cs with
    | some rest => some (.other, rest)
    | none =>
      let (word, rest) := takeWord cs
      (word? word).map (·, rest)

/-- The text behind the items of an array. -/
def items? (fuel room : Nat) (cs : List Char) : Option (List Char) :=
  match fuel with
  | 0 => none
  | fuel + 1 =>
    match skipLines? cs.length cs with
    | some (']' :: rest) => some rest
    | some cs =>
      match value? fuel room cs with
      | none => none
      | some (_, rest) =>
        match skipLines? rest.length rest with
        | some (',' :: rest) => items? fuel room rest
        | some (']' :: rest) => some rest
        | _ => none
    | none => none

/-- The text behind the entries of a table in braces, of which `t` are before this text. Lines may
    end on both sides of a key, which itself stands on one line, and of a value. -/
def entries? (fuel room : Nat) (t : Table) (cs : List Char) : Option (List Char) :=
  match fuel with
  | 0 => none
  | fuel + 1 =>
    match skipLines? cs.length cs with
    | some ('\x7d' :: rest) => some rest
    | some cs => do
      let (path, rest) ← keyPath? cs.length cs
      let t ← t.assign? path
      match ← skipLines? rest.length rest with
      | '=' :: rest =>
        let (_, rest) ← value? fuel room (← skipLines? rest.length rest)
        match ← skipLines? rest.length rest with
        | ',' :: rest => entries? fuel room t rest
        | '\x7d' :: rest => return rest
        | _ => none
      | _ => none
    | none => none

end

/-! ### Lines -/

/-- A line that is not blank. -/
inductive Line where
  | table (path : List String)
  | arrayTable (path : List String)
  | assignment (path : List String) (value : Scalar)

/-- A line and the text behind it. -/
def line? (cs : List Char) : Option (Line × List Char) :=
  match cs with
  | '[' :: '[' :: rest =>
    match keyPath? rest.length rest with
    | some (path, ']' :: ']' :: rest) => (endOfLine? rest).map (.arrayTable path, ·)
    | _ => none
  | '[' :: rest =>
    match keyPath? rest.length rest with
    | some (path, ']' :: rest) => (endOfLine? rest).map (.table path, ·)
    | _ => none
  | cs =>
    match keyPath? cs.length cs with
    | some (path, '=' :: rest) =>
      match value? (rest.length + 1) maxDepth (skipBlanks rest) with
      | some (value, rest) => (endOfLine? rest).map (.assignment path value, ·)
      | none => none
    | _ => none

/-- The lines of a text. -/
def lines? (fuel : Nat) (cs : List Char) : Option (List Line) :=
  match fuel with
  | 0 => none
  | fuel + 1 =>
    match skipLines? (cs.length + 1) cs with
    | none => none
    | some [] => some []
    | some cs =>
      match line? cs with
      | none => none
      | some (line, rest) => (lines? fuel rest).map (line :: ·)

/-- What is defined after a line. -/
def Line.addTo? (line : Line) (t : Table) : Option Table :=
  match line with
  | table path => t.header? path
  | arrayTable path => t.arrayHeader? path
  | assignment path _ => t.assign? path

/-- The lines define nothing twice. -/
def isConsistent (lines : List Line) : Bool :=
  (lines.foldlM (fun t line => Line.addTo? line t) Table.empty).isSome

/-! ### Settings -/

/-- The setting at the top level that a line makes; `inTable` says that it stands in a table. A
    table is a setting without a value. -/
def settingOf? (inTable : Bool) : Line → Option Setting
  | .assignment [key] value => if inTable then none else some ⟨key, value.size?, value.count?⟩
  | .assignment (key :: _) _ => if inTable then none else some ⟨key, none, none⟩
  | .table (key :: _) => some ⟨key, none, none⟩
  | .arrayTable (key :: _) => some ⟨key, none, none⟩
  | _ => none

/-- The settings at the top level. -/
def settingsOf (inTable : Bool) : List Line → List Setting
  | [] => []
  | line :: rest =>
    let enters := match line with
      | .assignment _ _ => inTable
      | _ => true
    (settingOf? inTable line).toList ++ settingsOf enters rest

/-- A line may end with a carriage return before its end, and the text may begin with a mark of
    the byte order. -/
def unifyLineEnds (text : String) : List Char :=
  let rec go : List Char → List Char
    | '\r' :: '\n' :: rest => '\n' :: go rest
    | c :: rest => c :: go rest
    | [] => []
  match text.toList with
  | '\ufeff' :: rest => go rest
  | cs => go cs

/-- The settings of a document. -/
def settings? (text : String) : Option (List Setting) :=
  let cs := unifyLineEnds text
  match lines? (cs.length + 1) cs with
  | some lines => if isConsistent lines then some (settingsOf false lines) else none
  | none => none

end SequenceDiagram.Toml
