import SequenceDiagram.Config.Yaml.Cursor
import SequenceDiagram.Text.Hexadecimal

namespace SequenceDiagram.Yaml

/-!
# Names, tags and directives in YAML

* `anchorName?` reads the name of an anchor or of an alias.
* `tag?` reads a tag: a handle, which may be empty, and a suffix.
* `Directive.read?` reads a directive, which gives the version or what a handle stands for. With
  these `handles?`, `Tag.meaning?` is the name that a tag is short for.
-/

/-! ### Anchors and aliases -/

/-- The text may go on like this behind the name of an anchor. -/
def endsName (cs : List Char) : Bool :=
  startsGap cs || cs.head?.any fun c =>
    ['?', ':', ',', ']', '\x7d', '%', '@', '\x60'].contains c

/-- Reads a name. -/
def anchorName? (cs : List Char) : Option (List Char × List Char) :=
  let (name, rest) := cs.span isNameChar
  if name ≠ [] ∧ endsName rest then some (name, rest) else none

/-! ### Tags -/

/-- The character may stand in a tag as it is. A comma and square brackets may only in a tag that is
    written out, and in what a handle stands for. -/
def isTagChar (writtenOut : Bool) (c : Char) : Bool :=
  isNameChar c || [';', '/', '?', ':', '@', '&', '=', '+', '$', '.', '!', '~', '*', '\'', '(',
    ')'].contains c || (writtenOut && (c == ',' || c == '[' || c == ']'))

/-- How many octets follow the first octet of a character. -/
def followingOctets? (octet : Nat) : Option Nat :=
  if octet < 0x80 then some 0
  else if 0xC0 ≤ octet ∧ octet < 0xE0 then some 1
  else if 0xE0 ≤ octet ∧ octet < 0xF0 then some 2
  else if 0xF0 ≤ octet ∧ octet < 0xF8 then some 3
  else none

/-- Reads the text of a tag, in which octets may be written as `%` and two digits. The octets of one
    character stand together; `missing` counts those that are still to come. -/
def tagText? (writtenOut : Bool) (missing : Nat) : List Char → Option (List Char × List Char)
  | '%' :: a :: b :: rest =>
    match hexValue? [a, b] with
    | none => none
    | some octet =>
      let missing? :=
        if missing = 0 then followingOctets? octet
        else if 0x80 ≤ octet ∧ octet < 0xC0 then some (missing - 1) else none
      match missing? with
      | none => none
      | some missing =>
        (tagText? writtenOut missing rest).map fun (text, rest) => (Char.ofNat octet :: text, rest)
  | c :: rest =>
    if missing ≠ 0 ∨ c = '%' then none
    else if isTagChar writtenOut c then
      (tagText? writtenOut 0 rest).map fun (text, rest) => (c :: text, rest)
    else some ([], c :: rest)
  | [] => if missing = 0 then some ([], []) else none

/-- Reads the text of a tag, which is not empty. -/
def someTagText? (writtenOut : Bool) (cs : List Char) : Option (List Char × List Char) :=
  (tagText? writtenOut 0 cs).filter fun (_, rest) => rest.length < cs.length

/-- The text of a tag ends at an octet that is zero. -/
def untilZero (text : List Char) : String := .ofList (text.takeWhile (· ≠ '\x00'))

/-- Reads an exclamation mark, and a name and a second mark if they follow. -/
def handle? : List Char → Option (List Char × List Char)
  | '!' :: rest =>
    match rest.span isNameChar with
    | (name, '!' :: rest) => some ('!' :: name ++ ['!'], rest)
    | (name, rest) => some ('!' :: name, rest)
  | _ => none

/-- The text is a handle with two marks. -/
def isNamedHandle (handle : List Char) : Bool := 1 < handle.length && handle.getLast? == some '!'

/-- A tag. A tag that is written out has an empty handle. -/
structure Tag where
  handle : String
  suffix : String
  deriving DecidableEq

/-- Reads a tag without what follows it. -/
def bareTag? (cs : List Char) : Option (Tag × List Char) :=
  match cs with
  | '!' :: '<' :: rest =>
    match someTagText? true rest with
    | some (text, '>' :: rest) => some (⟨"", untilZero text⟩, rest)
    | _ => none
  | cs =>
    match handle? cs with
    | none => none
    | some (handle, rest) =>
      if isNamedHandle handle then
        (someTagText? false rest).map fun (suffix, rest) =>
          (⟨.ofList handle, untilZero suffix⟩, rest)
      else (tagText? false 0 rest).map fun (text, rest) =>
        let suffix := untilZero (handle.tail ++ text)
        (if suffix = "" then ⟨"", "!"⟩ else ⟨"!", suffix⟩, rest)

/-- Reads a tag. A gap follows it, or a comma inside brackets. -/
def tag? (inFlow : Bool) (cs : List Char) : Option (Tag × List Char) :=
  (bareTag? cs).filter fun (_, rest) => startsGap rest || (inFlow && rest.head? == some ',')

/-! ### Directives -/

/-- What a directive says. -/
inductive Directive where
  | version (major minor : Nat)
  | handle (handle meaning : String)
  deriving DecidableEq

namespace Directive

/-- Reads a number of one to nine digits. -/
def number? (cs : List Char) : Option (Nat × List Char) :=
  let (digits, rest) := cs.span Char.isDigit
  if 1 ≤ digits.length ∧ digits.length ≤ 9 then
    some (digits.foldl (fun n c => 10 * n + (c.toNat - '0'.toNat)) 0, rest)
  else none

/-- Reads a version. -/
def version? (cs : List Char) : Option (Directive × List Char) :=
  match number? (skipBlanks cs) with
  | some (major, '.' :: rest) =>
    (number? rest).map fun (minor, rest) => (version major minor, rest)
  | _ => none

/-- Reads a handle and what it stands for. -/
def meaning? (cs : List Char) : Option (Directive × List Char) :=
  match handle? (skipBlanks cs) with
  | none => none
  | some (name, rest) =>
    if (name = ['!'] ∨ isNamedHandle name) ∧ rest.head?.any isBlank then
      match someTagText? true (skipBlanks rest) with
      | some (text, rest) =>
        if startsGap rest then some (handle (.ofList name) (untilZero text), rest) else none
      | none => none
    else none

/-- Reads a directive from behind its mark, with the rest of its line. -/
def read? (cs : List Char) : Option (Directive × List Char) :=
  let (name, rest) := cs.span isNameChar
  if startsGap rest then
    let directive :=
      if name = "YAML".toList then version? rest
      else if name = "TAG".toList then meaning? rest
      else none
    directive.bind fun (d, rest) => (nextLine? rest).map (d, ·)
  else none

/-- The version that a directive gives. -/
def versionNumber? : Directive → Option (Nat × Nat)
  | version major minor => some (major, minor)
  | handle _ _ => none

/-- The handle that a directive is about, and what it stands for. -/
def handleMeaning? : Directive → Option (String × String)
  | version _ _ => none
  | handle name meaning => some (name, meaning)

end Directive

/-- What handles stand for without a directive. -/
def standardHandles : List (String × String) := [("!", "!"), ("!!", "tag:yaml.org,2002:")]

/-- What handles stand for. There is at most one version, which has to be known, and at most one
    directive about a handle. -/
def handles? (directives : List Directive) : Option (List (String × String)) :=
  let versions := directives.filterMap Directive.versionNumber?
  let given := directives.filterMap Directive.handleMeaning?
  if versions.length ≤ 1 ∧ (∀ v ∈ versions, v = (1, 1) ∨ v = (1, 2)) ∧ (given.map (·.1)).Nodup then
    some (given ++ standardHandles)
  else none

/-- The name that a tag is short for. -/
def Tag.meaning? (handles : List (String × String)) (t : Tag) : Option String :=
  if t.handle = "" then some t.suffix else (handles.lookup t.handle).map (· ++ t.suffix)

end SequenceDiagram.Yaml
