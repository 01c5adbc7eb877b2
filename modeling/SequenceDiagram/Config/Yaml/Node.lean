import SequenceDiagram.Config.Yaml.Token

namespace SequenceDiagram.Yaml

/-!
# YAML documents

`document?` reads the only document of a text.

* A `Node` is a scalar, a sequence, a mapping, or an alias of a node with an anchor.
* `node?` reads a node from tokens. Which tokens may start it depends on its `Surroundings`.
* `Document.scalar?` is the scalar that a node is, or is an alias of.
-/

/-! ### Nodes -/

/-- A scalar. Its tag is the name that the tag in the text is short for. -/
structure Scalar where
  style : ScalarStyle
  tag : Option String
  text : String
  deriving DecidableEq

/-- A node. An alias knows the number of an anchor. -/
inductive Node where
  | scalar (scalar : Scalar)
  | sequence (items : List Node)
  | mapping (entries : List (Node × Node))
  | alias (anchor : Nat)

/-- The node that is not there. -/
def Node.absent : Node := .scalar ⟨.plain, none, ""⟩

/-- The anchors that were found: the number that each name has by now, and what has that number, if
    it is a scalar. The latest are in front. -/
structure Anchors where
  numbers : List (String × Nat)
  scalars : List (Nat × Option Scalar)

namespace Anchors

/-- No anchor was found yet. -/
def empty : Anchors := ⟨[], []⟩

/-- The anchors after one more. Its number is how many names there were. -/
def add (a : Anchors) (name : String) (scalar : Option Scalar) : Anchors :=
  let number := a.numbers.length
  ⟨(name, number) :: a.numbers.filter (·.1 ≠ name), (number, scalar) :: a.scalars⟩

end Anchors

/-- A document. -/
structure Document where
  root : Node
  anchors : Anchors

/-- The scalar that a node is or is an alias of. -/
def Document.scalar? (d : Document) : Node → Option Scalar
  | .scalar s => some s
  | .alias anchor => (d.anchors.scalars.lookup anchor).join
  | _ => none

/-! ### Properties -/

/-- The anchor and the tag of a node. -/
structure Properties where
  anchor : Option String
  tag : Option Tag
  deriving DecidableEq

/-- Reads an anchor and a tag in any order. -/
def properties : List Token → Properties × List Token
  | .anchor name :: .tag tag :: rest => (⟨some name, some tag⟩, rest)
  | .tag tag :: .anchor name :: rest => (⟨some name, some tag⟩, rest)
  | .anchor name :: rest => (⟨some name, none⟩, rest)
  | .tag tag :: rest => (⟨none, some tag⟩, rest)
  | rest => (⟨none, none⟩, rest)

/-- What is still to read, and what is known about names there. -/
structure Remainder where
  tokens : List Token
  anchors : Anchors
  handles : List (String × String)

namespace Remainder

/-- Further on in the tokens. -/
def goTo (r : Remainder) (tokens : List Token) : Remainder := { r with tokens := tokens }

/-- Behind an anchor, if there is one, and what it belongs to. -/
def addAnchor (r : Remainder) (name : Option String) (scalar : Option Scalar) : Remainder :=
  match name with
  | none => r
  | some name => { r with anchors := r.anchors.add name scalar }

/-- One of some tokens is next. -/
def isAt (r : Remainder) (tokens : List Token) : Bool := r.tokens.head?.any (tokens.contains ·)

end Remainder

/-! ### Nodes in tokens -/

/-- Where a node stands: inside brackets, as an item of a block sequence or as the root, or in an
    entry of a block mapping. -/
inductive Surroundings where
  | brackets
  | item
  | entry
  deriving DecidableEq

/-- The tokens that end a key or a value of a block mapping. -/
def entryEnds : List Token := [.key, .value, .blockEnd]

mutual

/-- Reads a node. Only an entry of a block mapping may hold a sequence that is not indented, and
    only brackets stand inside brackets. A node of which there are just properties is absent. -/
def node? (fuel : Nat) (around : Surroundings) (r : Remainder) : Option (Node × Remainder) :=
  match fuel, r.tokens with
  | 0, _ => none
  | _ + 1, .alias name :: rest =>
    (r.anchors.numbers.lookup name).map fun anchor => (.alias anchor, r.goTo rest)
  | fuel + 1, tokens => do
    let (p, rest) := properties tokens
    let tag ← match p.tag with
      | none => some none
      | some tag => (tag.meaning? r.handles).map some
    let scalar (style : ScalarStyle) (text : String) (rest : List Token) : Node × Remainder :=
      let s : Scalar := ⟨style, tag, text⟩
      (.scalar s, (r.goTo rest).addAnchor p.anchor (some s))
    let inside (rest : List Token) : Remainder := (r.goTo rest).addAnchor p.anchor none
    let bare (rest : List Token) : Option (Node × Remainder) :=
      if p = ⟨none, none⟩ then none else some (scalar .plain "" rest)
    match around, rest with
    | _, .scalar style text :: rest => return scalar style text rest
    | _, .flowSequenceStart :: rest =>
      (flowItems? fuel (inside rest)).map fun (items, r) => (.sequence items, r)
    | _, .flowMappingStart :: rest =>
      (flowEntries? fuel (inside rest)).map fun (entries, r) => (.mapping entries, r)
    | .brackets, rest => bare rest
    | .entry, .item :: _ =>
      (unindentedItems? fuel (inside rest)).map fun (items, r) => (.sequence items, r)
    | _, .sequenceStart :: rest =>
      (items? fuel (inside rest)).map fun (items, r) => (.sequence items, r)
    | _, .mappingStart :: rest =>
      (entries? fuel (inside rest)).map fun (entries, r) => (.mapping entries, r)
    | _, rest => bare rest

/-- Reads a node that is absent if one of the tokens `ends` is next. -/
def optionalNode? (fuel : Nat) (around : Surroundings) (ends : List Token) (r : Remainder) :
    Option (Node × Remainder) :=
  match fuel with
  | 0 => none
  | fuel + 1 => if r.isAt ends then some (.absent, r) else node? fuel around r

/-- Reads the value behind a key. Without its token it is absent. -/
def value? (fuel : Nat) (around : Surroundings) (ends : List Token) (r : Remainder) :
    Option (Node × Remainder) :=
  match fuel, r.tokens with
  | 0, _ => none
  | fuel + 1, .value :: rest => optionalNode? fuel around ends (r.goTo rest)
  | _ + 1, _ => some (.absent, r)

/-- Reads the items of a block sequence. -/
def items? (fuel : Nat) (r : Remainder) : Option (List Node × Remainder) :=
  match fuel, r.tokens with
  | 0, _ => none
  | _ + 1, .blockEnd :: rest => some ([], r.goTo rest)
  | fuel + 1, .item :: rest => do
    let (item, r) ← optionalNode? fuel .item [.item, .blockEnd] (r.goTo rest)
    let (items, r) ← items? fuel r
    return (item :: items, r)
  | _ + 1, _ => none

/-- Reads the items of a sequence that is not indented. Any other token ends it. -/
def unindentedItems? (fuel : Nat) (r : Remainder) : Option (List Node × Remainder) :=
  match fuel, r.tokens with
  | 0, _ => none
  | fuel + 1, .item :: rest => do
    let (item, r) ← optionalNode? fuel .item (.item :: entryEnds) (r.goTo rest)
    let (items, r) ← unindentedItems? fuel r
    return (item :: items, r)
  | _ + 1, _ => some ([], r)

/-- Reads the entries of a block mapping. -/
def entries? (fuel : Nat) (r : Remainder) : Option (List (Node × Node) × Remainder) :=
  match fuel, r.tokens with
  | 0, _ => none
  | _ + 1, .blockEnd :: rest => some ([], r.goTo rest)
  | fuel + 1, .key :: rest => do
    let (key, r) ← optionalNode? fuel .entry entryEnds (r.goTo rest)
    let (value, r) ← value? fuel .entry entryEnds r
    let (entries, r) ← entries? fuel r
    return ((key, value) :: entries, r)
  | _ + 1, _ => none

/-- Reads the items of a sequence in brackets. A comma may follow the last one. -/
def flowItems? (fuel : Nat) (r : Remainder) : Option (List Node × Remainder) :=
  match fuel, r.tokens with
  | 0, _ => none
  | _ + 1, .flowSequenceEnd :: rest => some ([], r.goTo rest)
  | fuel + 1, _ => do
    let (item, r) ← flowItem? fuel r
    match r.tokens with
    | .comma :: rest =>
      let (items, r) ← flowItems? fuel (r.goTo rest)
      return (item :: items, r)
    | .flowSequenceEnd :: rest => return ([item], r.goTo rest)
    | _ => none

/-- Reads an item in brackets. A key makes it a mapping with one entry. If there is nothing behind
    the mark of the key, the next token is skipped. -/
def flowItem? (fuel : Nat) (r : Remainder) : Option (Node × Remainder) :=
  match fuel, r.tokens with
  | 0, _ => none
  | fuel + 1, .key :: rest => do
    let r := r.goTo rest
    let (key, r) ←
      if r.isAt [.value, .comma, .flowSequenceEnd] then some (.absent, r.goTo rest.tail)
      else node? fuel .brackets r
    let (value, r) ← value? fuel .brackets [.comma, .flowSequenceEnd] r
    return (.mapping [(key, value)], r)
  | fuel + 1, _ => node? fuel .brackets r

/-- Reads the entries of a mapping in brackets. A comma may follow the last one. -/
def flowEntries? (fuel : Nat) (r : Remainder) : Option (List (Node × Node) × Remainder) :=
  match fuel, r.tokens with
  | 0, _ => none
  | _ + 1, .flowMappingEnd :: rest => some ([], r.goTo rest)
  | fuel + 1, _ => do
    let (entry, r) ← flowEntry? fuel r
    match r.tokens with
    | .comma :: rest =>
      let (entries, r) ← flowEntries? fuel (r.goTo rest)
      return (entry :: entries, r)
    | .flowMappingEnd :: rest => return ([entry], r.goTo rest)
    | _ => none

/-- Reads an entry in brackets. What is not marked as a key has no value. -/
def flowEntry? (fuel : Nat) (r : Remainder) : Option ((Node × Node) × Remainder) :=
  match fuel, r.tokens with
  | 0, _ => none
  | fuel + 1, .key :: rest => do
    let (key, r) ← optionalNode? fuel .brackets [.value, .comma, .flowMappingEnd] (r.goTo rest)
    let (value, r) ← value? fuel .brackets [.comma, .flowMappingEnd] r
    return ((key, value), r)
  | fuel + 1, _ => (node? fuel .brackets r).map fun (key, r) => ((key, .absent), r)

end

/-! ### Documents -/

/-- The directives at the start of some tokens. -/
def directives : List Token → List Directive × List Token
  | .directive d :: rest =>
    let (more, rest) := directives rest
    (d :: more, rest)
  | rest => ([], rest)

/-- Reads the root of a document. Behind a mark that starts the document it may be absent. -/
def root? (tokens : List Token) : Option (Node × Remainder) := do
  let (given, rest) := directives tokens
  let handles ← handles? given
  let node? (tokens : List Token) : Option (Node × Remainder) :=
    node? (4 * tokens.length + 8) .item ⟨tokens, .empty, handles⟩
  match rest with
  | .documentStart :: rest =>
    if rest.head?.all (· == .documentEnd) then return (.absent, ⟨rest, .empty, handles⟩)
    else node? rest
  | rest => if given = [] then node? rest else none

/-- The only document of a text. Of a text without tokens the root is absent, and only marks that
    end the document may follow it. -/
def document? (text : String) : Option Document := do
  let tokens ← tokens? text
  if tokens = [] then return ⟨.absent, .empty⟩
  else
    let (root, behind) ← root? tokens
    if behind.tokens.all (· == .documentEnd) then return ⟨root, behind.anchors⟩ else none

end SequenceDiagram.Yaml
