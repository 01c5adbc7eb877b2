import SequenceDiagram.Binary32.Decimal
import SequenceDiagram.Config.Setting
import SequenceDiagram.Config.Yaml.Node

namespace SequenceDiagram.Yaml

/-!
# Settings in YAML

`settings?` reads a YAML document whose root is a mapping, or absent, and gives its entries.

* The keys are scalars. What they are worth is only asked of scalars, too.
* A plain scalar may be a number (`size?`, `count?`), and so may a literal one that is tagged as
  one.
-/

/-! ### Numbers -/

/-- The texts of infinity. -/
def isInfinity (cs : List Char) : Bool := [".inf", ".Inf", ".INF"].contains (String.ofList cs)

/-- A number: an infinity, not-a-number, or a numeral whose value is in the range of binary64. -/
def size? (text : String) : Option Binary32 :=
  if [".nan", ".NaN", ".NAN"].contains text then some .nan
  else match text.toList with
    | '-' :: rest => unsigned? true rest
    | '+' :: rest => unsigned? false rest
    | rest => unsigned? false rest
where
  unsigned? (negative : Bool) (cs : List Char) : Option Binary32 :=
    if isInfinity cs then some (.infinite negative)
    else (Decimal.unsigned? negative cs).bind Decimal.viaBinary64?

/-- Digits of a base as a count. -/
def countIn? (base : Nat) (cs : List Char) : Option Nat :=
  let digit (c : Char) : Nat :=
    if c.isDigit then c.toNat - '0'.toNat
    else if c.isAlpha then c.toLower.toNat - 'a'.toNat + 10
    else base
  if cs ≠ [] ∧ cs.all (fun c => digit c < base) then
    Setting.countOfInt? (cs.foldl (fun n c => base * n + digit c) 0)
  else none

/-- A count, in base ten without zeros before other digits, or in another base. -/
def count? (text : String) : Option Nat :=
  let cs := match text.toList with
    | '+' :: rest => rest
    | cs => cs
  match cs with
  | '0' :: 'x' :: rest => countIn? 16 rest
  | '0' :: 'o' :: rest => countIn? 8 rest
  | '0' :: 'b' :: rest => countIn? 2 rest
  | '0' :: _ :: _ => none
  | cs => countIn? 10 cs

namespace Scalar

/-- The scalar may be a number of the kind that a tag names. -/
def isNumber (kind : String) (s : Scalar) : Bool :=
  s.style == .plain || (s.style == .literal && s.tag == some kind)

/-- The scalar as a size. -/
def size? (s : Scalar) : Option Binary32 :=
  if s.isNumber "tag:yaml.org,2002:float" then Yaml.size? s.text else none

/-- The scalar as a count. -/
def count? (s : Scalar) : Option Nat :=
  if s.isNumber "tag:yaml.org,2002:int" then Yaml.count? s.text else none

end Scalar

/-! ### Settings -/

/-- The setting that an entry makes. -/
def Document.setting? (d : Document) (entry : Node × Node) : Option Setting :=
  (d.scalar? entry.1).map fun key =>
    let value := d.scalar? entry.2
    ⟨key.text, value.bind Scalar.size?, value.bind Scalar.count?⟩

/-- The settings of a document. -/
def settings? (text : String) : Option (List Setting) := do
  let d ← document? text
  match d.root with
  | .mapping entries => entries.mapM d.setting?
  | .scalar s => if s.style = .plain ∧ s.text = "" then some [] else none
  | _ => none

end SequenceDiagram.Yaml
