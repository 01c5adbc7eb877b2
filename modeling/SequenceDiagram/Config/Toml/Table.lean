namespace SequenceDiagram.Toml

/-!
# What a TOML document defines

A document defines nothing twice, be it a value or a table. A `Table` knows what is defined by now,
and refuses (`header?`, `arrayHeader?`, `assign?`) what must not be defined again.
-/

/-- How something came to be defined. -/
inductive Origin where
  | value
  /-- A table that a key with dots goes through. -/
  | dotted
  /-- A table with a line of its own. -/
  | header
  /-- A table around one with a line of its own. -/
  | implied
  | array
  deriving DecidableEq

/-- What is defined, by the path from the top, and the table in which the next lines define. -/
structure Table where
  defined : List (List String × Origin)
  current : List String

namespace Table

/-- Nothing is defined yet. -/
def empty : Table := ⟨[], []⟩

/-- The table with a path defined, if it is not, or only in a way that may be repeated. -/
def define? (t : Table) (mayRepeat : List Origin) (path : List String) (origin : Origin) :
    Option Table :=
  match t.defined.lookup path with
  | none => some { t with defined := (path, origin) :: t.defined }
  | some old =>
    if old ∈ mayRepeat then
      some { t with defined := (path, origin) :: t.defined.filter fun d => d.1 ≠ path }
    else none

/-- The table with some paths defined, unless they already are one of some tables. -/
def through? (t : Table) (tables : List Origin) (origin : Origin) :
    List (List String) → Option Table
  | [] => some t
  | path :: rest =>
    match t.defined.lookup path with
    | none => through? { t with defined := (path, origin) :: t.defined } tables origin rest
    | some old => if old ∈ tables then t.through? tables origin rest else none

/-- The proper beginnings of a path that are longer than another one. -/
def stepsOf (path : List String) (behind : Nat) : List (List String) :=
  ((List.range path.length).drop (behind + 1)).map path.take

/-- The table behind the line that starts a table. -/
def header? (t : Table) (path : List String) : Option Table := do
  let t ← t.through? [.dotted, .header, .implied, .array] .implied (stepsOf path 0)
  let t ← t.define? [.implied] path .header
  return { t with current := path }

/-- The table behind the line that starts the next table of an array, in which nothing is defined
    yet. -/
def arrayHeader? (t : Table) (path : List String) : Option Table := do
  let t ← t.through? [.dotted, .header, .implied, .array] .implied (stepsOf path 0)
  let t ← t.define? [.array] path .array
  let inner (d : List String × Origin) : Bool := path.isPrefixOf d.1 && d.1 ≠ path
  return ⟨t.defined.filter (!inner ·), path⟩

/-- The table with a value. A key with dots leaves tables with a line of their own alone, and what
    it goes into last is a table of such keys. -/
def assign? (t : Table) (path : List String) : Option Table := do
  let full := t.current ++ path
  let steps := stepsOf full t.current.length
  let t ← t.through? [.dotted, .implied, .array] .dotted steps.dropLast
  let t ← t.through? [.dotted] .dotted (steps.drop (steps.length - 1))
  t.define? [] full .value

end Table

end SequenceDiagram.Toml
