namespace SequenceDiagram

/-!
# Command line arguments

`Command.ofArguments?` reads the arguments of the command line.

* `layout INPUT` takes options in any order, before and behind the input. The value of an option
  follows it as an argument of its own, or behind `=`, or, for a short option, directly.
* An argument with a dash at its start is no value; a dash alone is. Behind `--` nothing is an
  option.
* No option is given twice, and a preset excludes a file.
-/

/-! ### Options -/

/-- The options that have a value. -/
inductive ValueOption where
  | output
  | starter
  | config
  | preset
  deriving DecidableEq

namespace ValueOption

/-- The option of a name behind two dashes. -/
def ofName? (name : String) : Option ValueOption :=
  [("output", output), ("starter", starter), ("config", config), ("preset", preset)].lookup name

/-- The option of a letter behind one dash. -/
def ofLetter? (letter : Char) : Option ValueOption :=
  [('o', output), ('c', config)].lookup letter

/-- The value names a file, so it is not empty. -/
def isPath : ValueOption → Bool
  | output => true
  | config => true
  | starter => false
  | preset => false

end ValueOption

/-- The options without a value. -/
inductive SwitchOption where
  | approximate
  | pretty
  deriving DecidableEq

/-- The option of a name behind two dashes. -/
def SwitchOption.ofName? (name : String) : Option SwitchOption :=
  [("approximate", approximate), ("pretty", pretty)].lookup name

/-- What the arguments of a command give, in their order. -/
structure GivenArguments where
  inputs : List String
  values : List (ValueOption × String)
  switches : List SwitchOption

namespace GivenArguments

/-- Nothing is given. -/
def empty : GivenArguments := ⟨[], [], []⟩

/-- The value of an option. -/
def value? (g : GivenArguments) (o : ValueOption) : Option String := g.values.lookup o

/-- Gives an input. -/
def withInput (g : GivenArguments) (input : String) : GivenArguments :=
  { g with inputs := g.inputs ++ [input] }

/-- Gives a value. -/
def withValue (g : GivenArguments) (o : ValueOption) (value : String) : GivenArguments :=
  { g with values := g.values ++ [(o, value)] }

/-- Gives a switch. -/
def withSwitch (g : GivenArguments) (s : SwitchOption) : GivenArguments :=
  { g with switches := g.switches ++ [s] }

/-- Nothing is given twice, paths are not empty, and preset and file exclude each other. -/
def isValid (g : GivenArguments) : Bool :=
  (g.values.map (·.1)).Nodup && g.switches.Nodup && g.inputs.all (· ≠ "") &&
    g.values.all (fun v => !v.1.isPath || v.2 ≠ "") &&
    !((g.value? .config).isSome && (g.value? .preset).isSome)

end GivenArguments

/-! ### Reading -/

/-- What an argument is when it stands alone. -/
inductive ArgumentForm where
  | plain
  /-- Two dashes alone. -/
  | separator
  /-- An option with its value. -/
  | value (option : ValueOption) (value : String)
  /-- An option whose value is the next argument. -/
  | valueNext (option : ValueOption)
  | switch (option : SwitchOption)
  | unknown
  deriving DecidableEq

namespace ArgumentForm

/-- An option by its name, and the value behind `=` if there is one. -/
def long (name : String) (attached : Option String) : ArgumentForm :=
  match ValueOption.ofName? name, SwitchOption.ofName? name, attached with
  | some o, _, some v => value o v
  | some o, _, none => valueNext o
  | none, some s, none => switch s
  | none, _, _ => unknown

/-- An option by its letter, and the value behind it if there is one. -/
def short (letter : Char) (attached : Option String) : ArgumentForm :=
  match ValueOption.ofLetter? letter, attached with
  | some o, some v => value o v
  | some o, none => valueNext o
  | none, _ => unknown

/-- The form of an argument. -/
def of (argument : String) : ArgumentForm :=
  match argument.toList with
  | ['-', '-'] => separator
  | '-' :: '-' :: rest =>
    match rest.span (· ≠ '=') with
    | (name, []) => long (.ofList name) none
    | (name, _ :: text) => long (.ofList name) (some (.ofList text))
  | ['-'] => plain
  | ['-', letter] => short letter none
  | '-' :: letter :: '=' :: rest => short letter (some (.ofList rest))
  | '-' :: letter :: rest => short letter (some (.ofList rest))
  | _ => plain

end ArgumentForm

/-- Reads the arguments behind a command. -/
def GivenArguments.read? (g : GivenArguments) : List String → Option GivenArguments
  | [] => some g
  | argument :: rest =>
    match ArgumentForm.of argument with
    | .plain => (g.withInput argument).read? rest
    | .separator => some (rest.foldl withInput g)
    | .value o v => (g.withValue o v).read? rest
    | .valueNext o =>
      match rest with
      | [] => none
      | next :: rest =>
        if ArgumentForm.of next = .plain then (g.withValue o next).read? rest else none
    | .switch s => (g.withSwitch s).read? rest
    | .unknown => none

/-! ### Commands -/

/-- A layout to be computed. -/
structure LayoutRequest where
  input : String
  output : Option String
  starter : Option String
  config : Option String
  preset : Option String
  pretty : Bool
  deriving DecidableEq

/-- What the command line asks for. -/
inductive Command where
  | version
  | layout (request : LayoutRequest)
  deriving DecidableEq

/-- The command that the arguments ask for; none if they make no sense. -/
def Command.ofArguments? : List String → Option Command
  | [] => none
  | first :: rest =>
    if first = "--version" ∨ first.startsWith "-V" then some .version
    else if first = "layout" then
      match GivenArguments.empty.read? rest with
      | none => none
      | some g =>
        match g.inputs, g.isValid with
        | [input], true => some (.layout
            { input := input
              output := g.value? .output
              starter := g.value? .starter
              config := g.value? .config
              preset := g.value? .preset
              pretty := decide (.pretty ∈ g.switches) })
        | _, _ => none
    else none

end SequenceDiagram
