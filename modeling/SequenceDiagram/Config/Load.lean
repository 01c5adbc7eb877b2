import SequenceDiagram.Config.Toml
import SequenceDiagram.Config.Yaml
import SequenceDiagram.Text.Display

namespace SequenceDiagram.LayoutConfig

/-!
# Where configurations come from

A configuration has a name (`ofPreset`) or is read from a text: from TOML (`ofToml`), from YAML
(`ofYaml`), or, if it is not said which of them, from the first of both in which the text can be
read (`ofText`). Either way it is validated.
-/

/-- The configuration with a name. Case, and blanks around the name, make no difference. -/
def ofPreset (name : String) : Except ConfigError LayoutConfig :=
  let plain := String.ofList ((trimChars name.toList).map Char.toLower)
  match presets.lookup plain with
  | some config => config.validate
  | none => .error (.unknownPreset name)

/-- The configuration that a TOML document sets, before validation. -/
def inToml? (text : String) : Option LayoutConfig := (Toml.settings? text).bind ofSettings?

/-- The configuration that a YAML document sets, before validation. -/
def inYaml? (text : String) : Option LayoutConfig := (Yaml.settings? text).bind ofSettings?

/-- The configuration in a TOML document. -/
def ofToml (text : String) : Except ConfigError LayoutConfig :=
  match inToml? text with
  | some config => config.validate
  | none => .error (.unreadable true false)

/-- The configuration in a YAML document. -/
def ofYaml (text : String) : Except ConfigError LayoutConfig :=
  match inYaml? text with
  | some config => config.validate
  | none => .error (.unreadable false true)

/-- The configuration in a text that is read as TOML if it can be, and else as YAML. -/
def ofText (text : String) : Except ConfigError LayoutConfig :=
  match (inToml? text).or (inYaml? text) with
  | some config => config.validate
  | none => .error (.unreadable true true)

/-- The configuration in a file, of which the text is given if there is such a file. -/
def ofFile (path : String) (text : Option String) : Except ConfigError LayoutConfig :=
  match text with
  | some text => ofText text
  | none => .error (.notFound path)

end SequenceDiagram.LayoutConfig
