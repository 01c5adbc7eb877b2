import SequenceDiagram.Binary32.Shortest

namespace SequenceDiagram

/-!
# Layout configurations

A `LayoutConfig` holds the sizes from which a layout is computed.

* `LayoutConfig.compact` and `spacious` differ from the default in the sizes that they name.
* `LayoutConfig.validate` lets through what gives a layout: finite sizes that are not negative, a
  step from one lifeline to the next, and room for one measured width.
* `ConfigError.message` is the wording of every reason for which there is no configuration.
-/

/-! ### Sizes -/

/-- The sizes that can be set, in the order in which they are checked. -/
inductive Size where
  | margin
  | minParticipantWidth
  | participantPadding
  | occurrenceWidth
  | layerOffset
  | arrowHeadWidth
  | selfCallWidth
  | fragmentMinWidth
  | fragmentPadding
  deriving DecidableEq

namespace Size

/-- The key under which a file sets the size. -/
def key : Size → String
  | margin => "margin"
  | minParticipantWidth => "min_participant_width"
  | participantPadding => "participant_padding"
  | occurrenceWidth => "occurrence_width"
  | layerOffset => "layer_offset"
  | arrowHeadWidth => "arrow_head_width"
  | selfCallWidth => "self_call_width"
  | fragmentMinWidth => "fragment_min_width"
  | fragmentPadding => "fragment_padding_x"

/-- All sizes, in the order in which they are checked. -/
def all : List Size :=
  [margin, minParticipantWidth, participantPadding, occurrenceWidth, layerOffset, arrowHeadWidth,
    selfCallWidth, fragmentMinWidth, fragmentPadding]

/-- The size that a key sets. -/
def ofKey? (key : String) : Option Size := all.find? fun size => size.key = key

end Size

/-- The key under which a file sets the number of widths that are kept. -/
def capacityKey : String := "measure_cache_capacity"

/-- The sizes of a layout. -/
structure LayoutConfig where
  /-- The least distance between two neighbouring boxes. -/
  margin : Binary32 := 20
  minParticipantWidth : Binary32 := 80
  /-- How much wider a box is than its label. -/
  participantPadding : Binary32 := 20
  /-- The width of a bar. -/
  occurrenceWidth : Binary32 := 15
  /-- How far a bar sticks out of the one it lies on. -/
  layerOffset : Binary32 := 7
  arrowHeadWidth : Binary32 := 10
  /-- What a message to oneself takes besides its label. -/
  selfCallWidth : Binary32 := 30
  fragmentMinWidth : Binary32 := 100
  /-- The border of a fragment, on either side. -/
  fragmentPadding : Binary32 := 10
  /-- How many measured widths are kept. -/
  measureCacheCapacity : Nat := 1024
  deriving DecidableEq

namespace LayoutConfig

/-- The value of a size. -/
def get (config : LayoutConfig) : Size → Binary32
  | .margin => config.margin
  | .minParticipantWidth => config.minParticipantWidth
  | .participantPadding => config.participantPadding
  | .occurrenceWidth => config.occurrenceWidth
  | .layerOffset => config.layerOffset
  | .arrowHeadWidth => config.arrowHeadWidth
  | .selfCallWidth => config.selfCallWidth
  | .fragmentMinWidth => config.fragmentMinWidth
  | .fragmentPadding => config.fragmentPadding

/-- The configuration with another value of a size. -/
def set (config : LayoutConfig) (size : Size) (value : Binary32) : LayoutConfig :=
  match size with
  | .margin => { config with margin := value }
  | .minParticipantWidth => { config with minParticipantWidth := value }
  | .participantPadding => { config with participantPadding := value }
  | .occurrenceWidth => { config with occurrenceWidth := value }
  | .layerOffset => { config with layerOffset := value }
  | .arrowHeadWidth => { config with arrowHeadWidth := value }
  | .selfCallWidth => { config with selfCallWidth := value }
  | .fragmentMinWidth => { config with fragmentMinWidth := value }
  | .fragmentPadding => { config with fragmentPadding := value }

theorem get_set (config : LayoutConfig) (size other : Size) (value : Binary32) :
    (config.set size value).get other = if other = size then value else config.get other := by
  cases size <;> cases other <;> rfl

/-! ### Presets -/

/-- The default configuration, in which nothing is set. -/
def standard : LayoutConfig := {}

/-- Less room. -/
def compact : LayoutConfig :=
  { margin := 10, minParticipantWidth := 60, participantPadding := 12, fragmentMinWidth := 80 }

/-- More room. -/
def spacious : LayoutConfig :=
  { margin := 40, minParticipantWidth := 100, participantPadding := 28, fragmentPadding := 16 }

/-- The configurations that have a name. -/
def presets : List (String × LayoutConfig) :=
  [("default", standard), ("compact", compact), ("spacious", spacious)]

end LayoutConfig

/-! ### Errors -/

/-- The reasons for which there is no configuration. -/
inductive ConfigError where
  | notFound (path : String)
  /-- Neither of the formats that were tried could be read. -/
  | unreadable (triedToml triedYaml : Bool)
  | badSize (size : Size) (value : Binary32)
  | noStep
  | noCapacity
  | unknownPreset (name : String)
  deriving DecidableEq

/-- The wording of a reason. -/
def ConfigError.message : ConfigError → String
  | notFound path => "Config file not found: " ++ path
  | unreadable _ _ => "Failed to parse config as TOML or YAML"
  | badSize size value => "Invalid config value for `" ++ size.key ++
      "`: expected a finite non-negative number, got " ++ value.toText
  | noStep => "Invalid config value for `" ++ Size.margin.key ++
      "`: margin and min_participant_width cannot both be zero"
  | noCapacity => "Invalid config value for `" ++ capacityKey ++ "`: must be at least 1"
  | unknownPreset name => "Invalid config value for `preset`: unknown preset '" ++ name ++
      "'. Available: " ++ ", ".intercalate (LayoutConfig.presets.map (·.1))

/-! ### Validation -/

namespace LayoutConfig

/-- A size that a layout can be computed with. -/
def isSize (value : Binary32) : Bool := value.isFinite && !decide (value < 0)

/-- The first reason not to compute a layout with the configuration. -/
def fault? (config : LayoutConfig) : Option ConfigError :=
  match Size.all.find? fun size => !isSize (config.get size) with
  | some size => some (.badSize size (config.get size))
  | none =>
    if config.margin ≤ 0 ∧ config.minParticipantWidth ≤ 0 then some .noStep
    else if config.measureCacheCapacity = 0 then some .noCapacity
    else none

/-- The configuration, if a layout can be computed with it. -/
def validate (config : LayoutConfig) : Except ConfigError LayoutConfig :=
  match config.fault? with
  | some e => .error e
  | none => .ok config

end LayoutConfig

end SequenceDiagram
