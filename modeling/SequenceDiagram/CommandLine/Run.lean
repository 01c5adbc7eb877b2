import SequenceDiagram.CommandLine.Arguments
import SequenceDiagram.Config.Load
import SequenceDiagram.Layout.Json
import SequenceDiagram.Layout.Session

namespace SequenceDiagram

/-!
# Running a command

`runCommandLine` does what the arguments ask for. Everything outside is reached through a `Host` in
any monad.

* The configuration is found first, then the source is read.
* What was not understood and what has no place is reported, and the layout is handed on all the
  same.
* The exit code is zero, one for a `CommandFailure`, and two for arguments that make no sense.
-/

/-- What a command needs of its surroundings. -/
structure Host (m : Type → Type) where
  /-- The standard input, if it is text. -/
  standardInput : m (Option String)
  /-- The text in a file, if there is such a file with a text in it. -/
  textOfFile : String → m (Option String)
  /-- Writes a text to a file, and says whether that worked. -/
  saveFile : String → String → m Bool
  print : String → m Unit
  /-- Writes a line for the user. -/
  report : String → m Unit

/-- The reasons for which a command fails. -/
inductive CommandFailure where
  | config
  | read
  | write
  deriving DecidableEq

/-- The line that reports a failure. -/
def CommandFailure.text : CommandFailure → String
  | config => "Error: Config"
  | read => "Error: Io"
  | write => "Error: Write"

/-- The lines that report what was not understood or has no place. -/
def DiagramLayout.reports (l : DiagramLayout) : List String :=
  l.errors.map ("error: " ++ ·) ++ l.diagnostics.map fun d =>
    "layout: " ++ toString d.line ++ ":" ++ toString d.column ++ " " ++ d.reason.message

namespace LayoutRequest

/-- The text of a layout. -/
def textOf (r : LayoutRequest) (l : DiagramLayout) : String :=
  if r.pretty then l.toJson.pretty else l.toJson.compact

/-- The layout of a source, in which every character is measured alike. -/
def layoutOf (r : LayoutRequest) (config : LayoutConfig) (source : String) : DiagramLayout :=
  ((Session.start config (approximateMeasure defaultCharRatio)).update source r.starter).1

section Host

variable {m : Type → Type} [Monad m] (host : Host m)

/-- The configuration that is asked for. -/
def configWith (r : LayoutRequest) : m (Except ConfigError LayoutConfig) := do
  match r.config, r.preset with
  | some path, _ => return LayoutConfig.ofFile path (← host.textOfFile path)
  | none, some preset => return LayoutConfig.ofPreset preset
  | none, none => return .ok .standard

/-- The source that is asked for; a dash stands for the standard input. -/
def sourceWith (r : LayoutRequest) : m (Option String) :=
  if r.input = "-" then host.standardInput else host.textOfFile r.input

/-- Hands the text of a layout on. -/
def deliverWith (r : LayoutRequest) (text : String) : m (Except CommandFailure Unit) := do
  match r.output with
  | none =>
    host.print (text ++ "\n")
    return .ok ()
  | some path =>
    if ← host.saveFile path text then
      host.report ("Layout saved to: " ++ path)
      return .ok ()
    else return .error .write

/-- Computes a layout and hands it on. -/
def runWith (r : LayoutRequest) : m (Except CommandFailure Unit) := do
  match ← r.configWith host with
  | .error _ => return .error .config
  | .ok config =>
    match ← r.sourceWith host with
    | none => return .error .read
    | some source =>
      let layout := r.layoutOf config source
      layout.reports.forM host.report
      r.deliverWith host (r.textOf layout)

end Host

end LayoutRequest

/-- The line for arguments that make no sense. -/
def usage : String :=
  "usage: lifeline layout INPUT [--output FILE] [--starter NAME] " ++
    "[--config FILE | --preset NAME] [--approximate] [--pretty]"

/-- Does what the arguments ask for and gives the exit code. -/
def runCommandLine {m : Type → Type} [Monad m] (host : Host m) (arguments : List String) :
    m Nat := do
  match Command.ofArguments? arguments with
  | none =>
    host.report usage
    return 2
  | some .version =>
    host.print "lifeline 0.1.0\n"
    return 0
  | some (.layout request) =>
    match ← request.runWith host with
    | .ok () => return 0
    | .error failure =>
      host.report failure.text
      return 1

end SequenceDiagram
