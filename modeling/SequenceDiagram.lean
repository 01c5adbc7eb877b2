import SequenceDiagram.Binary32.Basic
import SequenceDiagram.Binary32.Decimal
import SequenceDiagram.Binary32.Rounding
import SequenceDiagram.Binary32.Shortest
import SequenceDiagram.CommandLine.Arguments
import SequenceDiagram.CommandLine.Run
import SequenceDiagram.Config.Basic
import SequenceDiagram.Config.Load
import SequenceDiagram.Config.Setting
import SequenceDiagram.Config.Toml
import SequenceDiagram.Config.Toml.Key
import SequenceDiagram.Config.Toml.Scalar
import SequenceDiagram.Config.Toml.Table
import SequenceDiagram.Config.Yaml
import SequenceDiagram.Config.Yaml.Cursor
import SequenceDiagram.Config.Yaml.Node
import SequenceDiagram.Config.Yaml.Scalar
import SequenceDiagram.Config.Yaml.Tag
import SequenceDiagram.Config.Yaml.Token
import SequenceDiagram.Document.Basic
import SequenceDiagram.Document.Depth
import SequenceDiagram.Document.Interpretation
import SequenceDiagram.Document.Queries
import SequenceDiagram.Json.Value
import SequenceDiagram.Layout.Arrow
import SequenceDiagram.Layout.Coordinates
import SequenceDiagram.Layout.Diagram
import SequenceDiagram.Layout.FragmentBox
import SequenceDiagram.Layout.Json
import SequenceDiagram.Layout.Session
import SequenceDiagram.Main
import SequenceDiagram.Measure.Cache
import SequenceDiagram.Measure.Style
import SequenceDiagram.Participant.Context
import SequenceDiagram.Participant.Ledger
import SequenceDiagram.Participant.Order
import SequenceDiagram.Source.Lexeme
import SequenceDiagram.Source.Span
import SequenceDiagram.Syntax.Expression
import SequenceDiagram.Syntax.Head
import SequenceDiagram.Syntax.Program
import SequenceDiagram.Syntax.Scan
import SequenceDiagram.Syntax.Statements
import SequenceDiagram.Syntax.Tree
import SequenceDiagram.Text.Alphabetic
import SequenceDiagram.Text.CharClass
import SequenceDiagram.Text.Display
import SequenceDiagram.Text.Hexadecimal
import SequenceDiagram.Text.Numeric
import SequenceDiagram.Proofs.Document.Places
import SequenceDiagram.Proofs.Document.Table
import SequenceDiagram.Proofs.Participant.Collection
import SequenceDiagram.Proofs.Document.Names
import SequenceDiagram.Proofs.Layout.Afresh
import SequenceDiagram.Proofs.Binary32.Rounding
import SequenceDiagram.Proofs.Binary32.Order
import SequenceDiagram.Proofs.Binary32.Arithmetic
import SequenceDiagram.Proofs.Document.Fragments
import SequenceDiagram.Proofs.Syntax.Nesting
import SequenceDiagram.Proofs.Layout.Spacing
import SequenceDiagram.Proofs.Binary32.Precision
import SequenceDiagram.Proofs.Layout.NestedBoxes
import SequenceDiagram.Proofs.Layout.Increase
import SequenceDiagram.Proofs.Layout.LabelRoom
import SequenceDiagram.Proofs.Document.OpenSenders
import SequenceDiagram.Proofs.Document.Endpoints
import SequenceDiagram.Proofs.Document.Layers
import SequenceDiagram.Proofs.Layout.Bars
import SequenceDiagram.Proofs.Layout.Sessions
import SequenceDiagram.Proofs.Layout.Publishing
import SequenceDiagram.Proofs.Syntax.Progress
import SequenceDiagram.Proofs.Source.Lexing
import SequenceDiagram.Proofs.Syntax.Tiling
import SequenceDiagram.Proofs.Syntax.Likeness
import SequenceDiagram.Proofs.Participant.Likeness
import SequenceDiagram.Proofs.Document.Likeness
import SequenceDiagram.Proofs.Layout.Likeness
import SequenceDiagram.Proofs.Text.LineEnds
import SequenceDiagram.Proofs.Source.Likeness
import SequenceDiagram.Proofs.Syntax.Simulation
import SequenceDiagram.Proofs.Layout.LineEnds
import SequenceDiagram.Proofs.Layout.Comments
import SequenceDiagram.Proofs.Document.Rejection
import SequenceDiagram.Proofs.Layout.Account
import SequenceDiagram.Proofs.Source.Positions
import SequenceDiagram.Proofs.Syntax.Pieces
import SequenceDiagram.Proofs.Syntax.ReadOff
import SequenceDiagram.Proofs.Layout.Positions
import SequenceDiagram.Proofs.Participant.Mentions
import SequenceDiagram.Proofs.Participant.Positions
import SequenceDiagram.Proofs.Text.NormalForm
import SequenceDiagram.Proofs.Participant.ReadingOrder
import SequenceDiagram.Proofs.Participant.Appearance
import SequenceDiagram.Proofs.Participant.LifelineOrder
import SequenceDiagram.Proofs.Syntax.Groups
import SequenceDiagram.Proofs.Document.Verdict
import SequenceDiagram.Proofs.Binary32.Bounded
import SequenceDiagram.Proofs.Document.Heights
import SequenceDiagram.Proofs.Text.Lengths
import SequenceDiagram.Proofs.Document.TextLengths
import SequenceDiagram.Proofs.Layout.Finite
import SequenceDiagram.Proofs.Text.Idempotence
import SequenceDiagram.Proofs.Distinct
import SequenceDiagram.Proofs.Document.Contents
import SequenceDiagram.Proofs.Document.Paths
import SequenceDiagram.Proofs.Document.Stacks
import SequenceDiagram.Proofs.Document.MemoCalls
import SequenceDiagram.Proofs.Measure.Recency
import SequenceDiagram.Proofs.Participant.History
import SequenceDiagram.Proofs.Participant.CanonicalOrder
import SequenceDiagram.Proofs.Document.GivenStarter
import SequenceDiagram.Proofs.Layout.ReversedArrows
import SequenceDiagram.Proofs.Source.Coverage
import SequenceDiagram.Proofs.Participant.Blindness
import SequenceDiagram.Proofs.Document.Edits
import SequenceDiagram.Proofs.Document.HiddenExpressions
import SequenceDiagram.Proofs.Document.EmptyNames
import SequenceDiagram.Proofs.Layout.WiderText
import SequenceDiagram.Proofs.Document.TreeQueries
import SequenceDiagram.Proofs.Cursor.Tape
import SequenceDiagram.Proofs.Cursor.Moves
import SequenceDiagram.Proofs.Cursor.Brackets
import SequenceDiagram.Proofs.Cursor.Expression
import SequenceDiagram.Proofs.Cursor.Head
import SequenceDiagram.Proofs.Cursor.Constructs
import SequenceDiagram.Proofs.Cursor.Statements
import SequenceDiagram.Proofs.Cursor.Program
