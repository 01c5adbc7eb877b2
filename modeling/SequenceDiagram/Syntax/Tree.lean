import SequenceDiagram.Source.Span

namespace SequenceDiagram.Syntax

/-!
# The syntax tree

What a source says, before names are resolved. Every child may be missing, so that a half-written
source still has a tree.

* A `Program` is a head, which declares participants, and a block of statements.
* A `Statement` holds at most one `Construct`. Where several readings of a statement are at hand,
  `Statement.ofCandidates` takes the one that comes first in `Construct.rank`.
* All constructs with inner blocks are either calls and creations, which have one body, or blocks of
  a `BlockKind` with a list of branches.
-/

/-! ### Expressions -/

/-- An expression in an argument list or in a condition. -/
inductive Expression where
  | atom (token : Token)
  | invocation (target method : Option Token) (arguments : List Expression)
  | raw (token : Token)

/-- What stands between the parentheses of a guard. -/
structure Condition where
  text : Token
  expression : Option Expression

/-- What stands between the parentheses of a call. -/
structure Arguments where
  expressions : List Expression
  text : String
  span : Span

/-! ### The head -/

/-- The declaration of a participant. -/
structure Declaration where
  name : Option Token
  type : Option Token
  stereotype : Option Token
  label : Option Token
  color : Option Token
  width : Option Token
  span : Span

/-- A group of declarations. -/
structure Group where
  name : Option Token
  members : List Declaration
  span : Span

/-- An entry of the head. -/
inductive HeadItem where
  | participant (declaration : Declaration)
  | group (group : Group)

/-- The declaration of the participant that starts the interaction. -/
structure Starter where
  name : Option Token
  span : Span

/-- The declarations before the statements. -/
structure Head where
  items : List HeadItem
  starter : Option Starter

/-! ### Constructs without inner blocks -/

/-- The variable that takes a result, and its type. -/
structure Assignment where
  assignee : Option Token
  type : Option Token

/-- A synchronous call, without its body. -/
structure Call where
  sender : Option Token
  receiver : Option Token
  method : Option Token
  arguments : Option Arguments
  assignment : Option Assignment
  span : Span

/-- An asynchronous message. -/
structure AsyncMessage where
  sender : Option Token
  receiver : Option Token
  content : Option Token
  span : Span

/-- The creation of a participant, without its body. -/
structure Creation where
  assignment : Option Assignment
  constructor : Option Token
  arguments : Option Arguments
  span : Span

/-- A return, either of an expression or written as a message. -/
structure Return where
  expression : Option Token
  message : Option AsyncMessage
  span : Span

/-- A divider with its note. -/
structure Divider where
  note : Option Token
  span : Span

/-- A reference to another diagram: its name, then the participants it covers. -/
structure Reference where
  names : List Token
  span : Span

/-! ### Statements -/

/-- The kinds of blocks with branches. -/
inductive BlockKind where
  | alternative
  | parallel
  | optional
  | critical
  | sectionBlock
  | loop
  | tryCatch
  deriving DecidableEq

/-- The part that a branch plays in its block. -/
inductive BranchRole where
  | condition
  | furtherCondition
  | otherwise
  | body
  | attempt
  | handler
  | cleanup
  deriving DecidableEq

mutual

/-- A statement, with the source text it was read from. -/
inductive Statement where
  | unrecognized (span : Span) (text : String)
  | recognized (construct : Construct) (span : Span) (text : String)

/-- What a statement means. -/
inductive Construct where
  | call (call : Call) (body : Block)
  | asyncMessage (message : AsyncMessage)
  | creation (creation : Creation) (body : Block)
  | ret (ret : Return)
  | divider (divider : Divider)
  | reference (reference : Reference)
  | block (kind : BlockKind) (branches : List Branch) (span : Span)

/-- One branch of a block. -/
inductive Branch where
  | mk (role : BranchRole) (guard : Option Condition) (body : Block)

/-- Statements in braces, or their absence. -/
inductive Block where
  | missing
  | present (statements : List Statement) (span : Span)

end

/-- A whole source. -/
structure Program where
  head : Option Head
  block : Block
  span : Span

/-! ### Views -/

/-- The statements of a block; a missing block has none. -/
def Block.statements : Block → List Statement
  | .missing => []
  | .present statements _ => statements

/-- The block was written. -/
def Block.isPresent : Block → Bool
  | .missing => false
  | .present _ _ => true

/-- The top-level statements. -/
def Program.statements (program : Program) : List Statement := program.block.statements

/-- The name of the declared starter. -/
def Program.declaredStarter? (program : Program) : Option Token :=
  (program.head.bind (·.starter)).bind (·.name)

namespace Statement

/-- The construct that a statement holds. -/
def construct? : Statement → Option Construct
  | unrecognized _ _ => none
  | recognized construct _ _ => some construct

/-- Where the statement stands. -/
def span : Statement → Span
  | unrecognized span _ => span
  | recognized _ span _ => span

/-- The source text of the statement. -/
def text : Statement → String
  | unrecognized _ text => text
  | recognized _ _ text => text

end Statement

namespace BlockKind

/-- The keyword of the block, which names its kind. -/
def keyword : BlockKind → String
  | alternative => "alt"
  | parallel => "par"
  | optional => "opt"
  | critical => "critical"
  | sectionBlock => "section"
  | loop => "loop"
  | tryCatch => "tcf"

/-- The place of the kind among the constructs. -/
def rank : BlockKind → Nat
  | alternative => 0
  | parallel => 1
  | optional => 2
  | critical => 3
  | sectionBlock => 4
  | loop => 6
  | tryCatch => 12

end BlockKind

/-- The keyword that introduces a branch of a block. -/
def BranchRole.keyword (kind : BlockKind) : BranchRole → String
  | condition => "if"
  | furtherCondition => "else if"
  | otherwise => "else"
  | body => kind.keyword
  | attempt => "try"
  | handler => "catch"
  | cleanup => "finally"

namespace Construct

/-- The name of the construct. -/
def name : Construct → String
  | call _ _ => "message"
  | asyncMessage _ => "async_message"
  | creation _ _ => "creation"
  | ret _ => "return"
  | divider _ => "divider"
  | reference _ => "ref"
  | block kind _ _ => kind.keyword

/-- The precedence of the construct, from the strongest: alt, par, opt, critical, section, ref,
    loop, creation, message, async message, return, divider, tcf. -/
def rank : Construct → Nat
  | reference _ => 5
  | creation _ _ => 7
  | call _ _ => 8
  | asyncMessage _ => 9
  | ret _ => 10
  | divider _ => 11
  | block kind _ _ => kind.rank

/-- The construct of the least rank. -/
def leading? : List Construct → Option Construct
  | [] => none
  | c :: rest =>
    match leading? rest with
    | some d => if d.rank < c.rank then some d else some c
    | none => some c

end Construct

/-- The statement that holds the leading construct among several readings of a text. -/
def Statement.ofCandidates (candidates : List Construct) (span : Span) (text : String) :
    Statement :=
  match Construct.leading? candidates with
  | some construct => .recognized construct span text
  | none => .unrecognized span text

end SequenceDiagram.Syntax
