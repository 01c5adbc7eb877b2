import SequenceDiagram.Syntax.Head
import SequenceDiagram.Syntax.Statements

namespace SequenceDiagram

open Syntax

/-!
# Programs

`parse` reads a source: its head, then its statements. It has an answer for every source.
-/

/-- The empty span behind the last character; it has the line of the last lexeme. -/
def endOfInput (source : String) (lexemes : List Lexeme) : Span :=
  let line := (lexemes.getLast?.map (·.span.line)).getD 1
  ⟨source.utf8ByteSize, source.utf8ByteSize, line, 0⟩

/-- The syntax tree of a source. -/
def parse (source : String) : Program :=
  let lexemes := lex source
  let stop := endOfInput source lexemes
  let (head, start) := Head.ofLexemes stop (Scan.skipSeparators lexemes)
  let (statements, rest) := Statements.ofLexemes stop false (start.length + 1) start
  { head := head
    block := .present statements (Scan.spanUpTo stop start rest)
    span := ⟨0, source.utf8ByteSize, 1, 0⟩ }

end SequenceDiagram
