import SequenceDiagram.Syntax.Expression

namespace SequenceDiagram

open Syntax

/-!
# Statements

Reading never fails. A statement that is not understood is skipped up to the end of its line, and a
run of closing braces that nothing opened is one statement that holds no construct.

* Every construct is read by a function that is told how to read what stands in braces.
* `Statements.ofLexemes` ties them together. Its bound counts the statements and the braces that can
  still come; a source never has more of them than lexemes.
-/

namespace Statements

variable (endOfInput : Span)

/-! ### Parts of constructs -/

/-- Reads a condition in parentheses. -/
def condition (s : List Lexeme) : Option Condition × List Lexeme :=
  if Scan.startsWith .openParen s then
    let (inner, rest) := Scan.balanced 0 s.tail
    (some ⟨Scan.tokenOf endOfInput inner rest, Expression.ofLexemes? inner⟩,
      Scan.skip .closeParen rest)
  else (none, s)

/-- Reads arguments in parentheses. -/
def arguments (s : List Lexeme) : Option Arguments × List Lexeme :=
  if Scan.startsWith .openParen s then
    let (inner, rest) := Scan.balanced 0 s.tail
    let token := Scan.tokenOf endOfInput inner rest
    let expressions := (Expression.splitCommas 0 inner).filterMap Expression.ofLexemes?
    (some ⟨expressions, token.text, token.span⟩, Scan.skip .closeParen rest)
  else (none, s)

/-- Reads the variable, and its type if there is one, that takes the result of what follows. -/
def assignment (s : List Lexeme) : Option Assignment × List Lexeme :=
  if Scan.startsWith .name s && Scan.startsWith .name s.tail && Scan.startsWith .assign (s.drop 2)
      && !Scan.startsWithWord "new" s then
    (some ⟨(Scan.name s.tail).1, (Scan.name s).1⟩, s.drop 3)
  else if Scan.startsWith .name s && Scan.startsWith .assign s.tail then
    (some ⟨(Scan.name s).1, none⟩, s.drop 2)
  else (none, s)

/-- Reads a colon and the rest of the line. -/
def content (s : List Lexeme) : Option Token × List Lexeme :=
  if Scan.startsWith .colon s then
    let (taken, rest) := Scan.restOfLine false s.tail
    (Scan.tokenUnlessEmpty endOfInput taken rest, rest)
  else (none, s)

/-! ### Constructs without inner blocks -/

/-- Reads `return` and the rest of the statement. -/
def ret (s : List Lexeme) : Construct × List Lexeme :=
  let (taken, rest) := Scan.restOfLine true s.tail
  (.ret ⟨Scan.tokenUnlessEmpty endOfInput taken rest, none, Scan.spanUpTo endOfInput s rest⟩, rest)

/-- Reads a message behind `@return`. -/
def annotatedReturn (s : List Lexeme) : Construct × List Lexeme :=
  let inner := s.drop 2
  let (sender, rest) := Scan.name inner
  let (receiver, rest) := Scan.name (Scan.skip .arrow rest)
  let (content, rest) := content endOfInput rest
  let message := ⟨sender, receiver, content, Scan.spanUpTo endOfInput inner rest⟩
  (.ret ⟨none, some message, Scan.spanUpTo endOfInput s rest⟩, rest)

/-- Reads a divider: the note goes up to the closing `==` or the end of the line. -/
def divider (s : List Lexeme) : Construct × List Lexeme :=
  let inner := fun l : Lexeme => l.kind ≠ .doubleEqual && l.kind ≠ .newline
  let taken := s.tail.takeWhile inner
  let note := Scan.tokenUnlessEmpty endOfInput taken (s.tail.dropWhile inner)
  let rest := Scan.skip .doubleEqual (s.tail.dropWhile inner)
  (.divider ⟨note, Scan.spanUpTo endOfInput s rest⟩, rest)

/-- Reads the names in a reference up to its closing parenthesis or up to a brace. -/
def referenceNames : List Lexeme → List Token × List Lexeme
  | [] => ([], [])
  | l :: rest =>
    match l.kind with
    | .closeParen => ([], rest)
    | .openBrace => ([], l :: rest)
    | .closeBrace => ([], l :: rest)
    | _ =>
      let (names, rest) := referenceNames rest
      (if l.isNaming then l.token :: names else names, rest)

/-- Reads `ref(` and its names. -/
def reference (s : List Lexeme) : Construct × List Lexeme :=
  let (names, rest) := referenceNames (s.drop 2)
  (.reference ⟨names, Scan.spanUpTo endOfInput s rest⟩, rest)

/-! ### Constructs with inner blocks -/

variable (body : List Lexeme → List Statement × List Lexeme)

/-- Reads statements in braces, if an opening brace comes next. -/
def block (s : List Lexeme) : Block × List Lexeme :=
  if Scan.startsWith .openBrace s then
    let (statements, rest) := body s.tail
    let rest := Scan.skip .closeBrace rest
    (.present statements (Scan.spanUpTo endOfInput s rest), rest)
  else (.missing, s)

/-- Reads a guard and a block. -/
def branch (role : BranchRole) (s : List Lexeme) : Branch × List Lexeme :=
  let (guard, rest) := condition endOfInput s
  let (inner, rest) := block endOfInput body rest
  (.mk role guard inner, rest)

/-- Reads a block that makes a branch only if it is there. -/
def unguardedBranch (role : BranchRole) (s : List Lexeme) : List Branch × List Lexeme :=
  let (inner, rest) := block endOfInput body s
  (if inner.isPresent then [.mk role none inner] else [], rest)

/-- Reads `else if` branches and a last `else`; at most `fuel` lexemes are left. -/
def elseBranches : Nat → List Lexeme → List Branch × List Lexeme
  | 0, s => ([], s)
  | fuel + 1, s =>
    match Scan.skipToWord? "else" s with
    | none => ([], s)
    | some rest =>
      if Scan.startsWithWord "if" rest then
        let (first, rest) := branch endOfInput body .furtherCondition rest.tail
        let (others, rest) := elseBranches fuel rest
        (first :: others, rest)
      else unguardedBranch endOfInput body .otherwise rest

/-- Reads `catch` branches; at most `fuel` lexemes are left. -/
def catchBranches : Nat → List Lexeme → List Branch × List Lexeme
  | 0, s => ([], s)
  | fuel + 1, s =>
    match Scan.skipToWord? "catch" s with
    | none => ([], s)
    | some rest =>
      let (first, rest) := branch endOfInput body .handler rest
      let (others, rest) := catchBranches fuel rest
      (first :: others, rest)

/-- Reads a last `finally` branch. -/
def finallyBranch (s : List Lexeme) : List Branch × List Lexeme :=
  match Scan.skipToWord? "finally" s with
  | none => ([], s)
  | some rest => unguardedBranch endOfInput body .cleanup rest

/-- Reads `if` and its branches. -/
def alternative (s : List Lexeme) : Construct × List Lexeme :=
  let (first, rest) := branch endOfInput body .condition s.tail
  let (others, rest) := elseBranches endOfInput body (rest.length + 1) rest
  (.block .alternative (first :: others) (Scan.spanUpTo endOfInput s rest), rest)

/-- Reads `try` and its branches. -/
def tryCatch (s : List Lexeme) : Construct × List Lexeme :=
  let (attempt, rest) := block endOfInput body s.tail
  let (handlers, rest) := catchBranches endOfInput body (rest.length + 1) rest
  let (cleanup, rest) := finallyBranch endOfInput body rest
  (.block .tryCatch (.mk .attempt none attempt :: (handlers ++ cleanup))
    (Scan.spanUpTo endOfInput s rest), rest)

/-- Reads a keyword, a guard and a block. -/
def guarded (kind : BlockKind) (s : List Lexeme) : Construct × List Lexeme :=
  let (only, rest) := branch endOfInput body .body s.tail
  (.block kind [only] (Scan.spanUpTo endOfInput s rest), rest)

/-- Reads a keyword and a block. -/
def unguarded (kind : BlockKind) (s : List Lexeme) : Construct × List Lexeme :=
  let (inner, rest) := block endOfInput body s.tail
  (.block kind [.mk .body none inner] (Scan.spanUpTo endOfInput s rest), rest)

/-- Reads `new`, which comes next in `rest`; the statement started at `s`. -/
def creation (s : List Lexeme) (assignment : Option Assignment) (rest : List Lexeme) :
    Construct × List Lexeme :=
  let (constructor, rest) := Scan.name rest.tail
  let (arguments, rest) := arguments endOfInput rest
  let (inner, rest) := block endOfInput body rest
  (.creation ⟨assignment, constructor, arguments, Scan.spanUpTo endOfInput s rest⟩ inner, rest)

/-- Reads the arguments and the body of a call; the statement started at `s`. -/
def call (s : List Lexeme) (assignment : Option Assignment) (sender receiver method : Option Token)
    (rest : List Lexeme) : Construct × List Lexeme :=
  let (arguments, rest) := arguments endOfInput rest
  let (inner, rest) := block endOfInput body rest
  (.call ⟨sender, receiver, method, arguments, assignment, Scan.spanUpTo endOfInput s rest⟩ inner,
    rest)

/-- Reads what follows the first name of a message: an arrow, a dot, or neither. -/
def message (s : List Lexeme) (assignment : Option Assignment) (first : Token)
    (rest : List Lexeme) : Construct × List Lexeme :=
  if Scan.startsWith .arrow rest then
    let (receiver, rest) := Scan.name rest.tail
    if Scan.startsWith .dot rest then
      let (method, rest) := Scan.name rest.tail
      call endOfInput body s assignment (some first) receiver method rest
    else
      let (content, rest) := content endOfInput rest
      (.asyncMessage ⟨some first, receiver, content, Scan.spanUpTo endOfInput s rest⟩, rest)
  else if Scan.startsWith .dot rest then
    let (method, rest) := Scan.name rest.tail
    call endOfInput body s assignment none (some first) method rest
  else call endOfInput body s assignment none none (some first) rest

/-- Reads a call, an asynchronous message or a creation. An assignment of nothing is a call without
    a method. -/
def interaction (s : List Lexeme) : Option Construct × List Lexeme :=
  let (assignment, rest) := assignment s
  if Scan.startsWithWord "new" rest then
    let (construct, rest) := creation endOfInput body s assignment rest
    (some construct, rest)
  else
    match Scan.name rest with
    | (some first, rest) =>
      let (construct, rest) := message endOfInput body s assignment first rest
      (some construct, rest)
    | (none, rest) =>
      (assignment.map fun a =>
        .call ⟨none, none, none, none, some a, Scan.spanUpTo endOfInput s rest⟩ .missing, rest)

/-! ### Statements -/

/-- The construct that a word starts, if it is a keyword here. -/
def keywordConstruct? (s : List Lexeme) (word : String) : Option (Construct × List Lexeme) :=
  if word = "if" then some (alternative endOfInput body s)
  else if word ∈ ["while", "for", "forEach", "foreach", "loop"] then
    some (guarded endOfInput body .loop s)
  else if word = "par" then some (unguarded endOfInput body .parallel s)
  else if word = "opt" then some (unguarded endOfInput body .optional s)
  else if word = "critical" then some (guarded endOfInput body .critical s)
  else if word = "section" then some (guarded endOfInput body .sectionBlock s)
  else if word = "try" then some (tryCatch endOfInput body s)
  else if word = "ref" ∧ Scan.startsWith .openParen s.tail then some (reference endOfInput s)
  else if word = "return" then some (ret endOfInput s)
  else none

/-- Reads the construct of a statement, if there is one. -/
def construct? (s : List Lexeme) : Option Construct × List Lexeme :=
  match Scan.kind? s with
  | some .doubleEqual =>
    let (construct, rest) := divider endOfInput s
    (some construct, rest)
  | some .atSign =>
    if Scan.startsWithWord "return" s.tail then
      let (construct, rest) := annotatedReturn endOfInput s
      (some construct, rest)
    else (none, s)
  | some .name =>
    match (Scan.word? s).bind (keywordConstruct? endOfInput body s) with
    | some (construct, rest) => (some construct, rest)
    | none => interaction endOfInput body s
  | some .quoted => interaction endOfInput body s
  | _ => (none, s)

/-- Reads a statement. -/
def statement (s : List Lexeme) : Statement × List Lexeme :=
  match construct? endOfInput body s with
  | (some construct, rest) =>
    let token := Scan.tokenOf endOfInput (Scan.upTo s rest) rest
    (.recognized construct token.span token.text, rest)
  | (none, rest) =>
    let rest := (Scan.restOfStatement rest).2
    let token := Scan.tokenOf endOfInput (Scan.upTo s rest) rest
    (.unrecognized token.span token.text, rest)

/-- Reads a run of closing braces. -/
def strayBraces (s : List Lexeme) : Statement × List Lexeme :=
  let rest := s.dropWhile (·.kind = .closeBrace)
  let token := Scan.tokenOf endOfInput (s.takeWhile (·.kind = .closeBrace)) rest
  (.unrecognized token.span token.text, rest)

/-- Reads statements up to the end, or up to a closing brace if `nested`. -/
def ofLexemes (nested : Bool) : Nat → List Lexeme → List Statement × List Lexeme
  | 0, s => ([], s)
  | fuel + 1, s =>
    let s := Scan.skipSeparators s
    match Scan.kind? s with
    | none => ([], s)
    | some kind =>
      if kind = .closeBrace && nested then ([], s)
      else
        let (first, rest) :=
          if kind = .closeBrace then strayBraces endOfInput s
          else statement endOfInput (ofLexemes true fuel) s
        let (others, rest) := ofLexemes nested fuel rest
        (first :: others, rest)

end Statements

end SequenceDiagram
