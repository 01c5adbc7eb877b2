namespace SequenceDiagram

/-!
# Places in the source

* A `Position` is a place between two characters; `Position.after` moves it over some text.
* A `Span` is a stretch of the source with the line and the column of its first byte.

Offsets and columns count UTF-8 bytes, lines count from one, columns from zero.
-/

/-! ### Positions -/

/-- A place in the source. -/
structure Position where
  offset : Nat
  line : Nat
  column : Nat
  deriving DecidableEq

namespace Position

/-- The start of the source. -/
def start : Position := ⟨0, 1, 0⟩

/-- The place behind one more character. -/
def next (p : Position) (c : Char) : Position :=
  if c = '\n' then ⟨p.offset + c.utf8Size, p.line + 1, 0⟩
  else ⟨p.offset + c.utf8Size, p.line, p.column + c.utf8Size⟩

/-- The place behind some more characters. -/
def after (p : Position) (cs : List Char) : Position := cs.foldl next p

@[simp] theorem after_nil (p : Position) : p.after [] = p := rfl

@[simp] theorem after_cons (p : Position) (c : Char) (cs : List Char) :
    p.after (c :: cs) = (p.next c).after cs := rfl

@[simp] theorem after_append (p : Position) (cs ds : List Char) :
    p.after (cs ++ ds) = (p.after cs).after ds := List.foldl_append ..

@[simp] theorem offset_next (p : Position) (c : Char) :
    (p.next c).offset = p.offset + c.utf8Size := by
  unfold next
  split <;> rfl

/-- A text moves the offset by its bytes. -/
theorem offset_after (p : Position) (cs : List Char) :
    (p.after cs).offset = p.offset + (String.ofList cs).utf8ByteSize := by
  induction cs generalizing p with
  | nil => simp [String.ofList_nil]
  | cons c cs ih =>
    have hsize : (String.ofList (c :: cs)).utf8ByteSize =
        c.utf8Size + (String.ofList cs).utf8ByteSize := by
      rw [← List.singleton_append, String.ofList_append, String.utf8ByteSize_append,
        ← String.singleton_eq_ofList, String.utf8ByteSize_singleton]
    rw [after_cons, ih, offset_next, hsize, Nat.add_assoc]

end Position

/-! ### Spans -/

/-- The stretch from `start` up to before `stop`; `line` and `column` are those of `start`. -/
structure Span where
  start : Nat
  stop : Nat
  line : Nat
  column : Nat
  deriving DecidableEq, Inhabited

namespace Span

/-- The span of a text that starts at a position. -/
def ofText (p : Position) (text : List Char) : Span :=
  ⟨p.offset, (p.after text).offset, p.line, p.column⟩

/-- The empty span at the start of a span. -/
def empty (s : Span) : Span := ⟨s.start, s.start, s.line, s.column⟩

/-- The smallest span that covers both. -/
def join (s t : Span) : Span :=
  let first := if s.start ≤ t.start then s else t
  ⟨first.start, max s.stop t.stop, first.line, first.column⟩

/-- The span without a place, which stands for what was never written. -/
def nowhere : Span := ⟨0, 0, 0, 0⟩

/-- The spans are ordered by start, then stop, then line, then column. -/
def before (s t : Span) : Bool :=
  s.start < t.start || (s.start == t.start && (s.stop < t.stop || (s.stop == t.stop &&
    (s.line < t.line || (s.line == t.line && s.column < t.column)))))

end Span

/-! ### Tokens -/

/-- A piece of text and where it was read. -/
structure Token where
  text : String
  span : Span
  deriving DecidableEq

/-- The token that stands for missing text. -/
def Token.missing : Token := ⟨"", .nowhere⟩

/-- The token is there and its text is not empty. -/
def Token.isNamed : Option Token → Bool
  | some t => t.text ≠ ""
  | none => false

/-- The text of a token that is there and not empty. -/
def Token.text? (token : Option Token) : Option String :=
  (token.map (·.text)).filter (· ≠ "")

end SequenceDiagram
