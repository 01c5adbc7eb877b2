import SequenceDiagram.Binary32.Decimal
import SequenceDiagram.Config.Setting
import SequenceDiagram.Text.Hexadecimal

namespace SequenceDiagram.Toml

/-!
# Values without brackets and quotes in TOML

`word?` is the value of a word: a truth value, a number (`number?`), or a date or time
(`isDateTime`), of which nothing but its form matters. `takeWord` finds the word.
-/

/-! ### Numbers -/

/-- A value without brackets. -/
inductive Scalar where
  | integer (value : Int)
  | decimal (value : Decimal)
  | infinite (negative : Bool)
  | nan
  | other
  deriving DecidableEq

namespace Scalar

/-- An integer has at most 128 bits, and a decimal lies in the range of binary64. -/
def isInRange : Scalar → Bool
  | integer n => -Nat.pow 2 127 ≤ n && n < Nat.pow 2 128
  | decimal d => d.viaBinary64?.isSome
  | _ => true

/-- The value as a size. Integers have 64 bits, and decimals go through binary64. -/
def size? : Scalar → Option Binary32
  | integer n =>
    if -Nat.pow 2 63 ≤ n ∧ n < Nat.pow 2 64 then some (Decimal.toBinary32 ⟨n < 0, n.natAbs, 0⟩)
    else none
  | decimal d => d.viaBinary64?
  | infinite negative => some (.infinite negative)
  | nan => some .nan
  | other => none

/-- The value as a count. -/
def count? : Scalar → Option Nat
  | integer n => Setting.countOfInt? n
  | _ => none

end Scalar

/-- Digits, in which an underscore may stand between two. -/
def isDigits (isDigit : Char → Bool) (cs : List Char) : Bool :=
  cs.head?.any isDigit && cs.getLast?.any isDigit && cs.all (fun c => isDigit c || c == '_') &&
    (cs.zip cs.tail).all fun (a, b) => a ≠ '_' || b ≠ '_'

/-- The value of digits in a base. -/
def digitsIn (base : Nat) (cs : List Char) : Nat :=
  (cs.filter (· ≠ '_')).foldl (fun n c => base * n + hexDigitValue c) 0

/-- The part of a decimal behind the `e`. -/
def exponent? (cs : List Char) : Option Int :=
  let (negative, digits) := Decimal.splitSign cs
  if isDigits Char.isDigit digits then
    some (if negative then -(digitsIn 10 digits : Int) else digitsIn 10 digits)
  else none

/-- The part of a decimal behind the digits before the point. -/
def decimal? (negative : Bool) (whole : List Char) : List Char → Option Scalar
  | '.' :: rest =>
    let (fraction, rest) := rest.span fun c => c.isDigit || c == '_'
    if isDigits Char.isDigit fraction then
      match rest with
      | [] => some (finish fraction 0)
      | e :: rest => if e.toLower = 'e' then (exponent? rest).map (finish fraction) else none
    else none
  | e :: rest => if e.toLower = 'e' then (exponent? rest).map (finish []) else none
  | [] => none
where
  finish (fraction : List Char) (exponent : Int) : Scalar :=
    let digits (cs : List Char) : List Char := cs.filter (· ≠ '_')
    .decimal (.ofDigits negative (digits whole) (digits fraction) exponent)

/-- A number in base ten: no zero before other digits, and digits on both sides of a point. -/
def number? (cs : List Char) : Option Scalar :=
  let (negative, body) := Decimal.splitSign cs
  let (whole, rest) := body.span fun c => c.isDigit || c == '_'
  if isDigits Char.isDigit whole ∧ (whole.head? ≠ some '0' ∨ whole = ['0']) then
    if rest = [] then
      let value : Int := digitsIn 10 whole
      some (.integer (if negative then -value else value))
    else decimal? negative whole rest
  else none

/-- An integer in another base. -/
def integerIn? (base : Nat) (isDigit : Char → Bool) (cs : List Char) : Option Scalar :=
  if isDigits isDigit cs then some (.integer (digitsIn base cs)) else none

/-! ### Dates and times -/

/-- Reads a number of two digits that is not larger than `most`. -/
def twoDigits? (most : Nat) : List Char → Option (List Char)
  | a :: b :: rest =>
    if a.isDigit && b.isDigit && digitsIn 10 [a, b] ≤ most then some rest else none
  | _ => none

/-- The number of days in a month. -/
def daysIn (year month : Nat) : Nat :=
  if month = 2 then
    if year % 4 = 0 ∧ (year % 100 ≠ 0 ∨ year % 400 = 0) then 29 else 28
  else if [4, 6, 9, 11].contains month then 30
  else 31

/-- Reads a date: year, month and day. -/
def date? (cs : List Char) : Option (List Char) :=
  match cs.span Char.isDigit with
  | ([a, b, c, d], '-' :: e :: f :: '-' :: g :: h :: rest) =>
    let year := digitsIn 10 [a, b, c, d]
    let month := digitsIn 10 [e, f]
    let day := digitsIn 10 [g, h]
    if [e, f, g, h].all Char.isDigit ∧ 1 ≤ month ∧ month ≤ 12 ∧ 1 ≤ day ∧ day ≤ daysIn year month
    then some rest else none
  | _ => none

/-- Reads the fraction of a second, if there is one. -/
def fraction? : List Char → Option (List Char)
  | '.' :: c :: rest => if c.isDigit then some (rest.dropWhile Char.isDigit) else none
  | '.' :: [] => none
  | rest => some rest

/-- Reads a time: hour, minute, and the second, which may be left out. -/
def time? (cs : List Char) : Option (List Char) :=
  match twoDigits? 23 cs with
  | some (':' :: rest) =>
    match twoDigits? 59 rest with
    | some (':' :: rest) => (twoDigits? 60 rest).bind fraction?
    | result => result
  | _ => none

/-- Reads the distance of a time from universal time, if it is given. -/
def offset? : List Char → Option (List Char)
  | [] => some []
  | c :: rest =>
    if c.toLower = 'z' then some rest
    else if c = '+' ∨ c = '-' then
      match twoDigits? 23 rest with
      | some (':' :: rest) => twoDigits? 59 rest
      | _ => none
    else none

/-- The text is a date, a time, or a date and a time, to which an offset may belong. -/
def isDateTime (cs : List Char) : Bool :=
  match date? cs with
  | none => time? cs == some []
  | some [] => true
  | some (c :: rest) => (c.toLower == 't' || c == ' ') && (time? rest).bind offset? == some []

/-! ### Words -/

/-- The value of a word, if it is not too large. -/
def word? (cs : List Char) : Option Scalar :=
  let (negative, body) := Decimal.splitSign cs
  let value := match cs with
    | '0' :: 'x' :: rest => integerIn? 16 isHexDigit rest
    | '0' :: 'o' :: rest => integerIn? 8 (fun c => '0' ≤ c && c ≤ '7') rest
    | '0' :: 'b' :: rest => integerIn? 2 (fun c => c == '0' || c == '1') rest
    | _ =>
      if cs = "true".toList ∨ cs = "false".toList ∨ isDateTime cs then some .other
      else if body = "inf".toList then some (.infinite negative)
      else if body = "nan".toList then some .nan
      else number? cs
  value.filter Scalar.isInRange

/-- A letter, a digit, an underscore or a dash. -/
def isBareKey (c : Char) : Bool := c.isAlphanum || c == '_' || c == '-'

/-- A character of a word. -/
def isWord (c : Char) : Bool := isBareKey c || c == '+' || c == '.' || c == ':'

/-- The word that starts here and the text behind it. A space may stand between a date and a
    time. -/
def takeWord (cs : List Char) : List Char × List Char :=
  let (word, rest) := cs.span isWord
  match date? word, rest with
  | some [], ' ' :: c :: more =>
    if c.isDigit then
      let (time, rest) := (c :: more).span isWord
      (word ++ ' ' :: time, rest)
    else (word, rest)
  | _, _ => (word, rest)

end SequenceDiagram.Toml
