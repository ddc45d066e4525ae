import InstrumentResponse.Decimal.Reading
import InstrumentResponse.Record.Fault
import InstrumentResponse.Text.DecimalDigit
import InstrumentResponse.Text.Words

/-!
# Record lines

A text is a list of record lines `BxxxFyy label: value` or `BxxxFyy-zz v v v`, among blank lines and
comments, which begin with `#`.

* `Line.read`: a record line is told by its prefix.
* `entries`: the record lines of a text, with the damaged ones kept as such.
* `Line.value`, `Line.tokens` and the functions after them: what the fields of a line hold.
-/

namespace InstrumentResponse.Record

/-- A record line. -/
structure Line where
  /-- The number of the line in its text, from 1 on. -/
  number : Nat
  text : String
  blockette : Nat
  field : Nat
  /-- The last field of a range of fields. -/
  lastField : Option Nat
  /-- What follows the prefix. -/
  rest : String
deriving DecidableEq, Repr

/-- A line that is neither blank nor a comment. -/
inductive Entry where
  | record (line : Line)
  /-- A line whose prefix names no record. -/
  | damaged (number : Nat) (text : String)
deriving DecidableEq, Repr

/-- The number that the digits of a prefix denote: 0 if one of them is not an ASCII digit. -/
def prefixNumber (cs : List Char) : Nat := (Decimal.readDigits? cs).getD 0

/-- Blockette, field and last field of a prefix `BxxxFyy` or `BxxxFyy-zz`, in decimal digits of any
script. -/
def readPrefix? (cs : List Char) : Option (Nat × Nat × Option Nat) :=
  match cs with
  | ['B', a, b, c, 'F', d, e] =>
    if [a, b, c, d, e].all Text.isDecimalDigit then
      some (prefixNumber [a, b, c], prefixNumber [d, e], none)
    else none
  | ['B', a, b, c, 'F', d, e, '-', f, g] =>
    if [a, b, c, d, e, f, g].all Text.isDecimalDigit then
      some (prefixNumber [a, b, c], prefixNumber [d, e], Decimal.readDigits? [f, g])
    else none
  | _ => none

/-- Tells a line by its text up to the first blank. -/
def Entry.read (number : Nat) (text : String) : Entry :=
  let cs := text.toList
  let head := cs.takeWhile (!Text.isBlank ·)
  match readPrefix? head with
  | some (blockette, field, lastField) =>
    .record ⟨number, text, blockette, field, lastField,
      String.ofList (cs.dropWhile (!Text.isBlank ·))⟩
  | none => .damaged number text

/-- The entry of a line, none for a blank line or a comment. -/
def Entry.ofLine? (line : List Char) (number : Nat) : Option Entry :=
  match Text.trimChars line with
  | [] => none
  | '#' :: _ => none
  | cs => some (.read number (String.ofList cs))

/-- The record lines of a text, in order. -/
def entries (text : String) : List Entry :=
  ((Text.linesOf text.toList).zipIdx 1).filterMap fun (line, number) => Entry.ofLine? line number

/-- The number of lines of a text. -/
def lineCount (text : String) : Nat := (Text.linesOf text.toList).length

namespace Line

/-- Does a line belong to a record? -/
def isRecord (l : Line) (blockette field : Nat) : Bool :=
  l.blockette == blockette && l.field == field

/-- The line that opens a channel. -/
def isHeader (l : Line) : Bool := l.isRecord 50 3

/-- A line is refused. -/
def refuse (l : Line) (cause : Cause) : ReadFault := .line l.number l.blockette l.field l.text cause

/-- The text after the first colon, without blanks around it. -/
def value (l : Line) : Except ReadFault String :=
  match Text.cutAt ':' l.rest.toList with
  | (_, some cs) => .ok (String.ofList (Text.trimChars cs))
  | (_, none) => .error (l.refuse .noSeparator)

/-- The first word of the value. -/
def firstWord (l : Line) : Except ReadFault String := do
  match Text.words (← l.value) with
  | word :: _ => return word
  | [] => throw (l.refuse .emptyValue)

/-- The words after the prefix. -/
def tokens (l : Line) : List String := Text.words l.rest

/-- A word that denotes a finite number. -/
def numberOf (l : Line) (word : String) : Except ReadFault Float :=
  match Decimal.readDouble? word with
  | some x => if x.isFinite then .ok x else .error (l.refuse (.notNumber word))
  | none => .error (l.refuse (.notNumber word))

/-- The value of a line as a finite number. -/
def decimal (l : Line) : Except ReadFault Float := do
  l.numberOf (← l.firstWord)

/-- The value of a line as a whole number. -/
def integer (l : Line) : Except ReadFault Int := do
  let word ← l.firstWord
  match Decimal.readSigned64? word with
  | some n => return n
  | none => throw (l.refuse (.notInteger word))

/-- The value of a line as a count. -/
def count (l : Line) : Except ReadFault Nat := do
  let n ← l.integer
  if n < 0 then throw (l.refuse (.negativeCount n)) else return n.toNat

/-- The value of a line as a whole number of 32 bits. -/
def smallCount (l : Line) (refusal : Int → Cause) : Except ReadFault Nat := do
  let n ← l.integer
  if 0 ≤ n ∧ n ≤ Decimal.greatest32 then return n.toNat else throw (l.refuse (refusal n))

/-- The first character of the value, an ASCII letter as a capital. -/
def code (l : Line) : Except ReadFault Char := do
  match (← l.firstWord).toList with
  | c :: _ => return if 'a' ≤ c ∧ c ≤ 'z' then Char.ofNat (c.toNat - 32) else c
  | [] => throw (l.refuse .emptyValue)

/-- The number at a position of a row, counted from 0. -/
def numberAt (l : Line) (position : Nat) : Except ReadFault Float :=
  match l.tokens[position]? with
  | some word => l.numberOf word
  | none => .error (l.refuse (.missingValue (position + 1)))

end Line

end InstrumentResponse.Record
