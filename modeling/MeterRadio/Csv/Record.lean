/-
Module: MeterRadio.Csv.Record
Purpose: Records of comma-separated fields: their line, and the reading of lines back.
Main exports: Csv.line, Csv.needsQuotes, Csv.field, Csv.records?
-/

namespace MeterRadio.Csv

/-! ### Writing -/

/-- Whether a character makes quotes necessary: comma, quote, carriage return and line feed. -/
def isSpecial (c : Char) : Bool :=
  c == ',' || c == '"' || c == '\r' || c == '\n'

/-- Whether a field is written between quotes. -/
def needsQuotes (field : List Char) : Bool := field.any isSpecial

/-- A character inside quotes: a quote is written twice. -/
def doubled (c : Char) : List Char := if c = '"' then ['"', '"'] else [c]

/-- The written form of a field. -/
def field (text : List Char) : List Char :=
  if needsQuotes text then '"' :: text.flatMap doubled ++ ['"'] else text

/-- Written fields with commas between them. -/
def joined : List (List Char) → List Char
  | [] => []
  | [text] => field text
  | text :: next :: rest => field text ++ ',' :: joined (next :: rest)

/-- The line of a record. -/
def line (fields : List String) : List Char :=
  joined (fields.map String.toList) ++ ['\n']

/-! ### Reading -/

/-- Where a reader stands: at the start of a field, in a field without quotes, between quotes, or
after a quote that ends the field unless another one follows. -/
inductive Position where
  | start
  | plain
  | quoted
  | closing
deriving Repr, DecidableEq

/-- What has been read: the current field in reverse order, the fields before it and the records
before that, the last one first. -/
structure Reading where
  position : Position
  current : List Char
  fields : List (List Char)
  records : List (List (List Char))
deriving Repr, DecidableEq

namespace Reading

/-- Nothing read. -/
def initial : Reading := ⟨.start, [], [], []⟩

/-- The current field with one more character. -/
def push (r : Reading) (position : Position) (c : Char) : Reading :=
  { r with position, current := c :: r.current }

/-- Ends the current field. -/
def endField (r : Reading) : Reading :=
  { r with position := .start, current := [], fields := r.current.reverse :: r.fields }

/-- Ends the current field and the record. -/
def endRecord (r : Reading) : Reading :=
  let r := r.endField
  { r with fields := [], records := r.fields.reverse :: r.records }

/-- Takes one character in. A quote stands at the start of a field or between quotes. -/
def step (r : Reading) (c : Char) : Option Reading :=
  match r.position with
  | .quoted => if c = '"' then some { r with position := .closing } else some (r.push .quoted c)
  | position =>
    if c = ',' then some r.endField
    else if c = '\n' then some r.endRecord
    else if c = '"' then
      match position with
      | .start => some { r with position := .quoted }
      | .closing => some (r.push .quoted c)
      | _ => none
    else if position = .closing ∨ c = '\r' then none
    else some (r.push .plain c)

end Reading

/-- The records of a text whose every record ends with a line feed. -/
def records? (text : List Char) : Option (List (List String)) := do
  let r ← text.foldlM Reading.step .initial
  if r.position = .start ∧ r.fields = [] then
    pure (r.records.reverse.map fun record => record.map String.ofList)
  else none

end MeterRadio.Csv
