/-
Module: MeterRadio.Csv.Buffer
Purpose: A writer of comma-separated records that holds text back until it is flushed or until
  its room is used up.
Main exports: Csv.Buffer, Csv.Buffer.write, Csv.Buffer.flush, Csv.Buffer.close
-/
import MeterRadio.Csv.Record
import MeterRadio.Sink

namespace MeterRadio.Csv

/-!
A record is written in strokes, each of which is held as a whole or not at all. A stroke that does
not fit any more sends the held text to the sink first. If the sink refuses it, the record is left
as it is, and the next record goes on from there.
-/

/-- Where a record stands: how many of its fields are finished, whether one is begun, and whether
that one is between quotes. -/
structure Progress where
  finished : Nat
  begun : Bool
  quotes : Bool
deriving Repr, DecidableEq

/-- Between two records. -/
def Progress.fresh : Progress := ⟨0, false, false⟩

/-- A piece of a record, and where the record stands after it. -/
structure Stroke where
  text : List Char
  after : Progress
deriving Repr, DecidableEq

/-- The closing quote of a field that needs one. -/
def closingStroke (p : Progress) : List Stroke :=
  if p.begun && p.quotes then [⟨['"'], { p with begun := false, quotes := false }⟩] else []

/-- The comma between two fields, with the closing quote of the field before it. -/
def commaStrokes (p : Progress) : List Stroke :=
  if p.finished = 0 then []
  else closingStroke p ++ [⟨[','], { p with begun := false, quotes := false }⟩]

/-- The opening quote of a field that needs one. -/
def openingStroke (p : Progress) : Stroke :=
  ⟨if p.quotes then ['"'] else [], { p with begun := true }⟩

/-- A character of a field. -/
def characterStroke (p : Progress) (c : Char) : Stroke :=
  ⟨if p.quotes then doubled c else [c], p⟩

/-- Where a field stands before its characters are written. A field that was begun is gone on
with. -/
def atField (p : Progress) (text : List Char) : Progress :=
  let comma := decide (p.finished ≠ 0)
  if p.begun && !comma then p else ⟨p.finished, true, needsQuotes text⟩

/-- The strokes of a field. -/
def fieldStrokes (p : Progress) (text : List Char) : List Stroke :=
  let start := atField p text
  let opening := if p.begun && p.finished = 0 then [] else [openingStroke start]
  commaStrokes p ++ opening ++ text.map (characterStroke start)
    ++ [⟨[], { start with finished := start.finished + 1 }⟩]

/-- Where a record stands after a field. -/
def afterField (p : Progress) (text : List Char) : Progress :=
  let start := atField p text
  { start with finished := start.finished + 1 }

/-- The strokes of a record. -/
def recordStrokes (p : Progress) : List (List Char) → List Stroke
  | [] => closingStroke p ++ [⟨['\n'], .fresh⟩]
  | text :: rest => fieldStrokes p text ++ recordStrokes (afterField p text) rest

/-- A sink with text held back in front of it. -/
structure Buffer where
  sink : Sink Char
  /-- Held text, the last character first. -/
  held : List Char
  progress : Progress
deriving Repr, DecidableEq

namespace Buffer

/-- Bytes of text that can be held. -/
def capacity : Nat := 8192

/-- A buffer that holds nothing in front of a sink. -/
def fresh (sink : Sink Char) : Buffer := ⟨sink, [], .fresh⟩

/-- Length of a text in UTF-8. -/
def utf8Length (text : List Char) : Nat :=
  text.foldl (fun total c => total + c.utf8Size) 0

/-- Sends the held text to the sink; what the sink refuses stays held. -/
def send (faults : Sink.Faults) (b : Buffer) : Buffer × Option Fault :=
  match b.sink.write faults b.held.reverse with
  | (sink, none) => ({ b with sink, held := [] }, none)
  | (_, some fault) => (b, some fault)

/-- Holds a stroke. -/
def hold (b : Buffer) (s : Stroke) : Buffer :=
  { b with held := s.text.reverse ++ b.held, progress := s.after }

/-- Makes strokes one after the other, `used` bytes being held, until the sink refuses the held
text. -/
def strokes (faults : Sink.Faults) : Nat → Buffer → List Stroke → Buffer × Option Fault
  | _, b, [] => (b, none)
  | used, b, s :: rest =>
    let size := utf8Length s.text
    if used + size ≤ capacity then strokes faults (used + size) (b.hold s) rest
    else
      match b.send faults with
      | (b, none) => strokes faults size (b.hold s) rest
      | (b, some fault) => (b, some fault)

/-- Writes a record. -/
def write (faults : Sink.Faults) (b : Buffer) (fields : List String) : Buffer × Option Fault :=
  strokes faults (utf8Length b.held) b (recordStrokes b.progress (fields.map String.toList))

/-- Sends the held text and flushes the sink. -/
def flush (faults : Sink.Faults) (b : Buffer) : Buffer × Option Fault :=
  match b.send faults with
  | (b, none) => (b, faults.flush)
  | (b, some fault) => (b, some fault)

/-- The sink after the held text went out for the last time, whether it was taken or not. -/
def close (faults : Sink.Faults) (b : Buffer) : Sink Char :=
  (b.flush faults).1.sink

end Buffer
end MeterRadio.Csv
