/-
Module: MeterRadio.Log.Writer
Purpose: Writing entries to a sink in one of the formats.
Main exports: Log.WriteError, Log.render, Log.Writer, Log.Writer.write, Log.Writer.close
-/
import MeterRadio.Csv.Buffer
import MeterRadio.Log.Format
import MeterRadio.Log.Json
import MeterRadio.Log.Xml

namespace MeterRadio.Log

/-- Why an entry was not written: the sink failed, or it failed in the middle of encoding. -/
inductive WriteError where
  | io (fault : Fault)
  | json (fault : Fault)
  | csv (fault : Fault)
deriving Repr, DecidableEq

namespace WriteError

/-- The fault behind an error. -/
def fault : WriteError → Fault
  | .io fault => fault
  | .json fault => fault
  | .csv fault => fault

/-- The wording of an error. -/
def message : WriteError → String
  | .io fault => "failed to write log entry: " ++ fault.message
  | .json fault => "failed to encode JSON log entry: " ++ fault.message
  | .csv fault => "failed to encode CSV log entry: " ++ fault.message

end WriteError

/-- The line or lines of an entry. The place of the samples is always in the structured formats;
plain text has it on demand. -/
def render (format : Format) (withOffset : Bool) (e : Entry) : List Char :=
  match format with
  | .plain => (if withOffset then e.plain else e.withoutOffset).toList ++ ['\n']
  | .json => e.toJson.chars ++ ['\n']
  | .csv => Csv.line e.fields
  | .xml => e.xml ++ ['\n']

/-- A writer over a sink. Only comma-separated records are held back, and only until they are
complete. -/
inductive Output where
  | direct (sink : Sink Char)
  | buffered (buffer : Csv.Buffer)
deriving Repr, DecidableEq

/-- A log that is being written. -/
structure Writer where
  format : Format
  withOffset : Bool
  output : Output
deriving Repr, DecidableEq

namespace Writer

/-- A writer in front of a sink. -/
def fresh (format : Format) (withOffset : Bool) (sink : Sink Char) : Writer :=
  { format, withOffset
    output := match format with
      | .csv => .buffered (.fresh sink)
      | _ => .direct sink }

/-- What has reached the sink. -/
def sink (w : Writer) : Sink Char :=
  match w.output with
  | .direct sink => sink
  | .buffered buffer => buffer.sink

/-- The error of a failed write of a whole line. -/
def writeFailure : Format → Fault → WriteError
  | .json, fault => .json fault
  | _, fault => .io fault

/-- Writes a line and flushes the sink. -/
def writeLine (faults : Sink.Faults) (format : Format) (sink : Sink Char) (line : List Char) :
    Sink Char × Option WriteError :=
  match sink.write faults line with
  | (sink, some fault) => (sink, some (writeFailure format fault))
  | (sink, none) => (sink, faults.flush.map .io)

/-- Writes a record into the buffer and flushes the buffer. -/
def writeRecord (faults : Sink.Faults) (buffer : Csv.Buffer) (fields : List String) :
    Csv.Buffer × Option WriteError :=
  match buffer.write faults fields with
  | (buffer, some fault) => (buffer, some (.csv fault))
  | (buffer, none) =>
    let (buffer, fault) := buffer.flush faults
    (buffer, fault.map .io)

/-- Writes an entry, so that it has reached the sink when no error is returned. -/
def write (faults : Sink.Faults) (w : Writer) (e : Entry) : Writer × Option WriteError :=
  match w.output with
  | .direct sink =>
    let (sink, error) := writeLine faults w.format sink (render w.format w.withOffset e)
    ({ w with output := .direct sink }, error)
  | .buffered buffer =>
    let (buffer, error) := writeRecord faults buffer e.fields
    ({ w with output := .buffered buffer }, error)

/-- The sink after the writer is done with: what is still held goes out if the sink takes it. -/
def close (faults : Sink.Faults) (w : Writer) : Sink Char :=
  match w.output with
  | .direct sink => sink
  | .buffered buffer => buffer.close faults

end Writer
end MeterRadio.Log
