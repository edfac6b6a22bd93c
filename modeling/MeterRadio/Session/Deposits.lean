/-
Module: MeterRadio.Session.Deposits
Purpose: Where the log and the samples of a capture end up: in files, on devices, on the standard
  output, or both in one place.
Main exports: Session.Written, Session.Deposits, Session.Deposits.output, Session.Deposits.stored
-/
import MeterRadio.Capture.Run
import MeterRadio.Files

namespace MeterRadio.Session

/-- The standard output as a target. -/
def standardOutput : Files.Target := .device .output

/-- What goes wrong in writes to a target. -/
def faults (target : Files.Target) : Sink.Faults := ⟨target.fault, none⟩

/-- Characters as bytes. -/
def encoded (chars : List Char) : Bytes := (String.ofList chars).toUTF8.toList

/-- What was written to the log and to the sample file up to a time. -/
structure Written where
  log : Bytes
  samples : Bytes
deriving Repr, DecidableEq

namespace Written

/-- What was written when a capture has come to a state. -/
def ofState (s : Capture.State Decoder) : Written :=
  ⟨encoded s.log.sink.contents, (s.samples.map fun file => file.sink.contents).getD []⟩

/-- What was written to the log since an earlier time. -/
def logSince (w earlier : Written) : Bytes := w.log.drop earlier.log.length

/-- What was written to the sample file since an earlier time. -/
def samplesSince (w earlier : Written) : Bytes := w.samples.drop earlier.samples.length

/-- Both streams in one, of which each adds to the end. The log is written first. -/
def appended : List Written → Bytes
  | earlier :: later :: rest =>
    later.logSince earlier ++ later.samplesSince earlier ++ appended (later :: rest)
  | _ => []

/-- Both streams in one file, in which each goes on at its own position. The log is written
first. -/
def overlaid (contents : Bytes) : List Written → Bytes
  | earlier :: later :: rest =>
    let contents :=
      Files.overwritten contents earlier.log.length (later.logSince earlier)
    let contents :=
      Files.overwritten contents earlier.samples.length (later.samplesSince earlier)
    overlaid contents (later :: rest)
  | _ => contents

end Written

/-- Where the log and the samples go, and what was written to them from time to time, the last
time apart. -/
structure Deposits where
  log : Files.Target
  samples : Option Files.Target
  history : List Written
  last : Written

namespace Deposits

/-- What was written from time to time. -/
def times (d : Deposits) : List Written := ⟨[], []⟩ :: d.history ++ [d.last]

/-- Whether the log and the samples go to the same place. -/
def isShared (d : Deposits) : Bool := d.samples == some d.log

/-- What stands on the standard output. -/
def output (d : Deposits) : Bytes :=
  if d.isShared && d.log == standardOutput then Written.appended d.times
  else if d.log == standardOutput then d.last.log
  else if d.samples == some standardOutput then d.last.samples
  else []

/-- The files with what was written. -/
def stored (d : Deposits) (f : Files) : Files :=
  if d.isShared then f.store d.log (Written.overlaid [] d.times)
  else
    let f := f.store d.log d.last.log
    match d.samples with
    | some target => f.store target d.last.samples
    | none => f

/-- The deposits of a capture after the log was closed. -/
def ofOutcome (log : Files.Target) (samples : Option Files.Target)
    (o : Capture.Outcome Decoder) : Deposits :=
  let closed := encoded (o.state.log.close (faults log)).contents
  { log, samples
    history := if samples = some log then (o.attempts ++ [o.state]).map Written.ofState else []
    last := { Written.ofState o.state with log := closed } }

end Deposits

end MeterRadio.Session
