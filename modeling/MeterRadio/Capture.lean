/-
Module: MeterRadio.Capture
Purpose: What the capture of one block does: decode, read, filter, log and keep the samples.
Main exports: Capture.BlockDecoder, Capture.Setup, Capture.State, Capture.State.process
-/
import MeterRadio.Decoder
import MeterRadio.Filter
import MeterRadio.Log.Writer
import MeterRadio.Protocol
import MeterRadio.SampleFile
import MeterRadio.Source
import MeterRadio.Tally

namespace MeterRadio.Capture

/-- Why a run was given up. -/
inductive Failure where
  | transport (error : TransportError)
  | log (error : Log.WriteError)
  | samples (fault : Fault)
deriving Repr, DecidableEq

/-- The wording of a failure. -/
def Failure.message : Failure → String
  | .transport error => error.message
  | .log error => error.message
  | .samples fault => SampleFile.faultMessage fault

/-- What the capture asks of a decoder with states of type `σ`. -/
structure BlockDecoder (σ : Type) where
  /-- Bytes in a block. -/
  blockBytes : Nat
  /-- Takes a block in and returns the candidate packets in order, with trace lines. -/
  decode : σ → Bytes → σ × List Bytes × List Trace.Line
  /-- The samples that the last block's packets were found in. -/
  window : σ → Bytes

/-- The decoder of a profile. -/
def BlockDecoder.ofProfile (p : Profile) : BlockDecoder Decoder where
  blockBytes := p.blockBytes
  decode d block :=
    let (d, hits) := d.decode block
    (d, hits.map Decoder.Hit.packet, hits.map Decoder.Hit.report)
  window := Decoder.iq

/-- What stays the same during a run. -/
structure Setup (σ : Type) where
  decoder : BlockDecoder σ
  reader : PacketReader
  filter : MeterFilter
  /-- Stop after the first block with an accepted message. -/
  single : Bool
  /-- What goes wrong in a write to the log, given what it holds. -/
  logFaults : Sink Char → Sink.Faults
  /-- What goes wrong in a write to the sample file, given what it holds. -/
  sampleFaults : Sink UInt8 → Sink.Faults

/-- A run between two blocks. -/
structure State (σ : Type) where
  decoder : σ
  log : Log.Writer
  samples : Option SampleFile
  tally : Tally
  /-- Trace lines, the last one first. -/
  trace : List Trace.Line

namespace State

variable {σ : Type}

/-- A run that has not read anything. -/
def fresh (decoder : σ) (log : Log.Writer) (samples : Option SampleFile) : State σ :=
  { decoder, log, samples, tally := .zero, trace := [] }

/-- Adds a trace line. -/
def note (s : State σ) (line : Trace.Line) : State σ := { s with trace := line :: s.trace }

/-- The position that the next window has in the sample file; zero where none is kept. -/
def offset (s : State σ) : Nat := (s.samples.map SampleFile.offset).getD 0

/-- The trace line of a candidate without a message. -/
def rejection (packet : Bytes) (error : PacketError) : Trace.Line :=
  Trace.debug .receiver ("Rejected " ++ Bytes.hex packet ++ ": " ++ error.message)

/-- The trace line of a message that the filter holds back. -/
def omission (m : Message) : Trace.Line :=
  Trace.trace .receiver
    ("Filtered meter " ++ Text.decimal m.meterId.toNat ++ " type "
      ++ Text.decimal m.meterType.toNat)

/-- Logs the message of a candidate, if there is one that the filter accepts. Returns whether one
was logged. The entry has the given time and place. -/
def candidate (setup : Setup σ) (time : Time.Timestamp) (offset length : Nat) (s : State σ)
    (packet : Bytes) : State σ × Except Failure Bool :=
  let s := { s with tally := s.tally.countCandidate }
  match setup.reader packet with
  | .error error =>
    ({ s with tally := s.tally.countRejected }.note (rejection packet error), .ok false)
  | .ok message =>
    if !setup.filter.accepts message then
      ({ s with tally := s.tally.countFiltered }.note (omission message), .ok false)
    else
      let entry := Log.Entry.ofMessage time offset length message
      match s.log.write (setup.logFaults s.log.sink) entry with
      | (log, none) => ({ s with log, tally := s.tally.countAccepted }, .ok true)
      | (log, some error) => ({ s with log }, .error (.log error))

/-- Takes candidates one after the other and returns how many messages were logged, beyond the
number given; the first failure ends it. -/
def candidates (setup : Setup σ) (time : Time.Timestamp) (offset length : Nat) :
    Nat → State σ → List Bytes → State σ × Except Failure Nat
  | logged, s, [] => (s, .ok logged)
  | logged, s, packet :: rest =>
    match s.candidate setup time offset length packet with
    | (s, .error failure) => (s, .error failure)
    | (s, .ok accepted) =>
      candidates setup time offset length (if accepted then logged + 1 else logged) s rest

/-- Appends a window to the sample file, if one is kept. -/
def keep (setup : Setup σ) (s : State σ) (window : Bytes) : State σ × Except Failure Unit :=
  match s.samples with
  | none => (s, .ok ())
  | some file =>
    match file.append (setup.sampleFaults file.sink) window with
    | (file, none) =>
      ({ s with samples := some file, tally := s.tally.countCapture window.length }, .ok ())
    | (file, some fault) => ({ s with samples := some file }, .error (.samples fault))

/-- Processes a block that was read at the given time and returns how many messages were logged.
All entries have the place at which the window is kept after them, once and only if there is an
entry. -/
def process (setup : Setup σ) (time : Time.Timestamp) (s : State σ) (block : Bytes) :
    State σ × Except Failure Nat :=
  let (decoder, packets, lines) := setup.decoder.decode s.decoder block
  let s := { s with decoder, tally := s.tally.countBlock, trace := lines.reverse ++ s.trace }
  let window := setup.decoder.window decoder
  match s.candidates setup time s.offset window.length 0 packets with
  | (s, .error failure) => (s, .error failure)
  | (s, .ok logged) =>
    if logged = 0 then (s, .ok 0)
    else
      match s.keep setup window with
      | (s, .error failure) => (s, .error failure)
      | (s, .ok ()) => (s, .ok logged)

end State
end MeterRadio.Capture
