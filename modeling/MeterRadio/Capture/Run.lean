/-
Module: MeterRadio.Capture.Run
Purpose: The capture loop over everything that happens around it: the reads, the clock and the
  signals.
Main exports: Capture.Result, Capture.turn, Capture.Reading, Capture.run, Capture.Outcome
-/
import MeterRadio.Capture
import MeterRadio.Capture.Exit

namespace MeterRadio.Capture

variable {σ : Type}

/-- How a run ends: for a reason, or by a failure. -/
abbrev Result := Except Failure ExitReason

/-- The end that follows a block in which so many messages were logged, if there is one. -/
def afterBlock (setup : Setup σ) : Except Failure Nat → Option Result
  | .error failure => some (.error failure)
  | .ok logged => if setup.single && decide (0 < logged) then some (.ok .singleShot) else none

/-- The end that follows a read that brought no block. -/
def afterError : TransportError → Result
  | .endOfStream => .ok .endOfStream
  | error => .error (.transport error)

/-- Processes a block that was read. Returns the end of the run if it comes to one. -/
def turn (setup : Setup σ) (time : Time.Timestamp) (s : State σ) (block : Bytes) :
    State σ × Option Result :=
  let (s, logged) := s.process setup time block
  (s, afterBlock setup logged)

/-- A read that brings a block: the block, the time after it, and what arrives during it. -/
structure Reading where
  block : Bytes
  time : Time.Timestamp
  arrivals : List Arrival
deriving Repr, DecidableEq

/-- The end of a run: its last state, its result, and its states when reads were attempted, the
first one first. -/
structure Outcome (σ : Type) where
  state : State σ
  result : Result
  attempts : List (State σ)

/-- The outcome with an attempt before all others. -/
def Outcome.after (o : Outcome σ) (attempt : State σ) : Outcome σ :=
  { o with attempts := attempt :: o.attempts }

/-- Runs the loop over the reads that bring a block; the read after them brings the error
`ending`. The signals are looked at before each read and at no other time. -/
def run (setup : Setup σ) (ending : TransportError) :
    Signals → State σ → List Reading → Outcome σ
  | signals, s, [] =>
    match signals.poll with
    | some reason => ⟨s, .ok reason, []⟩
    | none => ⟨s, afterError ending, [s]⟩
  | signals, s, reading :: rest =>
    match signals.poll with
    | some reason => ⟨s, .ok reason, []⟩
    | none =>
      match turn setup reading.time s reading.block with
      | (next, some result) => ⟨next, result, [s]⟩
      | (next, none) =>
        (run setup ending (reading.arrivals.foldl Signals.receive signals) next rest).after s

/-- All trace lines of a run, with the summary of one that was not given up. -/
def Outcome.trace (o : Outcome σ) : List Trace.Line :=
  o.state.trace.reverse ++ match o.result with
    | .ok reason => summary reason o.state.tally
    | .error _ => []

end MeterRadio.Capture
