/-
Module: MeterRadio.Capture.Exit
Purpose: Why a run ends, and the signals that end it from outside.
Main exports: Capture.ExitReason, Capture.Signals, Capture.Signals.poll, Capture.summary
-/
import MeterRadio.Tally
import MeterRadio.Time.Span
import MeterRadio.Trace

namespace MeterRadio.Capture

/-- Why a run ended. -/
inductive ExitReason where
  | interrupted
  /-- The time limit was reached, after so much time. -/
  | timeLimit (elapsed : Time.Span)
  | singleShot
  | endOfStream
deriving Repr, DecidableEq

namespace ExitReason

/-- The wording of a reason. -/
def text : ExitReason → String
  | .interrupted => "interrupted"
  | .timeLimit elapsed => "time limit reached after " ++ elapsed.text
  | .singleShot => "single message received"
  | .endOfStream => "end of sample stream"

/-- Whether a run ends without a summary at the usual threshold. -/
def isSilent (reason : ExitReason) : Bool := reason == .interrupted

/-- The line shown at the end whatever the threshold. -/
def report? : ExitReason → Option String
  | .timeLimit elapsed => some ("Time limit reached: " ++ elapsed.text)
  | _ => none

end ExitReason

/-- The trace lines at the end of a run. -/
def summary (reason : ExitReason) (tally : Tally) : List Trace.Line :=
  let line := if reason.isSilent then Trace.debug .receiver else Trace.info .receiver
  [line ("Receiver stopped: " ++ reason.text), line ("Stats: " ++ tally.text)]

/-- Something that reaches a run from outside. -/
inductive Arrival where
  | interrupt
  /-- Nobody will interrupt the run any more. -/
  | hangUp
  /-- The time limit has passed, after so much time. -/
  | deadline (elapsed : Time.Span)
deriving Repr, DecidableEq

/-- The signals of a run: whether an interrupt is pending, whether one can still come, and the
time after which the limit passed. No rule says which of two pending signals is heard. The first
one that is heard ends the run, so a run makes this choice once at most. -/
structure Signals where
  interrupt : Bool
  connected : Bool
  deadline : Option Time.Span
  /-- The time limit is heard, and not the interrupt, where both are pending. -/
  deadlineFirst : Bool
deriving Repr, DecidableEq

namespace Signals

/-- Nothing pending. -/
def quiet : Signals := ⟨false, true, none, false⟩

/-- The signals after an arrival. An interrupt after the line was hung up is lost; one before it
stays. -/
def receive (s : Signals) : Arrival → Signals
  | .interrupt => { s with interrupt := s.interrupt || s.connected }
  | .hangUp => { s with connected := false }
  | .deadline elapsed => { s with deadline := s.deadline.or (some elapsed) }

/-- The reason to stop now, if there is one. -/
def poll (s : Signals) : Option ExitReason :=
  if s.interrupt && !(s.deadlineFirst && s.deadline.isSome) then some .interrupted
  else s.deadline.map .timeLimit

end Signals
end MeterRadio.Capture
