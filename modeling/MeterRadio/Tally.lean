/-
Module: MeterRadio.Tally
Purpose: Counters of a run.
Main exports: Tally, Tally.text
-/
import MeterRadio.Text.Numeral

namespace MeterRadio

/-- What a run has counted so far. -/
structure Tally where
  /-- Blocks read. -/
  blocks : Nat
  /-- Candidate packets found. -/
  candidates : Nat
  /-- Candidates that carry no message. -/
  rejected : Nat
  /-- Messages that the filter held back. -/
  filtered : Nat
  /-- Messages logged. -/
  accepted : Nat
  /-- Sample windows captured. -/
  captureWrites : Nat
  /-- Bytes captured. -/
  captureBytes : Nat
deriving Repr, DecidableEq

namespace Tally

/-- Nothing counted. -/
def zero : Tally := ⟨0, 0, 0, 0, 0, 0, 0⟩

/-- Counts a block. -/
def countBlock (t : Tally) : Tally := { t with blocks := t.blocks + 1 }

/-- Counts a candidate. -/
def countCandidate (t : Tally) : Tally := { t with candidates := t.candidates + 1 }

/-- Counts a candidate that carries no message. -/
def countRejected (t : Tally) : Tally := { t with rejected := t.rejected + 1 }

/-- Counts a message that was held back. -/
def countFiltered (t : Tally) : Tally := { t with filtered := t.filtered + 1 }

/-- Counts a message that was logged. -/
def countAccepted (t : Tally) : Tally := { t with accepted := t.accepted + 1 }

/-- Counts a captured window of so many bytes. -/
def countCapture (t : Tally) (bytes : Nat) : Tally :=
  { t with captureWrites := t.captureWrites + 1, captureBytes := t.captureBytes + bytes }

/-- All counters in one line. -/
def text (t : Tally) : String :=
  "blocks=" ++ Text.decimal t.blocks
    ++ " candidates=" ++ Text.decimal t.candidates
    ++ " rejected=" ++ Text.decimal t.rejected
    ++ " filtered=" ++ Text.decimal t.filtered
    ++ " accepted=" ++ Text.decimal t.accepted
    ++ " captured=" ++ Text.decimal t.captureWrites
    ++ " blocks/" ++ Text.decimal t.captureBytes ++ " bytes"

end Tally
end MeterRadio
