/-
Module: MeterRadio.Capture.Ledger
Purpose: What a run has to leave behind, told from the blocks alone: which messages are logged,
  where, and which windows are kept.
Main exports: Capture.Yield, Capture.yields, Capture.windows, Capture.entries
-/
import MeterRadio.Capture.Run

namespace MeterRadio.Capture

/-!
The ledger knows no sinks, no writers and no counters. A block yields the messages that its
candidate packets carry and the filter accepts. All of them are logged with the place that the
block's window has in the sample file, and the window is kept once if there is a message.
-/

variable {σ : Type}

/-- What a block yields. -/
structure Yield where
  time : Time.Timestamp
  /-- Candidate packets in it. -/
  candidates : List Bytes
  /-- The messages to be logged. -/
  messages : List Message
  /-- The samples that they were found in. -/
  window : Bytes
deriving Repr, DecidableEq

/-- The message of a candidate packet, if it has one that is to be logged. -/
def Setup.message? (setup : Setup σ) (packet : Bytes) : Option Message :=
  match setup.reader packet with
  | .ok m => if setup.filter.accepts m then some m else none
  | .error _ => none

/-- The yield of a block, and the decoder after it. -/
def yield (setup : Setup σ) (decoder : σ) (reading : Reading) : σ × Yield :=
  let (decoder, packets, _) := setup.decoder.decode decoder reading.block
  (decoder,
    { time := reading.time
      candidates := packets
      messages := packets.filterMap setup.message?
      window := setup.decoder.window decoder })

/-- The yields of blocks read one after the other. -/
def yields (setup : Setup σ) : σ → List Reading → List Yield
  | _, [] => []
  | decoder, reading :: rest =>
    let (decoder, y) := yield setup decoder reading
    y :: yields setup decoder rest

namespace Yield

/-- Whether a block has a message to be logged. -/
def isMatch (y : Yield) : Bool := !y.messages.isEmpty

/-- The entries of a block whose window has the given place. -/
def entries (y : Yield) (offset : Nat) : List Log.Entry :=
  y.messages.map (Log.Entry.ofMessage y.time offset y.window.length)

end Yield

/-- The contents of a sample file: the windows of the blocks with a message, in order. -/
def windows (ys : List Yield) : Bytes :=
  (ys.filter Yield.isMatch).flatMap Yield.window

/-- The place of the next window, if samples are kept. -/
def nextOffset (kept : Bool) (offset : Nat) (y : Yield) : Nat :=
  if kept && y.isMatch then offset + y.window.length else offset

/-- The entries of blocks, the first of which finds the sample file at an offset. -/
def entriesFrom (kept : Bool) : Nat → List Yield → List Log.Entry
  | _, [] => []
  | offset, y :: rest => y.entries offset ++ entriesFrom kept (nextOffset kept offset y) rest

/-- The entries of all blocks. -/
def entries (kept : Bool) (ys : List Yield) : List Log.Entry := entriesFrom kept 0 ys

end MeterRadio.Capture
