/-
Module: MeterRadio.SampleFile
Purpose: The file that windows of samples are appended to.
Main exports: SampleFile, SampleFile.append, SampleFile.faultMessage
-/
import MeterRadio.Bytes
import MeterRadio.Sink

namespace MeterRadio

/-- A sample file and the position that the next window is taken to have in it. -/
structure SampleFile where
  sink : Sink UInt8
  offset : Nat
deriving Repr, DecidableEq

namespace SampleFile

/-- A file without contents. -/
def fresh : SampleFile := ⟨.empty, 0⟩

/-- Appends a window and flushes. The position moves on only if both succeed. -/
def append (faults : Sink.Faults) (f : SampleFile) (window : Bytes) : SampleFile × Option Fault :=
  match f.sink.writeThrough faults window with
  | (sink, none) => (⟨sink, f.offset + window.length⟩, none)
  | (sink, some fault) => ({ f with sink }, some fault)

/-- The wording of a failed append. -/
def faultMessage (fault : Fault) : String :=
  "failed to write raw samples: " ++ fault.message

end SampleFile
end MeterRadio
