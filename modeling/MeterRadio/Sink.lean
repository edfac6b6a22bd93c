/-
Module: MeterRadio.Sink
Purpose: Where output goes: everything written so far, and operations that may fail.
Main exports: Sink, Sink.contents, Sink.write, Sink.Faults
-/
import MeterRadio.Fault

namespace MeterRadio

/-- A sink as the pieces written to it, the last one first. -/
structure Sink (α : Type) where
  pieces : List (List α)
deriving Repr, DecidableEq

namespace Sink

variable {α : Type}

/-- A sink that nothing was written to. -/
def empty : Sink α := ⟨[]⟩

/-- Everything written, in order. -/
def contents (s : Sink α) : List α := s.pieces.reverse.flatten

/-- What goes wrong in an operation: with what fault a write fails, and a flush. A write that
fails stores nothing. -/
structure Faults where
  write : Option Fault
  flush : Option Fault
deriving Repr, DecidableEq

/-- Nothing goes wrong. -/
def Faults.none : Faults := ⟨.none, .none⟩

/-- Writes a piece. To write nothing is no write, so it cannot fail. -/
def write (faults : Faults) (s : Sink α) (piece : List α) : Sink α × Option Fault :=
  if piece.isEmpty then (s, none)
  else
    match faults.write with
    | some fault => (s, some fault)
    | none => (⟨piece :: s.pieces⟩, none)

/-- Writes a piece and flushes; a failed write is not flushed. -/
def writeThrough (faults : Faults) (s : Sink α) (piece : List α) : Sink α × Option Fault :=
  match s.write faults piece with
  | (s, some fault) => (s, some fault)
  | (s, none) => (s, faults.flush)

@[simp] theorem contents_empty : (empty : Sink α).contents = [] := rfl

@[simp] theorem contents_cons (piece : List α) (pieces : List (List α)) :
    (⟨piece :: pieces⟩ : Sink α).contents = (⟨pieces⟩ : Sink α).contents ++ piece := by
  simp [contents]

/-- A write without a fault appends its piece. -/
theorem contents_write {faults : Faults} (h : faults.write = .none) (s : Sink α)
    (piece : List α) : (s.write faults piece).1.contents = s.contents ++ piece := by
  cases piece <;> simp [write, h]

/-- A write with a fault leaves the sink as it was. -/
theorem write_of_fault {faults : Faults} {fault : Fault} (h : faults.write = some fault)
    (s : Sink α) (piece : List α) : (s.write faults piece).1 = s := by
  unfold write
  split <;> simp [h]

end Sink
end MeterRadio
