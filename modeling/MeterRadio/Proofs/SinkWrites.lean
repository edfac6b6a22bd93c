/-
Module: MeterRadio.Proofs.SinkWrites
Purpose: What writes leave in a sink and in a sample file, from whether they fail.
Main exports: Sink.contents_write_eq, SampleFile.append_of_ok
-/
import MeterRadio.SampleFile

namespace MeterRadio

namespace Sink

variable {α : Type}

/-- A write that succeeds appends its piece, and one that fails appends nothing. -/
theorem contents_write_eq (faults : Faults) (s : Sink α) (piece : List α) :
    (s.write faults piece).1.contents =
      s.contents ++ if (s.write faults piece).2 = .none then piece else [] := by
  cases piece with
  | nil => simp [write]
  | cons a rest =>
      cases hf : faults.write with
      | none => simp [write, hf]
      | some fault => simp [write, hf]

theorem contents_write_ok (faults : Faults) (s : Sink α) (piece : List α)
    (h : (s.write faults piece).2 = .none) :
    (s.write faults piece).1.contents = s.contents ++ piece := by
  rw [contents_write_eq, if_pos h]

/-- A write that fails does so by the fault of writes, and leaves the sink as it was. -/
theorem eq_of_write_fault {faults : Faults} {s : Sink α} {piece : List α} {fault : Fault}
    (h : (s.write faults piece).2 = some fault) :
    faults.write = some fault ∧ (s.write faults piece).1 = s := by
  unfold write at h ⊢
  split at h
  · cases h
  · rename_i hpiece
    rw [if_neg hpiece]
    cases hw : faults.write with
    | none =>
        rw [hw] at h
        cases h
    | some found =>
        rw [hw] at h
        exact ⟨h, rfl⟩

/-- What was written without a fault was nothing, or writes do not fail. -/
theorem write_eq_none_of_ok {faults : Faults} {s : Sink α} {piece : List α}
    (h : (s.write faults piece).2 = .none) : piece = [] ∨ faults.write = .none := by
  cases piece with
  | nil => exact .inl rfl
  | cons a rest =>
      cases hw : faults.write with
      | none => exact .inr rfl
      | some fault => simp [write, hw] at h

/-- A working sink takes every piece. -/
@[simp] theorem write_none (s : Sink α) (piece : List α) :
    (s.write Faults.none piece).2 = .none := by
  cases piece <;> rfl

end Sink

namespace SampleFile

/-- A window that is appended without a fault follows the contents, and moves the position on by its
length. -/
theorem append_of_ok {faults : Sink.Faults} {f : SampleFile} {window : Bytes}
    (h : (f.append faults window).2 = none) :
    (f.append faults window).1.sink.contents = f.sink.contents ++ window ∧
      (f.append faults window).1.offset = f.offset + window.length := by
  unfold append Sink.writeThrough at h ⊢
  cases hw : f.sink.write faults window with
  | mk sink error =>
      rw [hw] at h
      cases error with
      | some fault => cases h
      | none =>
          have hc := Sink.contents_write_ok faults f.sink window (by rw [hw])
          rw [hw] at hc
          cases hflush : faults.flush with
          | some fault => simp [hflush] at h
          | none => exact ⟨hc, rfl⟩

/-- An append fails in the write, which then stores nothing, or in the flush after it. The position
stays in both cases. -/
theorem append_of_fault {faults : Sink.Faults} {f : SampleFile} {window : Bytes} {fault : Fault}
    (h : (f.append faults window).2 = some fault) :
    (f.append faults window).1.offset = f.offset ∧
      ((faults.write = some fault ∧
          (f.append faults window).1.sink.contents = f.sink.contents) ∨
        ((window = [] ∨ faults.write = none) ∧ faults.flush = some fault ∧
          (f.append faults window).1.sink.contents = f.sink.contents ++ window)) := by
  unfold append Sink.writeThrough at h ⊢
  cases hw : f.sink.write faults window with
  | mk sink error =>
      rw [hw] at h
      cases error with
      | some found =>
          obtain ⟨hfault, hsame⟩ := Sink.eq_of_write_fault (show _ = some found by rw [hw])
          rw [hw] at hsame
          cases h
          exact ⟨rfl, .inl ⟨hfault, congrArg Sink.contents hsame⟩⟩
      | none =>
          have hc := Sink.contents_write_ok faults f.sink window (by rw [hw])
          rw [hw] at hc
          cases hflush : faults.flush with
          | none => simp [hflush] at h
          | some found =>
              simp only [hflush, Option.some.injEq] at h
              have hopen := Sink.write_eq_none_of_ok (show _ = Option.none by rw [hw])
              exact ⟨rfl, .inr ⟨hopen, congrArg some h, hc⟩⟩

/-- A working sink takes every window. -/
theorem append_none (f : SampleFile) (window : Bytes) :
    (f.append Sink.Faults.none window).2 = none := by
  have hwrite := Sink.write_none f.sink window
  unfold append Sink.writeThrough
  cases hw : f.sink.write Sink.Faults.none window with
  | mk sink error =>
      rw [hw] at hwrite
      cases hwrite
      rfl

end SampleFile
end MeterRadio
