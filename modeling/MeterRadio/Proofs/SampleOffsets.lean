/-
Module: MeterRadio.Proofs.SampleOffsets
Purpose: How the position of a sample file keeps up with what its sink holds, whatever fails. The
  position counts the windows that were answered without an error. A window that was stored and
  then not flushed is not among them, and from there on the position stays behind.
Main exports: SampleFile.Attempt, SampleFile.after, SampleFile.offset_after_attempts,
  SampleFile.position_stays_behind
-/
import Mathlib.Data.List.Induction
import MeterRadio.Proofs.SinkWrites

namespace MeterRadio.SampleFile

/-! ### Attempts -/

/-- A window that is given to a sample file, and what goes wrong while it is appended. -/
structure Attempt where
  window : Bytes
  faults : Sink.Faults
deriving Repr, DecidableEq

namespace Attempt

/-- What an attempt leaves in the sink: its window, unless the write fails. -/
def stored (a : Attempt) : Bytes := if a.faults.write.isSome then [] else a.window

/-- The bytes that an attempt stores and then answers with an error: those of a window whose flush
fails. -/
def disowned (a : Attempt) : Bytes := if a.faults.flush.isSome then a.stored else []

theorem disowned_eq_nil_iff (a : Attempt) :
    a.disowned = [] ↔ (a.faults.flush.isSome → a.stored = []) := by
  unfold disowned
  split
  case isTrue h => simp [h]
  case isFalse h => simp [h]

end Attempt

/-- A sample file after an attempt, whatever the answer to it. -/
def attempt (f : SampleFile) (a : Attempt) : SampleFile := (f.append a.faults a.window).1

/-- A sample file after attempts, one after the other. -/
def after (f : SampleFile) (attempts : List Attempt) : SampleFile := attempts.foldl attempt f

@[simp] theorem after_nil (f : SampleFile) : f.after [] = f := rfl

@[simp] theorem after_concat (f : SampleFile) (attempts : List Attempt) (a : Attempt) :
    f.after (attempts ++ [a]) = (f.after attempts).attempt a := by
  rw [after, List.foldl_append]
  rfl

/-! ### One attempt -/

/-- A flush changes nothing in the sink. -/
theorem sink_append (f : SampleFile) (faults : Sink.Faults) (window : Bytes) :
    (f.append faults window).1.sink = (f.sink.write faults window).1 := by
  unfold append Sink.writeThrough
  cases f.sink.write faults window with
  | mk sink error =>
      cases error with
      | some fault => rfl
      | none => cases faults.flush <;> rfl

theorem contents_attempt (f : SampleFile) (a : Attempt) :
    (f.attempt a).sink.contents = f.sink.contents ++ a.stored := by
  rw [attempt, sink_append, Attempt.stored]
  cases hwrite : a.faults.write with
  | none => exact Sink.contents_write hwrite _ _
  | some fault =>
      rw [Sink.write_of_fault hwrite]
      exact (List.append_nil _).symm

/-- The position moves on by what is stored, except for what is disowned. -/
theorem offset_attempt (f : SampleFile) (a : Attempt) :
    (f.attempt a).offset + a.disowned.length = f.offset + a.stored.length := by
  obtain ⟨window, ⟨write, flush⟩⟩ := a
  cases window <;> cases write <;> cases flush <;>
    simp [attempt, append, Sink.writeThrough, Sink.write, Attempt.disowned, Attempt.stored]

/-! ### Any number of attempts -/

theorem contents_after (f : SampleFile) (attempts : List Attempt) :
    (f.after attempts).sink.contents = f.sink.contents ++ attempts.flatMap Attempt.stored := by
  induction attempts using List.reverseRecOn with
  | nil => simp
  | append_singleton attempts a ih =>
      rw [after_concat, contents_attempt, ih, List.append_assoc, List.flatMap_append,
        List.flatMap_singleton]

theorem offset_after (f : SampleFile) (attempts : List Attempt) :
    (f.after attempts).offset + (attempts.flatMap Attempt.disowned).length =
      f.offset + (attempts.flatMap Attempt.stored).length := by
  induction attempts using List.reverseRecOn with
  | nil => simp
  | append_singleton attempts a ih =>
      have hstep := offset_attempt (f.after attempts) a
      rw [after_concat]
      simp only [List.flatMap_append, List.flatMap_singleton, List.length_append]
      omega

/-! ### Position and contents

What a sink holds and what the position says are both sums over the attempts. They differ by the
windows that were stored and answered with an error all the same. -/

/-- What the position of a sample file says of its contents after attempts. -/
structure OffsetLaw (attempts : List Attempt) (f : SampleFile) : Prop where
  /-- The sink has the windows that were stored, one after the other. -/
  contents : f.sink.contents = attempts.flatMap Attempt.stored
  /-- The position stays behind their length by all that was disowned. -/
  behind : f.sink.contents.length = f.offset + (attempts.flatMap Attempt.disowned).length
  /-- So it is the length just when each attempt whose flush failed had stored nothing. -/
  exact : f.offset = f.sink.contents.length ↔
    ∀ a ∈ attempts, a.faults.flush.isSome → a.stored = []
  /-- What the next attempt stores begins where the contents end. That is at the position if nothing
  was disowned, and else as far behind it as was. -/
  next : ∀ a : Attempt, ∃ place,
    place = f.offset + (attempts.flatMap Attempt.disowned).length ∧
      (f.attempt a).sink.contents.take place = f.sink.contents ∧
      (f.attempt a).sink.contents.drop place = a.stored
  /-- An attempt that is answered with an error leaves the position, and any other one moves it by
  the length of its window. -/
  answered : ∀ a : Attempt, (f.attempt a).offset =
    if (f.append a.faults a.window).2 = none then f.offset + a.window.length else f.offset

/-- Whatever fails, the position of a sample file is the length of its contents without the windows
that were stored and not flushed. -/
theorem offset_after_attempts (attempts : List Attempt) :
    OffsetLaw attempts (fresh.after attempts) := by
  have hcontents := contents_after fresh attempts
  have hoffset := offset_after fresh attempts
  rw [show fresh.sink.contents = [] from rfl, List.nil_append] at hcontents
  have hbehind : (fresh.after attempts).sink.contents.length =
      (fresh.after attempts).offset + (attempts.flatMap Attempt.disowned).length := by
    rw [hcontents, hoffset]
    exact (Nat.zero_add _).symm
  refine ⟨hcontents, hbehind, ?exact, ?next, ?answered⟩
  case exact =>
    have hnothing : (fresh.after attempts).offset = (fresh.after attempts).sink.contents.length ↔
        attempts.flatMap Attempt.disowned = [] := by
      rw [← List.length_eq_zero_iff]
      omega
    rw [hnothing, List.flatMap_eq_nil_iff]
    exact forall₂_congr fun a _ => a.disowned_eq_nil_iff
  case next =>
    intro a
    refine ⟨_, rfl, ?_, ?_⟩
    · rw [contents_attempt, ← hbehind, List.take_left]
    · rw [contents_attempt, ← hbehind, List.drop_left]
  case answered =>
    intro a
    split
    case isTrue h => exact (append_of_ok h).2
    case isFalse h =>
      obtain ⟨fault, hfault⟩ := Option.ne_none_iff_exists'.1 h
      exact (append_of_fault hfault).1

/-- A window that is stored, but not flushed, and another one after it. -/
def unflushed : List Attempt :=
  [⟨[1, 2, 3], ⟨none, some .brokenPipe⟩⟩, ⟨[4], .none⟩]

/-- After the first one the position is still 0 where the sink holds three bytes, and the second one
does not come to stand where the position was. -/
theorem position_stays_behind :
    (fresh.after (unflushed.take 1)).offset = 0 ∧
      (fresh.after (unflushed.take 1)).sink.contents = [1, 2, 3] ∧
      (fresh.after unflushed).offset = 1 ∧
      (fresh.after unflushed).sink.contents = [1, 2, 3, 4] ∧
      ¬ ∀ attempts : List Attempt,
        (fresh.after attempts).offset = (fresh.after attempts).sink.contents.length := by
  refine ⟨rfl, rfl, rfl, rfl, ?_⟩
  intro h
  exact absurd (h unflushed) (by decide)

end MeterRadio.SampleFile
