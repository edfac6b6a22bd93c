/-
Module: MeterRadio.Proofs.LogDelivery
Purpose: What a log delivers in front of a sink that fails now and then. Every failure is
  answered, lines that go out at once are there if they were taken, and comma-separated records
  come out late but whole, once and in order.
Main exports: Log.Submission, Log.Writer.submitted, Log.Writer.fault_write,
  Log.Writer.contents_submitted, Log.Writer.owing_submitted, Log.Writer.log_after_submissions
-/
import Mathlib.Data.List.DropRight
import Mathlib.Data.List.Infix
import MeterRadio.Proofs.LogWriting

namespace MeterRadio.Log

/-! ### Submissions -/

/-- An entry that is given to a writer, and what goes wrong while it is written: all writes of the
sink, all its flushes, both or nothing. -/
structure Submission where
  entry : Entry
  faults : Sink.Faults
deriving Repr, DecidableEq

/-- The sink takes nothing while the entry is written. -/
def Submission.refused (s : Submission) : Bool := s.faults.write.isSome

theorem Submission.write_eq_none {s : Submission} (h : ¬ s.refused = true) :
    s.faults.write = none :=
  Option.not_isSome_iff_eq_none.1 h

/-- The records of submissions, one after the other. -/
def records (format : Format) (withOffset : Bool) (subs : List Submission) : List Char :=
  rendered format withOffset (subs.map Submission.entry)

@[simp] theorem records_nil (format : Format) (withOffset : Bool) :
    records format withOffset [] = [] := rfl

@[simp] theorem records_append (format : Format) (withOffset : Bool) (a b : List Submission) :
    records format withOffset (a ++ b) =
      records format withOffset a ++ records format withOffset b := by
  rw [records, List.map_append, rendered_append, records, records]

@[simp] theorem records_singleton (format : Format) (withOffset : Bool) (s : Submission) :
    records format withOffset [s] = render format withOffset s.entry := by
  simp [records]

/-- The records that are still out when a sink refuses one more, that one included, find room in
the buffer. -/
def Fits (withOffset : Bool) (subs : List Submission) : Prop :=
  ∀ done, done <+: subs →
    Csv.Buffer.utf8Length (records .csv withOffset (done.rtakeWhile Submission.refused)) ≤
      Csv.Buffer.capacity

theorem Fits.of_append {withOffset : Bool} {subs more : List Submission}
    (h : Fits withOffset (subs ++ more)) : Fits withOffset subs := by
  intro done hdone
  apply h
  exact hdone.trans (List.prefix_append _ _)

namespace Writer

/-- A writer after submissions, whatever it answered to them. -/
def submitted (w : Writer) (subs : List Submission) : Writer :=
  subs.foldl (fun w s => (w.write s.faults s.entry).1) w

@[simp] theorem submitted_concat (w : Writer) (subs : List Submission) (s : Submission) :
    w.submitted (subs ++ [s]) = ((w.submitted subs).write s.faults s.entry).1 := by
  rw [submitted, List.foldl_append]
  rfl

@[simp] theorem format_submitted (w : Writer) (subs : List Submission) :
    (w.submitted subs).format = w.format := by
  induction subs using List.reverseRecOn with
  | nil => rfl
  | append_singleton subs s ih => rw [submitted_concat, format_write, ih]

@[simp] theorem withOffset_submitted (w : Writer) (subs : List Submission) :
    (w.submitted subs).withOffset = w.withOffset := by
  induction subs using List.reverseRecOn with
  | nil => rfl
  | append_singleton subs s ih => rw [submitted_concat, withOffset_write, ih]

/-! ### Answers -/

theorem fault_writeLine (faults : Sink.Faults) (format : Format) (sink : Sink Char)
    {line : List Char} (hline : line ≠ []) :
    (writeLine faults format sink line).2.map WriteError.fault =
      faults.write.or faults.flush := by
  have hpiece : ¬ line.isEmpty = true := by
    rw [List.isEmpty_iff]
    exact hline
  unfold writeLine Sink.write
  rw [if_neg hpiece]
  cases faults.write with
  | some fault => exact congrArg some (fault_writeFailure format fault)
  | none =>
      cases faults.flush with
      | none => rfl
      | some fault => rfl

/-- A record is answered by the fault of writes even if it only filled the buffer, since the flush
after it sends what is held. -/
theorem fault_writeRecord (faults : Sink.Faults) (buffer : Csv.Buffer) (fields : List String) :
    (writeRecord faults buffer fields).2.map WriteError.fault =
      faults.write.or faults.flush := by
  unfold writeRecord
  cases hwrite : buffer.write faults fields with
  | mk written found =>
      have hfound : (buffer.write faults fields).2 = found := by rw [hwrite]
      cases found with
      | some fault =>
          have hfault := Csv.Buffer.write_fault_of_strokes _ _ _ hfound
          rw [hfault]
          rfl
      | none =>
          cases hfault : faults.write with
          | none =>
              dsimp only
              rw [(Csv.Buffer.flush_of_open hfault written).1]
              cases faults.flush with
              | none => rfl
              | some fault => rfl
          | some fault =>
              have hheld := Csv.Buffer.held_write_ne_nil hfault hfound
              rw [hwrite] at hheld
              dsimp only
              rw [Csv.Buffer.flush_of_refusal hfault hheld]
              rfl

/-- A write is answered by the fault of writes, or else by that of flushes, whatever the writer
holds back. -/
theorem fault_write (w : Writer) (faults : Sink.Faults) (e : Entry) :
    (w.write faults e).2.map WriteError.fault = faults.write.or faults.flush := by
  unfold write
  cases w.output with
  | direct sink => exact fault_writeLine faults w.format sink (render_ne_nil _ _ _)
  | buffered buffer => exact fault_writeRecord faults buffer e.fields

/-! ### Lines that go out at once -/

theorem contents_writeLine (faults : Sink.Faults) (format : Format) (sink : Sink Char)
    (line : List Char) :
    (writeLine faults format sink line).1.contents =
      sink.contents ++ if faults.write = none then line else [] := by
  have hwritten : (writeLine faults format sink line).1 = (sink.write faults line).1 := by
    unfold writeLine
    cases sink.write faults line with
    | mk written found =>
        cases found with
        | none => rfl
        | some fault => rfl
  rw [hwritten]
  cases hfault : faults.write with
  | none => rw [Sink.contents_write hfault, if_pos rfl]
  | some fault => rw [Sink.write_of_fault hfault, if_neg (Option.some_ne_none fault),
      List.append_nil]

/-- In the formats without a buffer the sink has the lines of the entries that it took. -/
theorem contents_submitted {format : Format} (hformat : format ≠ .csv) (withOffset : Bool)
    (sink : Sink Char) (subs : List Submission) :
    ∃ target, ((fresh format withOffset sink).submitted subs).output = .direct target ∧
      target.contents = sink.contents ++
        records format withOffset (subs.filter fun s => !s.refused) := by
  induction subs using List.reverseRecOn with
  | nil =>
      refine ⟨sink, ?_, by simp⟩
      cases format with
      | csv => exact absurd rfl hformat
      | plain => rfl
      | json => rfl
      | xml => rfl
  | append_singleton subs s ih =>
      obtain ⟨target, houtput, hcontents⟩ := ih
      refine ⟨_, by rw [submitted_concat, write, houtput], ?_⟩
      rw [contents_writeLine, hcontents, format_submitted, withOffset_submitted,
        List.filter_append, records_append, List.append_assoc]
      cases hrefused : s.refused with
      | true =>
          have hfault : ¬ s.faults.write = none := Option.isSome_iff_ne_none.1 hrefused
          simp [hfault, hrefused]
      | false =>
          have hfault : s.faults.write = none := Submission.write_eq_none (by simp [hrefused])
          simp [hfault, hrefused, fresh]

/-! ### Records behind a buffer

`Owing` is the invariant: records up to the last one that was taken are in the sink, and those
refused after it are held. A submission preserves it if there is room for what it may add. -/

/-- A buffer that has sent all records up to the last one that was taken, and that holds those
refused after it. -/
structure Owing (withOffset : Bool) (sink : Sink Char) (subs : List Submission)
    (buffer : Csv.Buffer) : Prop where
  progress : buffer.progress = .fresh
  sent : buffer.sink.contents =
    sink.contents ++ records .csv withOffset (subs.rdropWhile Submission.refused)
  held : buffer.held.reverse = records .csv withOffset (subs.rtakeWhile Submission.refused)

variable {withOffset : Bool} {sink : Sink Char} {subs : List Submission} {buffer : Csv.Buffer}

theorem Owing.fresh (withOffset : Bool) (sink : Sink Char) :
    Owing withOffset sink [] (.fresh sink) :=
  ⟨rfl, (List.append_nil _).symm, rfl⟩

/-- Sent or held, nothing is lost. -/
theorem Owing.given (h : Owing withOffset sink subs buffer) :
    buffer.given = sink.contents ++ records .csv withOffset subs := by
  rw [Csv.Buffer.given, h.sent, h.held, List.append_assoc, ← records_append,
    List.rdropWhile_append_rtakeWhile]

/-- A record that is taken takes along what was held, however much that is. -/
theorem Owing.taken (h : Owing withOffset sink subs buffer) {s : Submission}
    (hs : ¬ s.refused = true) :
    Owing withOffset sink (subs ++ [s]) (writeRecord s.faults buffer s.entry.fields).1 ∧
      (writeRecord s.faults buffer s.entry.fields).1.sink.contents =
        sink.contents ++ records .csv withOffset (subs ++ [s]) := by
  have hopen := Submission.write_eq_none hs
  have hok := Csv.Buffer.write_of_open hopen buffer s.entry.fields
  obtain ⟨hgiven, hprogress⟩ := Csv.Buffer.given_write s.entry.fields h.progress hok
  unfold writeRecord
  cases hwrite : buffer.write s.faults s.entry.fields with
  | mk written found =>
      rw [hwrite] at hok hgiven hprogress
      cases hok
      obtain ⟨-, hheld, hsink⟩ := Csv.Buffer.flush_of_open hopen written
      have hall : (written.flush s.faults).1.sink.contents =
          sink.contents ++ records .csv withOffset (subs ++ [s]) := by
        rw [hsink, hgiven, h.given, List.append_assoc, records_append, records_singleton]
        rfl
      refine ⟨⟨?_, ?_, ?_⟩, hall⟩
      · exact (Csv.Buffer.progress_flush _ _).trans hprogress
      · rw [List.rdropWhile_concat_neg _ _ _ hs]
        exact hall
      · rw [List.rtakeWhile_concat_neg _ _ _ hs]
        exact congrArg List.reverse hheld

/-- A record that is refused waits behind the others. -/
theorem Owing.refused (h : Owing withOffset sink subs buffer) {s : Submission}
    (hs : s.refused = true)
    (hroom : Csv.Buffer.utf8Length
      (records .csv withOffset ((subs ++ [s]).rtakeWhile Submission.refused)) ≤
        Csv.Buffer.capacity) :
    Owing withOffset sink (subs ++ [s]) (writeRecord s.faults buffer s.entry.fields).1 := by
  obtain ⟨fault, hfault⟩ := Option.isSome_iff_exists.1 hs
  rw [List.rtakeWhile_concat_pos _ _ _ hs, records_append, ← h.held, records_singleton,
    Csv.Buffer.utf8Length_append, Csv.Buffer.utf8Length_reverse] at hroom
  obtain ⟨hok, hsink, hheld, hprogress⟩ :=
    Csv.Buffer.write_of_room s.entry.fields hfault h.progress hroom
  have hsome := Csv.Buffer.held_write_ne_nil hfault hok
  unfold writeRecord
  cases hwrite : buffer.write s.faults s.entry.fields with
  | mk written found =>
      rw [hwrite] at hok hsink hheld hprogress hsome
      cases hok
      dsimp only
      rw [Csv.Buffer.flush_of_refusal hfault hsome]
      refine ⟨hprogress, ?_, ?_⟩
      · rw [hsink, h.sent, List.rdropWhile_concat_pos _ _ _ hs]
      · rw [hheld, h.held, List.rtakeWhile_concat_pos _ _ _ hs, records_append,
          records_singleton]
        rfl

/-- As long as they fit, the records of all submissions are sent or held, in order. -/
theorem owing_submitted (withOffset : Bool) (sink : Sink Char) (subs : List Submission)
    (hfits : Fits withOffset subs) :
    ∃ buffer, ((fresh .csv withOffset sink).submitted subs).output = .buffered buffer ∧
      Owing withOffset sink subs buffer := by
  induction subs using List.reverseRecOn with
  | nil => exact ⟨.fresh sink, rfl, .fresh withOffset sink⟩
  | append_singleton subs s ih =>
      obtain ⟨buffer, houtput, howing⟩ := ih hfits.of_append
      refine ⟨_, by rw [submitted_concat, write, houtput], ?_⟩
      by_cases hs : s.refused = true
      · exact howing.refused hs (hfits _ List.prefix_rfl)
      · exact (howing.taken hs).1

/-! ### The log -/

/-- What a log has delivered after submissions, what it answers to the next one, and what its end
adds. -/
structure DeliveryLaw (format : Format) (withOffset : Bool) (sink : Sink Char)
    (subs : List Submission) (w : Writer) : Prop where
  /-- A write returns an error just when the sink fails in it, and the error has the first fault. -/
  answers : ∀ next : Submission,
    ((w.write next.faults next.entry).2.isSome ↔
        next.faults.write.isSome ∨ next.faults.flush.isSome) ∧
      ∀ error, (w.write next.faults next.entry).2 = some error →
        next.faults.write.or next.faults.flush = some error.fault
  /-- Without a buffer, the records whose writes were not refused are there, and no others. -/
  direct : format ≠ .csv →
    w.sink.contents = sink.contents ++
        records format withOffset (subs.filter fun s => !s.refused) ∧
      ∀ faults, w.close faults = w.sink
  /-- With a buffer, the records up to the last one that was taken are there. A later one that is
  taken brings all before it along, and so does the end of the writer. -/
  buffered : format = .csv → Fits withOffset subs →
    w.sink.contents = sink.contents ++
        records format withOffset (subs.rdropWhile Submission.refused) ∧
      (∀ next : Submission, ¬ next.refused = true →
        (w.write next.faults next.entry).1.sink.contents =
          sink.contents ++ records format withOffset (subs ++ [next])) ∧
      ∀ faults, (w.close faults).contents =
        if faults.write = none then sink.contents ++ records format withOffset subs
        else w.sink.contents

/-- A log delivers whole records in order, whatever fails and when. -/
theorem log_after_submissions (format : Format) (withOffset : Bool) (sink : Sink Char)
    (subs : List Submission) :
    DeliveryLaw format withOffset sink subs ((fresh format withOffset sink).submitted subs) := by
  refine ⟨?answers, ?direct, ?buffered⟩
  case answers =>
    intro next
    have hfault := fault_write ((fresh format withOffset sink).submitted subs) next.faults
      next.entry
    constructor
    · rw [← Option.isSome_map, hfault, Option.isSome_or, Bool.or_eq_true]
    · intro error herror
      rw [herror] at hfault
      exact hfault.symm
  case direct =>
    intro hformat
    obtain ⟨target, houtput, hcontents⟩ := contents_submitted hformat withOffset sink subs
    constructor
    · rw [Writer.sink, houtput]
      exact hcontents
    · intro faults
      rw [close, Writer.sink, houtput]
  case buffered =>
    rintro rfl hfits
    obtain ⟨buffer, houtput, howing⟩ := owing_submitted withOffset sink subs hfits
    refine ⟨?_, ?_, ?_⟩
    · rw [Writer.sink, houtput]
      exact howing.sent
    · intro next hnext
      rw [write, houtput, Writer.sink]
      exact (howing.taken hnext).2
    · intro faults
      rw [close, Writer.sink, houtput]
      dsimp only
      rw [Csv.Buffer.contents_close]
      split
      · exact howing.given
      · exact List.append_nil _

/-- What a meter reported at the epoch. -/
def meterEntry (id : UInt32) : Entry :=
  .ofMessage .epoch 0 0 (.scm
    { id, ertType := 7, tamperPhy := 0, tamperEnc := 2, consumption := 8080, checksum := 0 })

/-- A sink that takes only the second of three entries. -/
def wavering : List Submission :=
  [⟨meterEntry 1, ⟨some .brokenPipe, none⟩⟩, ⟨meterEntry 2, .none⟩,
    ⟨meterEntry 3, ⟨some .timedOut, some .brokenPipe⟩⟩]

theorem fits_wavering : Fits false wavering := by
  have hinits : ∀ done ∈ wavering.inits,
      Csv.Buffer.utf8Length (records .csv false (done.rtakeWhile Submission.refused)) ≤
        Csv.Buffer.capacity := by
    decide +kernel
  intro done hdone
  exact hinits done ((List.mem_inits _ _).2 hdone)

/-- Its log has the second line, behind the first one if there is a buffer; and the third is there
at the end if there is one. -/
theorem wavering_delivered :
    Fits false wavering ∧
      ((fresh .json false .empty).submitted wavering).sink.contents =
        render .json false (meterEntry 2) ∧
      ((fresh .csv false .empty).submitted wavering).sink.contents =
        rendered .csv false [meterEntry 1, meterEntry 2] ∧
      (((fresh .csv false .empty).submitted wavering).close .none).contents =
        rendered .csv false [meterEntry 1, meterEntry 2, meterEntry 3] := by
  have hjson := log_after_submissions .json false .empty wavering
  have hcsv := log_after_submissions .csv false .empty wavering
  obtain ⟨hsent, -, hclose⟩ := hcsv.buffered rfl fits_wavering
  have htaken : wavering.filter (fun s => !s.refused) = [⟨meterEntry 2, .none⟩] := rfl
  have hout : wavering.rdropWhile Submission.refused = wavering.take 2 := rfl
  refine ⟨fits_wavering, ?_, ?_, (hclose .none).trans (List.nil_append _)⟩
  · rw [(hjson.direct (by decide)).1, htaken, records_singleton]
    exact List.nil_append _
  · rw [hsent, hout]
    exact List.nil_append _

end Writer
end MeterRadio.Log
