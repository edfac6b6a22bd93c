/-
Module: MeterRadio.Proofs.LogWriting
Purpose: What a log writer leaves in its sink. An entry that is written without an error is in the
  sink as a whole, and nothing of it is held back; so are several entries, in order.
Main exports: Log.Writer.Settled, Log.Writer.write_of_ok, Log.Writer.writeAll,
  Log.Writer.writeAll_of_ok
-/
import MeterRadio.Log.Writer
import MeterRadio.Proofs.RecordBuffer

namespace MeterRadio.Log

/-- The lines of entries, one after the other. -/
def rendered (format : Format) (withOffset : Bool) (es : List Entry) : List Char :=
  es.flatMap (render format withOffset)

@[simp] theorem rendered_nil (format : Format) (withOffset : Bool) :
    rendered format withOffset [] = [] := rfl

@[simp] theorem rendered_cons (format : Format) (withOffset : Bool) (e : Entry)
    (rest : List Entry) :
    rendered format withOffset (e :: rest) =
      render format withOffset e ++ rendered format withOffset rest := rfl

@[simp] theorem rendered_append (format : Format) (withOffset : Bool) (a b : List Entry) :
    rendered format withOffset (a ++ b) =
      rendered format withOffset a ++ rendered format withOffset b := by
  simp [rendered]

theorem render_ne_nil (format : Format) (withOffset : Bool) (e : Entry) :
    render format withOffset e ≠ [] := by
  cases format with
  | csv => exact Csv.line_ne_nil e.fields
  | plain => simp [render]
  | json => simp [render]
  | xml => simp [render]

namespace Writer

/-- Nothing is held back in front of the sink. -/
def Settled (w : Writer) : Prop :=
  ∀ buffer, w.output = .buffered buffer → w.format = .csv ∧ buffer.Settled

theorem settled_fresh (format : Format) (withOffset : Bool) (sink : Sink Char) :
    (fresh format withOffset sink).Settled := by
  intro buffer hbuffer
  cases format with
  | csv =>
      cases hbuffer
      exact ⟨rfl, Csv.Buffer.settled_fresh sink⟩
  | plain => cases hbuffer
  | json => cases hbuffer
  | xml => cases hbuffer

@[simp] theorem sink_fresh (format : Format) (withOffset : Bool) (sink : Sink Char) :
    (fresh format withOffset sink).sink = sink := by
  cases format <;> rfl

@[simp] theorem format_fresh (format : Format) (withOffset : Bool) (sink : Sink Char) :
    (fresh format withOffset sink).format = format := rfl

@[simp] theorem withOffset_fresh (format : Format) (withOffset : Bool) (sink : Sink Char) :
    (fresh format withOffset sink).withOffset = withOffset := rfl

/-! ### One entry -/

@[simp] theorem format_write (faults : Sink.Faults) (w : Writer) (e : Entry) :
    (w.write faults e).1.format = w.format := by
  unfold write
  cases w.output <;> rfl

@[simp] theorem withOffset_write (faults : Sink.Faults) (w : Writer) (e : Entry) :
    (w.write faults e).1.withOffset = w.withOffset := by
  unfold write
  cases w.output <;> rfl

theorem writeLine_of_ok {faults : Sink.Faults} {format : Format} {sink : Sink Char}
    {line : List Char} (h : (writeLine faults format sink line).2 = none) :
    (writeLine faults format sink line).1.contents = sink.contents ++ line := by
  unfold writeLine at h ⊢
  cases hw : sink.write faults line with
  | mk written error =>
      cases error with
      | some fault => simp [hw] at h
      | none =>
          have hc := Sink.contents_write_ok faults sink line (by rw [hw])
          rw [hw] at hc
          exact hc

theorem writeRecord_of_ok {faults : Sink.Faults} {buffer : Csv.Buffer} {fields : List String}
    (hb : buffer.Settled) (h : (writeRecord faults buffer fields).2 = none) :
    (writeRecord faults buffer fields).1.Settled ∧
      (writeRecord faults buffer fields).1.sink.contents =
        buffer.sink.contents ++ Csv.line fields := by
  unfold writeRecord at h ⊢
  cases hw : buffer.write faults fields with
  | mk written error =>
      cases error with
      | some fault => simp [hw] at h
      | none =>
          have hok : (buffer.write faults fields).2 = none := by rw [hw]
          have hwritten := Csv.Buffer.write_of_ok fields hb hok
          rw [hw] at hwritten h
          have hflush : (written.flush faults).2 = none := Option.map_eq_none_iff.1 h
          obtain ⟨hheld, hsink, hprogress⟩ := Csv.Buffer.flush_of_ok hflush
          refine ⟨⟨hheld, ?_⟩, ?_⟩
          · exact hprogress.trans hwritten.2
          · exact hsink.trans hwritten.1

/-- An entry written without an error has reached the sink as a whole. -/
theorem write_of_ok {faults : Sink.Faults} {w : Writer} {e : Entry} (hw : w.Settled)
    (h : (w.write faults e).2 = none) :
    (w.write faults e).1.Settled ∧
      (w.write faults e).1.sink.contents =
        w.sink.contents ++ render w.format w.withOffset e := by
  unfold write at h ⊢
  cases hout : w.output with
  | direct target =>
      rw [hout] at h
      have hsink : w.sink = target := by simp [sink, hout]
      constructor
      · intro after hafter
        cases hafter
      · rw [hsink]
        exact writeLine_of_ok h
  | buffered buffer =>
      rw [hout] at h
      obtain ⟨hcsv, hbuffer⟩ := hw buffer hout
      have hsink : w.sink = buffer.sink := by simp [sink, hout]
      obtain ⟨hsettled, hcontents⟩ := writeRecord_of_ok hbuffer h
      constructor
      · intro after hafter
        cases hafter
        exact ⟨hcsv, hsettled⟩
      · rw [hsink, hcsv]
        exact hcontents

/-- What is held back in front of the sink. -/
def held (w : Writer) : List Char :=
  match w.output with
  | .direct _ => []
  | .buffered buffer => buffer.held.reverse

theorem Settled.held_eq {w : Writer} (h : w.Settled) : w.held = [] := by
  unfold held
  cases hout : w.output with
  | direct target => rfl
  | buffered buffer =>
      dsimp only
      rw [(h buffer hout).2.held]
      rfl

/-- What comes out of a writer at its end is what it held back, unless the sink refuses it. -/
theorem contents_close (faults : Sink.Faults) (w : Writer) :
    (w.close faults).contents =
      w.sink.contents ++ if faults.write = none then w.held else [] := by
  unfold close sink held
  cases w.output with
  | direct target => simp
  | buffered buffer => exact buffer.contents_close faults

/-- How the write of an entry failed, and what it left. Either nothing reached the sink, and only a
comma-separated record is held back; or all of it did, and just the flush failed. -/
inductive Refusal (faults : Sink.Faults) (w : Writer) (e : Entry) (fault : Fault) (after : Writer) :
    Prop
  | write (hfault : faults.write = some fault)
      (hsink : after.sink.contents = w.sink.contents)
      (hheld : after.held <+: render w.format w.withOffset e)
      (hcsv : w.format ≠ .csv → after.held = [])
  | flush (hopen : faults.write = none) (hfault : faults.flush = some fault)
      (hsink : after.sink.contents = w.sink.contents ++ render w.format w.withOffset e)
      (hheld : after.held = [])

theorem fault_writeFailure (format : Format) (fault : Fault) :
    (writeFailure format fault).fault = fault := by
  cases format <;> rfl

theorem writeLine_of_error {faults : Sink.Faults} {format : Format} {sink : Sink Char}
    {line : List Char} {error : WriteError} (hline : line ≠ [])
    (h : (writeLine faults format sink line).2 = some error) :
    (faults.write = some error.fault ∧
        (writeLine faults format sink line).1.contents = sink.contents) ∨
      (faults.write = none ∧ faults.flush = some error.fault ∧
        (writeLine faults format sink line).1.contents = sink.contents ++ line) := by
  unfold writeLine at h ⊢
  cases hw : sink.write faults line with
  | mk written found =>
      rw [hw] at h
      cases found with
      | some fault =>
          obtain ⟨hfault, hsame⟩ := Sink.eq_of_write_fault (show _ = some fault by rw [hw])
          rw [hw] at hsame
          cases h
          rw [fault_writeFailure]
          exact .inl ⟨hfault, congrArg Sink.contents hsame⟩
      | none =>
          have hok : (sink.write faults line).2 = none := by rw [hw]
          have hc := Sink.contents_write_ok faults sink line hok
          rw [hw] at hc
          obtain ⟨fault, hflush, rfl⟩ := Option.map_eq_some_iff.1 h
          have hopen := (Sink.write_eq_none_of_ok hok).resolve_left hline
          exact .inr ⟨hopen, hflush, hc⟩

theorem writeRecord_of_error {faults : Sink.Faults} {buffer : Csv.Buffer} {fields : List String}
    {error : WriteError} (hb : buffer.Settled)
    (h : (writeRecord faults buffer fields).2 = some error) :
    (faults.write = some error.fault ∧
        (writeRecord faults buffer fields).1.sink = buffer.sink ∧
        (writeRecord faults buffer fields).1.held.reverse <+: Csv.line fields) ∨
      (faults.write = none ∧ faults.flush = some error.fault ∧
        (writeRecord faults buffer fields).1.sink.contents =
          buffer.sink.contents ++ Csv.line fields ∧
        (writeRecord faults buffer fields).1.held = []) := by
  have hrefused : ∀ fault, faults.write = some fault → _ := fun _ =>
    Csv.Buffer.write_of_refusal fields hb
  unfold writeRecord at h ⊢
  cases hw : buffer.write faults fields with
  | mk written found =>
      rw [hw] at h hrefused
      cases found with
      | some fault =>
          have hfault : faults.write = some fault :=
            Csv.Buffer.write_fault_of_strokes _ _ _ (show (buffer.write faults fields).2 = _ by
              rw [hw])
          cases h
          exact .inl ⟨hfault, hrefused fault hfault⟩
      | none =>
          obtain ⟨fault, hflush, rfl⟩ := Option.map_eq_some_iff.1 h
          rcases Csv.Buffer.flush_of_fault hflush with ⟨hfault, hsame⟩ | ⟨hopen, hfault, hdone⟩
          · have hleft := hrefused fault hfault
            rw [← hsame] at hleft
            exact .inl ⟨hfault, hleft⟩
          · obtain ⟨hgiven, -⟩ :=
              Csv.Buffer.write_of_ok fields hb (show (buffer.write faults fields).2 = none by
                rw [hw])
            rw [hw] at hgiven
            have hwritable : faults.write = none := by
              refine hopen.elim (fun hheld => ?_) id
              cases hf : faults.write with
              | none => rfl
              | some fault =>
                  have hsink := (hrefused fault hf).1
                  rw [Csv.Buffer.given, hheld, hsink] at hgiven
                  have hline : Csv.line fields = [] := by simpa using hgiven
                  exact absurd hline (Csv.line_ne_nil fields)
            exact .inr ⟨hwritable, hfault, hdone.2.trans hgiven, hdone.1⟩

theorem write_of_error {faults : Sink.Faults} {w : Writer} {e : Entry} {error : WriteError}
    (hw : w.Settled) (h : (w.write faults e).2 = some error) :
    Refusal faults w e error.fault (w.write faults e).1 := by
  unfold write at h ⊢
  cases hout : w.output with
  | direct target =>
      rw [hout] at h
      have hsink : w.sink = target := by simp [sink, hout]
      rcases writeLine_of_error (render_ne_nil _ _ _) h with ⟨hfault, hsame⟩ | ⟨hopen, hfault, hall⟩
      · exact .write hfault (by rw [hsink]; exact hsame) List.nil_prefix (fun _ => rfl)
      · exact .flush hopen hfault (by rw [hsink]; exact hall) rfl
  | buffered buffer =>
      rw [hout] at h
      obtain ⟨hcsv, hbuffer⟩ := hw buffer hout
      have hsink : w.sink = buffer.sink := by simp [sink, hout]
      have hrender : render w.format w.withOffset e = Csv.line e.fields := by
        rw [hcsv]
        rfl
      rcases writeRecord_of_error hbuffer h with
        ⟨hfault, hsame, hheld⟩ | ⟨hopen, hfault, hall, hheld⟩
      · refine .write hfault ?_ ?_ (fun hne => absurd hcsv hne)
        · rw [hsink, ← hsame]
          rfl
        · rw [hrender]
          exact hheld
      · refine .flush hopen hfault ?_ ?_
        · rw [hsink, hrender]
          exact hall
        · simp [held, hheld]

/-- A working sink takes every entry. -/
theorem write_none (w : Writer) (e : Entry) : (w.write Sink.Faults.none e).2 = none := by
  unfold write
  cases w.output with
  | direct sink =>
      have hw := Sink.write_none sink (render w.format w.withOffset e)
      dsimp only
      unfold writeLine
      cases hsink : sink.write Sink.Faults.none (render w.format w.withOffset e) with
      | mk written error =>
          rw [hsink] at hw
          cases hw
          rfl
  | buffered buffer =>
      have hw := Csv.Buffer.write_none buffer e.fields
      dsimp only
      unfold writeRecord
      cases hbuffer : buffer.write Sink.Faults.none e.fields with
      | mk written error =>
          rw [hbuffer] at hw
          cases hw
          exact Option.map_eq_none_iff.2 (Csv.Buffer.flush_none written)

/-! ### Several entries

One entry after the other is written up to the first error, and the fault of each write may depend
on what the sink holds before it. This is what a block does to the log. -/

/-- Writes entries one after the other up to the first error. What goes wrong in a write depends on
what the sink holds before it. -/
def writeAll (faults : Sink Char → Sink.Faults) : Writer → List Entry → Writer × Option WriteError
  | w, [] => (w, none)
  | w, e :: rest =>
    match w.write (faults w.sink) e with
    | (w, none) => writeAll faults w rest
    | (w, some error) => (w, some error)

theorem writeAll_cons_ok {faults : Sink Char → Sink.Faults} {w : Writer} {e : Entry}
    (rest : List Entry) (h : (w.write (faults w.sink) e).2 = none) :
    w.writeAll faults (e :: rest) = (w.write (faults w.sink) e).1.writeAll faults rest := by
  rw [writeAll, ← Prod.eta (w.write (faults w.sink) e), h]

theorem writeAll_cons_error {faults : Sink Char → Sink.Faults} {w : Writer} {e : Entry}
    {error : WriteError} (rest : List Entry) (h : (w.write (faults w.sink) e).2 = some error) :
    w.writeAll faults (e :: rest) = w.write (faults w.sink) e := by
  rw [writeAll, ← Prod.eta (w.write (faults w.sink) e), h]

/-- Entries written without an error have reached the sink, in order, and nothing else has. -/
theorem writeAll_of_ok {faults : Sink Char → Sink.Faults} (es : List Entry) :
    ∀ {w : Writer}, w.Settled → (w.writeAll faults es).2 = none →
      (w.writeAll faults es).1.Settled ∧
        (w.writeAll faults es).1.format = w.format ∧
        (w.writeAll faults es).1.withOffset = w.withOffset ∧
        (w.writeAll faults es).1.sink.contents =
          w.sink.contents ++ rendered w.format w.withOffset es := by
  induction es with
  | nil =>
      intro w hw _
      exact ⟨hw, rfl, rfl, by simp [writeAll]⟩
  | cons e rest ih =>
      intro w hw h
      cases herror : (w.write (faults w.sink) e).2 with
      | some error =>
          rw [writeAll_cons_error rest herror, herror] at h
          cases h
      | none =>
          rw [writeAll_cons_ok rest herror] at h ⊢
          obtain ⟨hsettled, hcontents⟩ := write_of_ok hw herror
          obtain ⟨hlast, hformat, hoffset, hall⟩ := ih hsettled h
          refine ⟨hlast, ?_, ?_, ?_⟩
          · rw [hformat, format_write]
          · rw [hoffset, withOffset_write]
          · rw [hall, hcontents, format_write, withOffset_write, rendered_cons,
              List.append_assoc]

/-- If entries were not all written, those before one of them were, and that one was refused. -/
theorem writeAll_of_error {faults : Sink Char → Sink.Faults} (es : List Entry)
    {error : WriteError} :
    ∀ {w : Writer}, (w.writeAll faults es).2 = some error →
      ∃ done e rest, es = done ++ e :: rest ∧ (w.writeAll faults done).2 = none ∧
        w.writeAll faults es =
          (w.writeAll faults done).1.write (faults (w.writeAll faults done).1.sink) e := by
  induction es with
  | nil =>
      intro w h
      cases h
  | cons e rest ih =>
      intro w h
      cases herror : (w.write (faults w.sink) e).2 with
      | some found => exact ⟨[], e, rest, rfl, rfl, writeAll_cons_error rest herror⟩
      | none =>
          rw [writeAll_cons_ok rest herror] at h
          obtain ⟨done, refused, later, rfl, hdone, hall⟩ := ih h
          refine ⟨e :: done, refused, later, rfl, ?_, ?_⟩
          · rw [writeAll_cons_ok done herror]
            exact hdone
          · rw [writeAll_cons_ok _ herror, writeAll_cons_ok done herror]
            exact hall

theorem writeAll_none {faults : Sink Char → Sink.Faults} (hf : ∀ sink, faults sink = .none)
    (es : List Entry) : ∀ w : Writer, (w.writeAll faults es).2 = none := by
  induction es with
  | nil => intro w; rfl
  | cons e rest ih =>
      intro w
      have herror : (w.write (faults w.sink) e).2 = none := by
        rw [hf]
        exact write_none w e
      rw [writeAll_cons_ok rest herror]
      exact ih _

/-- A new log in front of a working sink has the lines of the entries written to it. -/
theorem contents_of_fresh {faults : Sink Char → Sink.Faults} (hf : ∀ sink, faults sink = .none)
    (format : Format) (withOffset : Bool) (es : List Entry) :
    ((fresh format withOffset .empty).writeAll faults es).1.sink.contents =
      rendered format withOffset es := by
  obtain ⟨-, -, -, hcontents⟩ := writeAll_of_ok es (settled_fresh format withOffset .empty)
    (writeAll_none hf es _)
  rw [sink_fresh, format_fresh, withOffset_fresh] at hcontents
  exact hcontents

end Writer
end MeterRadio.Log
