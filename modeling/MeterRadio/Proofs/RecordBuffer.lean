/-
Module: MeterRadio.Proofs.RecordBuffer
Purpose: What a buffer of comma-separated records holds and sends. Everything it was given is in
  the sink or still held, in order, and a record that it takes is the line of its fields.
Main exports: Csv.strokesText_recordStrokes, Csv.Buffer.strokes_spec, Csv.Buffer.Settled,
  Csv.Buffer.given_write, Csv.Buffer.flush_of_open, Csv.Buffer.write_of_room
-/
import MeterRadio.Csv.Buffer
import MeterRadio.Proofs.SinkWrites

namespace MeterRadio.Csv

/-! ### The strokes of a record -/

/-- The text of strokes made one after the other. -/
def strokesText (strokes : List Stroke) : List Char := strokes.flatMap Stroke.text

@[simp] theorem strokesText_nil : strokesText [] = [] := rfl

@[simp] theorem strokesText_cons (s : Stroke) (rest : List Stroke) :
    strokesText (s :: rest) = s.text ++ strokesText rest := rfl

@[simp] theorem strokesText_append (a b : List Stroke) :
    strokesText (a ++ b) = strokesText a ++ strokesText b := by
  simp [strokesText]

/-- Where a record stands after strokes. -/
def progressAfter (p : Progress) (strokes : List Stroke) : Progress :=
  strokes.foldl (fun _ s => s.after) p

/-- The written form of a field without its closing quote. -/
def opened (text : List Char) : List Char :=
  if needsQuotes text then '"' :: text.flatMap doubled else text

/-- The quote that closes a field, if it needs one. -/
def closing (quotes : Bool) : List Char := if quotes then ['"'] else []

theorem opened_append_closing (text : List Char) :
    opened text ++ closing (needsQuotes text) = field text := by
  unfold opened closing field
  cases needsQuotes text with
  | false => simp
  | true => simp

/-- The characters of a field make the text between its quotes. -/
theorem strokesText_characters (p : Progress) (text : List Char) :
    strokesText (text.map (characterStroke p)) =
      if p.quotes then text.flatMap doubled else text := by
  induction text with
  | nil => simp
  | cons c rest ih =>
      rw [List.map_cons, strokesText_cons, ih]
      cases hq : p.quotes with
      | false => simp [characterStroke, hq]
      | true => simp [characterStroke, hq]

/-- The first field of a record begins with its own opening quote. -/
theorem strokesText_firstField (text : List Char) :
    strokesText (fieldStrokes .fresh text) = opened text := by
  simp only [fieldStrokes, commaStrokes, atField, Progress.fresh, strokesText_append,
    strokesText_characters, opened]
  cases needsQuotes text with
  | false => simp [openingStroke]
  | true => simp [openingStroke]

/-- A later field closes the one before it and sets a comma first. -/
theorem strokesText_nextField (n : Nat) (quotes : Bool) (text : List Char) :
    strokesText (fieldStrokes ⟨n + 1, true, quotes⟩ text) =
      closing quotes ++ ',' :: opened text := by
  simp only [fieldStrokes, commaStrokes, closingStroke, atField, strokesText_append,
    strokesText_characters, opened, closing]
  cases quotes <;> cases needsQuotes text <;> simp [openingStroke]

theorem afterField_fresh (text : List Char) :
    afterField .fresh text = ⟨1, true, needsQuotes text⟩ := by
  simp [afterField, atField, Progress.fresh]

theorem afterField_next (n : Nat) (quotes : Bool) (text : List Char) :
    afterField ⟨n + 1, true, quotes⟩ text = ⟨n + 2, true, needsQuotes text⟩ := by
  simp [afterField, atField]

/-- What is written after a field: its closing quote, the other fields behind commas, and the end
of the line. -/
theorem strokesText_rest (rest : List (List Char)) :
    ∀ (n : Nat) (quotes : Bool),
      strokesText (recordStrokes ⟨n + 1, true, quotes⟩ rest) =
        closing quotes ++ rest.flatMap (fun text => ',' :: field text) ++ ['\n'] := by
  induction rest with
  | nil =>
      intro n quotes
      cases quotes <;> simp [recordStrokes, closingStroke, closing]
  | cons text rest ih =>
      intro n quotes
      rw [recordStrokes, strokesText_append, strokesText_nextField, afterField_next,
        ih (n + 1) (needsQuotes text)]
      simp [← opened_append_closing]

theorem joined_cons (text : List Char) (rest : List (List Char)) :
    joined (text :: rest) = field text ++ rest.flatMap fun text => ',' :: field text := by
  induction rest generalizing text with
  | nil => simp [joined]
  | cons next rest ih => rw [joined, ih]; simp

theorem line_ne_nil (fields : List String) : line fields ≠ [] := by
  simp [line]

/-- The strokes of a record that nothing was written of make its line. -/
theorem strokesText_recordStrokes (fields : List String) :
    strokesText (recordStrokes .fresh (fields.map String.toList)) = line fields := by
  cases fields with
  | nil => simp [recordStrokes, closingStroke, Progress.fresh, line, joined]
  | cons text rest =>
      rw [line, List.map_cons, joined_cons, recordStrokes, strokesText_append,
        strokesText_firstField, afterField_fresh, strokesText_rest]
      simp [← opened_append_closing]

/-- After its strokes a record is finished. -/
theorem progressAfter_recordStrokes (p q : Progress) (texts : List (List Char)) :
    progressAfter q (recordStrokes p texts) = .fresh := by
  induction texts generalizing p q with
  | nil => simp [recordStrokes, progressAfter]
  | cons text rest ih =>
      have happend : ∀ a b, progressAfter q (a ++ b) = progressAfter (progressAfter q a) b := by
        intro a b
        simp [progressAfter]
      rw [recordStrokes, happend]
      exact ih _ _

namespace Buffer

/-! ### What a buffer was given

A send moves text from the buffer to the sink, and strokes add to what was given. So a buffer can be
followed by what it was given, wherever the text has got to. -/

/-- Everything that a buffer was given: what has reached the sink, and what is still held. -/
def given (b : Buffer) : List Char := b.sink.contents ++ b.held.reverse

@[simp] theorem given_hold (b : Buffer) (s : Stroke) : (b.hold s).given = b.given ++ s.text := by
  simp [given, hold]

/-- A buffer whose held text is refused stays as it was. -/
theorem send_of_fault {faults : Sink.Faults} {b : Buffer} {fault : Fault}
    (h : (b.send faults).2 = some fault) : (b.send faults).1 = b := by
  unfold send at h ⊢
  split at h
  · simp at h
  · rfl

/-- A buffer whose held text is taken holds nothing any more. -/
theorem send_of_ok {faults : Sink.Faults} {b : Buffer} (h : (b.send faults).2 = none) :
    (b.send faults).1.held = [] ∧ (b.send faults).1.sink.contents = b.given ∧
      (b.send faults).1.progress = b.progress := by
  unfold send at h ⊢
  cases hw : b.sink.write faults b.held.reverse with
  | mk sink error =>
      cases error with
      | some fault => simp [hw] at h
      | none =>
          have hc := Sink.contents_write_ok faults b.sink b.held.reverse (by rw [hw])
          rw [hw] at hc
          exact ⟨rfl, hc, rfl⟩

/-- Sending loses nothing and adds nothing. -/
theorem given_send (faults : Sink.Faults) (b : Buffer) : (b.send faults).1.given = b.given := by
  cases h : (b.send faults).2 with
  | none =>
      obtain ⟨hheld, hsink, -⟩ := send_of_ok h
      simp [given, hheld, hsink]
  | some fault => rw [send_of_fault h]

theorem progress_send (faults : Sink.Faults) (b : Buffer) :
    (b.send faults).1.progress = b.progress := by
  cases h : (b.send faults).2 with
  | none => exact (send_of_ok h).2.2
  | some fault => rw [send_of_fault h]

/-- Strokes are made one after the other up to the first one that finds no room in front of a sink
that refuses the held text; those that were made are all there. -/
theorem strokes_spec (faults : Sink.Faults) :
    ∀ (todo : List Stroke) (used : Nat) (b : Buffer),
      ∃ made left, todo = made ++ left ∧
        (strokes faults used b todo).1.given = b.given ++ strokesText made ∧
        (strokes faults used b todo).1.progress = progressAfter b.progress made ∧
        ((strokes faults used b todo).2 = none → left = []) := by
  intro todo
  induction todo with
  | nil =>
      intro used b
      exact ⟨[], [], rfl, by simp [strokes], rfl, fun _ => rfl⟩
  | cons s rest ih =>
      intro used b
      rw [strokes]
      split
      · obtain ⟨made, left, hsplit, hgiven, hprogress, hdone⟩ :=
          ih (used + utf8Length s.text) (b.hold s)
        refine ⟨s :: made, left, by rw [hsplit, List.cons_append], ?_, hprogress, hdone⟩
        rw [hgiven, given_hold, strokesText_cons, List.append_assoc]
      · cases hsend : b.send faults with
        | mk sent error =>
            have hgiven_sent := given_send faults b
            have hprogress_sent := progress_send faults b
            rw [hsend] at hgiven_sent hprogress_sent
            cases error with
            | some fault =>
                refine ⟨[], s :: rest, rfl, ?_, hprogress_sent, fun h => by simp at h⟩
                rw [strokesText_nil, List.append_nil]
                exact hgiven_sent
            | none =>
                obtain ⟨made, left, hsplit, hgiven, hprogress, hdone⟩ :=
                  ih (utf8Length s.text) (sent.hold s)
                refine ⟨s :: made, left, by rw [hsplit, List.cons_append], ?_, hprogress, hdone⟩
                rw [hgiven, given_hold, strokesText_cons, hgiven_sent, List.append_assoc]

/-! ### Records that are taken -/

/-- Nothing is held and no record is begun. -/
structure Settled (b : Buffer) : Prop where
  held : b.held = []
  progress : b.progress = .fresh

theorem settled_fresh (sink : Sink Char) : (fresh sink).Settled := ⟨rfl, rfl⟩

theorem Settled.given_eq {b : Buffer} (h : b.Settled) : b.given = b.sink.contents := by
  simp [given, h.held]

/-- A record written between two others adds its line to what the buffer was given. -/
theorem given_write {faults : Sink.Faults} {b : Buffer} (fields : List String)
    (hb : b.progress = .fresh) (h : (b.write faults fields).2 = none) :
    (b.write faults fields).1.given = b.given ++ line fields ∧
      (b.write faults fields).1.progress = .fresh := by
  unfold write at h ⊢
  obtain ⟨made, left, hsplit, hgiven, hprogress, hdone⟩ :=
    strokes_spec faults (recordStrokes b.progress (fields.map String.toList))
      (utf8Length b.held) b
  have hmade : recordStrokes b.progress (fields.map String.toList) = made := by
    rw [hsplit, hdone h, List.append_nil]
  constructor
  · rw [hgiven, ← hmade, hb, strokesText_recordStrokes]
  · rw [hprogress, ← hmade, progressAfter_recordStrokes]

/-- So does one written to a settled buffer, whose sink has everything. -/
theorem write_of_ok {faults : Sink.Faults} {b : Buffer} (fields : List String) (hb : b.Settled)
    (h : (b.write faults fields).2 = none) :
    (b.write faults fields).1.given = b.sink.contents ++ line fields ∧
      (b.write faults fields).1.progress = .fresh := by
  rw [← hb.given_eq]
  exact given_write fields hb.progress h

/-- A buffer that was flushed is empty, and the sink has everything. -/
theorem flush_of_ok {faults : Sink.Faults} {b : Buffer} (h : (b.flush faults).2 = none) :
    (b.flush faults).1.held = [] ∧ (b.flush faults).1.sink.contents = b.given ∧
      (b.flush faults).1.progress = b.progress := by
  unfold flush at h ⊢
  cases hsend : b.send faults with
  | mk sent error =>
      cases error with
      | some fault => simp [hsend] at h
      | none =>
          have hok : (b.send faults).2 = none := by rw [hsend]
          have := send_of_ok hok
          rw [hsend] at this
          exact this

/-! ### Records that are refused -/

theorem write_fault_of_send {faults : Sink.Faults} {b : Buffer} {fault : Fault}
    (h : (b.send faults).2 = some fault) : faults.write = some fault := by
  unfold send at h
  cases hw : b.sink.write faults b.held.reverse with
  | mk sink error =>
      cases error with
      | none => simp [hw] at h
      | some found =>
          have hfound := (Sink.eq_of_write_fault (show _ = some found by rw [hw])).1
          simp only [hw] at h
          exact hfound.trans h

/-- A sink whose writes fail is never changed by a buffer in front of it. -/
theorem sink_send {faults : Sink.Faults} {fault : Fault} (h : faults.write = some fault)
    (b : Buffer) : (b.send faults).1.sink = b.sink := by
  have hsame := Sink.write_of_fault h b.sink b.held.reverse
  unfold send
  cases hw : b.sink.write faults b.held.reverse with
  | mk sink error =>
      rw [hw] at hsame
      cases error with
      | none => exact hsame
      | some found => rfl

theorem sink_strokes {faults : Sink.Faults} {fault : Fault} (h : faults.write = some fault)
    (todo : List Stroke) :
    ∀ (used : Nat) (b : Buffer), (strokes faults used b todo).1.sink = b.sink := by
  induction todo with
  | nil => intro used b; rfl
  | cons s rest ih =>
      intro used b
      rw [strokes]
      split
      · exact ih _ _
      · have hsent := sink_send h b
        cases hsend : b.send faults with
        | mk sent error =>
            rw [hsend] at hsent
            cases error with
            | some found => exact hsent
            | none => exact (ih _ _).trans hsent

theorem write_fault_of_strokes {faults : Sink.Faults} {fault : Fault} (todo : List Stroke) :
    ∀ (used : Nat) (b : Buffer), (strokes faults used b todo).2 = some fault →
      faults.write = some fault := by
  induction todo with
  | nil =>
      intro used b h
      cases h
  | cons s rest ih =>
      intro used b h
      rw [strokes] at h
      split at h
      · exact ih _ _ h
      · cases hsend : b.send faults with
        | mk sent error =>
            rw [hsend] at h
            cases error with
            | none => exact ih _ _ h
            | some found =>
                cases h
                exact write_fault_of_send (by rw [hsend])

/-- A record of which the sink takes nothing is held as far as it was written. -/
theorem write_of_refusal {faults : Sink.Faults} {fault : Fault} {b : Buffer}
    (fields : List String) (hb : b.Settled) (h : faults.write = some fault) :
    (b.write faults fields).1.sink = b.sink ∧
      (b.write faults fields).1.held.reverse <+: line fields := by
  have hsink : (b.write faults fields).1.sink = b.sink := sink_strokes h _ _ _
  refine ⟨hsink, ?_⟩
  obtain ⟨made, left, hsplit, hgiven, -, -⟩ :=
    strokes_spec faults (recordStrokes b.progress (fields.map String.toList))
      (utf8Length b.held) b
  change (b.write faults fields).1.given = _ at hgiven
  rw [given, hsink, hb.given_eq, List.append_cancel_left_eq] at hgiven
  rw [hgiven, ← strokesText_recordStrokes, ← hb.progress, hsplit, strokesText_append]
  exact List.prefix_append _ _

/-- A flush fails because the held text is refused and stays, or after all of it was taken. -/
theorem flush_of_fault {faults : Sink.Faults} {b : Buffer} {fault : Fault}
    (h : (b.flush faults).2 = some fault) :
    (faults.write = some fault ∧ (b.flush faults).1 = b) ∨
      ((b.held = [] ∨ faults.write = none) ∧ faults.flush = some fault ∧
        (b.flush faults).1.held = [] ∧ (b.flush faults).1.sink.contents = b.given) := by
  unfold flush at h ⊢
  cases hsend : b.send faults with
  | mk sent error =>
      rw [hsend] at h
      cases error with
      | some found =>
          cases h
          have hsent : (b.send faults).2 = some fault := by rw [hsend]
          have hsame := send_of_fault hsent
          rw [hsend] at hsame
          exact .inl ⟨write_fault_of_send hsent, hsame⟩
      | none =>
          have hok : (b.send faults).2 = none := by rw [hsend]
          obtain ⟨hheld, hsink, -⟩ := send_of_ok hok
          rw [hsend] at hheld hsink
          refine .inr ⟨?_, h, hheld, hsink⟩
          have htaken : (b.sink.write faults b.held.reverse).2 = none := by
            unfold send at hok
            cases hw : b.sink.write faults b.held.reverse with
            | mk sink found =>
                cases found with
                | none => rfl
                | some fault => simp [hw] at hok
          exact (Sink.write_eq_none_of_ok htaken).imp_left List.reverse_eq_nil_iff.1

/-- What comes out of a buffer at its end is what it held, unless the sink refuses it. -/
theorem contents_close (faults : Sink.Faults) (b : Buffer) :
    (b.close faults).contents =
      b.sink.contents ++ if faults.write = none then b.held.reverse else [] := by
  have hsink : b.close faults = (b.sink.write faults b.held.reverse).1 := by
    unfold close flush send
    cases hw : b.sink.write faults b.held.reverse with
    | mk sink error =>
        cases error with
        | none => rfl
        | some fault =>
            have hsame := (Sink.eq_of_write_fault (show _ = some fault by rw [hw])).2
            rw [hw] at hsame
            exact hsame.symm
  rw [hsink]
  cases hw : faults.write with
  | none => rw [Sink.contents_write hw, if_pos rfl]
  | some fault =>
      rw [Sink.write_of_fault hw]
      simp

/-! ### Sinks that take everything, and sinks that take nothing

In front of a sink that takes everything a buffer is emptied by every flush. In front of one that
takes nothing it only fills, for as long as there is room. -/

/-- A sink whose writes do not fail takes the held text. -/
theorem send_of_open {faults : Sink.Faults} (h : faults.write = none) (b : Buffer) :
    (b.send faults).2 = none := by
  cases hsend : (b.send faults).2 with
  | none => rfl
  | some fault =>
      have hfault := write_fault_of_send hsend
      rw [h] at hfault
      cases hfault

theorem progress_flush (faults : Sink.Faults) (b : Buffer) :
    (b.flush faults).1.progress = b.progress := by
  have hprogress := progress_send faults b
  unfold flush
  cases hsend : b.send faults with
  | mk sent error =>
      rw [hsend] at hprogress
      cases error with
      | none => exact hprogress
      | some fault => exact hprogress

/-- In front of such a sink a record is always taken. -/
theorem write_of_open {faults : Sink.Faults} (h : faults.write = none) (b : Buffer)
    (fields : List String) : (b.write faults fields).2 = none := by
  cases hwrite : (b.write faults fields).2 with
  | none => rfl
  | some fault =>
      have hfault := write_fault_of_strokes _ _ _ hwrite
      rw [h] at hfault
      cases hfault

/-- There, a flush empties the buffer, and only the flush of the sink can fail. -/
theorem flush_of_open {faults : Sink.Faults} (h : faults.write = none) (b : Buffer) :
    (b.flush faults).2 = faults.flush ∧ (b.flush faults).1.held = [] ∧
      (b.flush faults).1.sink.contents = b.given := by
  have hopen := send_of_open h b
  obtain ⟨hheld, hsink, -⟩ := send_of_ok hopen
  unfold flush
  cases hsend : b.send faults with
  | mk sent error =>
      rw [hsend] at hopen hheld hsink
      cases hopen
      exact ⟨rfl, hheld, hsink⟩

/-- A sink whose writes fail refuses held text, and the flush leaves it where it was. -/
theorem flush_of_refusal {faults : Sink.Faults} {fault : Fault} {b : Buffer}
    (h : faults.write = some fault) (hheld : b.held ≠ []) : b.flush faults = (b, some fault) := by
  have hpiece : ¬ b.held.reverse.isEmpty = true := by
    rw [List.isEmpty_iff, List.reverse_eq_nil_iff]
    exact hheld
  have hwrite : b.sink.write faults b.held.reverse = (b.sink, some fault) := by
    rw [Sink.write, if_neg hpiece, h]
  rw [flush, send, hwrite]

theorem write_none (b : Buffer) (fields : List String) :
    (b.write Sink.Faults.none fields).2 = none := write_of_open rfl b fields

theorem flush_none (b : Buffer) : (b.flush Sink.Faults.none).2 = none := (flush_of_open rfl b).1

/-- In front of a sink that takes nothing, what was written is held behind what was held before. -/
theorem held_of_refusal {b after : Buffer} {text : List Char} (hsink : after.sink = b.sink)
    (h : after.given = b.given ++ text) :
    after.held.reverse = b.held.reverse ++ text := by
  rw [given, given, hsink, List.append_assoc, List.append_cancel_left_eq] at h
  exact h

/-- The strokes of a record are not without text, wherever the record stands. -/
theorem strokesText_recordStrokes_ne_nil (texts : List (List Char)) :
    ∀ p, strokesText (recordStrokes p texts) ≠ [] := by
  induction texts with
  | nil =>
      intro p
      rw [recordStrokes, strokesText_append]
      exact List.append_ne_nil_of_right_ne_nil _ (List.cons_ne_nil _ _)
  | cons text rest ih =>
      intro p
      rw [recordStrokes, strokesText_append]
      exact List.append_ne_nil_of_right_ne_nil _ (ih _)

/-- A record that found room in front of a sink that takes nothing is held. -/
theorem held_write_ne_nil {faults : Sink.Faults} {fault : Fault} {b : Buffer}
    {fields : List String} (h : faults.write = some fault)
    (hok : (b.write faults fields).2 = none) : (b.write faults fields).1.held ≠ [] := by
  obtain ⟨made, left, hsplit, hgiven, -, hdone⟩ :=
    strokes_spec faults (recordStrokes b.progress (fields.map String.toList))
      (utf8Length b.held) b
  have hmade : recordStrokes b.progress (fields.map String.toList) = made := by
    rw [hsplit, hdone hok, List.append_nil]
  have hsink : (b.write faults fields).1.sink = b.sink := sink_strokes h _ _ _
  have hheld : (b.write faults fields).1.held.reverse = b.held.reverse ++ strokesText made :=
    held_of_refusal hsink hgiven
  intro hnil
  rw [hnil, ← hmade] at hheld
  exact strokesText_recordStrokes_ne_nil _ _ (List.append_eq_nil_iff.1 hheld.symm).2

/-! ### Room -/

theorem foldl_utf8Size (text : List Char) :
    ∀ total : Nat, text.foldl (fun total c => total + c.utf8Size) total =
      total + utf8Length text := by
  induction text with
  | nil =>
      intro total
      rfl
  | cons c rest ih =>
      intro total
      rw [utf8Length, List.foldl_cons, List.foldl_cons, ih, ih, Nat.zero_add, Nat.add_assoc]

@[simp] theorem utf8Length_append (a b : List Char) :
    utf8Length (a ++ b) = utf8Length a + utf8Length b := by
  rw [utf8Length, List.foldl_append]
  exact foldl_utf8Size b (utf8Length a)

@[simp] theorem utf8Length_reverse (text : List Char) :
    utf8Length text.reverse = utf8Length text := by
  induction text with
  | nil => rfl
  | cons c rest ih =>
      rw [List.reverse_cons, utf8Length_append, ih, Nat.add_comm]
      exact (utf8Length_append [c] rest).symm

/-- Strokes for which there is room are all made, whatever the sink does. -/
theorem strokes_of_room (faults : Sink.Faults) (todo : List Stroke) :
    ∀ (used : Nat) (b : Buffer), used + utf8Length (strokesText todo) ≤ capacity →
      (strokes faults used b todo).2 = none := by
  induction todo with
  | nil =>
      intro used b _
      rfl
  | cons s rest ih =>
      intro used b hroom
      rw [strokesText_cons, utf8Length_append, ← Nat.add_assoc] at hroom
      rw [strokes, if_pos (Nat.le_trans (Nat.le_add_right _ _) hroom)]
      exact ih _ _ hroom

/-- A record for which there is room is held if the sink takes nothing. -/
theorem write_of_room {faults : Sink.Faults} {fault : Fault} {b : Buffer} (fields : List String)
    (h : faults.write = some fault) (hb : b.progress = .fresh)
    (hroom : utf8Length b.held + utf8Length (line fields) ≤ capacity) :
    (b.write faults fields).2 = none ∧ (b.write faults fields).1.sink = b.sink ∧
      (b.write faults fields).1.held.reverse = b.held.reverse ++ line fields ∧
      (b.write faults fields).1.progress = .fresh := by
  have hok : (b.write faults fields).2 = none := by
    apply strokes_of_room
    rw [hb, strokesText_recordStrokes]
    exact hroom
  have hsink : (b.write faults fields).1.sink = b.sink := sink_strokes h _ _ _
  obtain ⟨hgiven, hprogress⟩ := given_write fields hb hok
  exact ⟨hok, hsink, held_of_refusal hsink hgiven, hprogress⟩

end Buffer
end MeterRadio.Csv
