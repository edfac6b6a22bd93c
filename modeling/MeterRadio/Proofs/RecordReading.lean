/-
Module: MeterRadio.Proofs.RecordReading
Purpose: Reading comma-separated records undoes writing them. A written field is read as its text
  whatever it holds, so the line ends inside of fields are told apart from those of records.
Main exports: Csv.Reading.after, Csv.Reading.Holding, Csv.Reading.holding_field,
  Csv.Reading.after_line, Csv.records?_lines, Log.records_read_back
-/
import MeterRadio.Proofs.LogWriting

namespace MeterRadio.Csv

namespace Reading

/-! ### Reading on -/

/-- What becomes of a reader with a text. -/
def after (r : Reading) (text : List Char) : Option Reading := text.foldlM step r

@[simp] theorem after_nil (r : Reading) : r.after [] = some r := rfl

@[simp] theorem after_cons (r : Reading) (c : Char) (rest : List Char) :
    r.after (c :: rest) = (r.step c).bind (after · rest) := rfl

theorem after_append (r : Reading) (a b : List Char) :
    r.after (a ++ b) = (r.after a).bind (after · b) :=
  List.foldlM_append

/-- At the start of a field, with fields and records behind it, the last one first. -/
def ready (fields : List (List Char)) (records : List (List (List Char))) : Reading :=
  ⟨.start, [], fields, records⟩

/-- Behind a field that a comma or a line feed may end. -/
structure Holding (text : List Char) (fields : List (List Char))
    (records : List (List (List Char))) (r : Reading) : Prop where
  position : r.position ≠ .quoted
  current : r.current = text.reverse
  fields : r.fields = fields
  records : r.records = records

variable {text : List Char} {fields : List (List Char)} {records : List (List (List Char))}
  {r : Reading}

theorem Holding.endField (h : Holding text fields records r) :
    r.endField = ready (text :: fields) records := by
  rw [Reading.endField, h.current, h.fields, h.records, List.reverse_reverse]
  rfl

/-- Outside of quotes a comma ends a field and a line feed a record. -/
theorem Holding.step_ends (h : Holding text fields records r) :
    r.step ',' = some r.endField ∧ r.step '\n' = some r.endRecord := by
  unfold step
  cases hposition : r.position with
  | quoted => exact absurd hposition h.position
  | start => exact ⟨rfl, rfl⟩
  | plain => exact ⟨rfl, rfl⟩
  | closing => exact ⟨rfl, rfl⟩

theorem Holding.step_comma (h : Holding text fields records r) :
    r.step ',' = some (ready (text :: fields) records) := by
  rw [h.step_ends.1, h.endField]

theorem Holding.step_lineFeed (h : Holding text fields records r) :
    r.step '\n' = some (ready [] ((text :: fields).reverse :: records)) := by
  rw [h.step_ends.2, endRecord, h.endField]
  rfl

/-! ### One field

A field that is written without quotes has no character that could end it. One with quotes may hold
anything, since a quote in it is written twice and so none is taken for its end. -/

/-- Characters that make no quotes necessary are taken in as they are. -/
theorem holding_plain (position : Position) (hposition : position = .start ∨ position = .plain) :
    ∀ before rest : List Char, needsQuotes rest = false →
      ∃ r, after ⟨position, before.reverse, fields, records⟩ rest = some r ∧
        Holding (before ++ rest) fields records r := by
  intro before rest
  -- On what is left of the field; what was taken in before makes its front.
  induction rest generalizing position before with
  | nil =>
      intro _
      refine ⟨_, after_nil _, ?_, ?_, rfl, rfl⟩
      · rcases hposition with rfl | rfl
        · nofun
        · nofun
      · rw [List.append_nil]
  | cons c rest ih =>
      intro hplain
      rw [needsQuotes, List.any_cons, Bool.or_eq_false_iff] at hplain
      obtain ⟨hc, hrest⟩ := hplain
      simp only [isSpecial, Bool.or_eq_false_iff, beq_eq_false_iff_ne, ne_eq] at hc
      obtain ⟨⟨⟨hcomma, hquote⟩, hreturn⟩, hfeed⟩ := hc
      have hstep : step ⟨position, before.reverse, fields, records⟩ c =
          some ⟨.plain, (before ++ [c]).reverse, fields, records⟩ := by
        rw [List.reverse_append]
        rcases hposition with rfl | rfl
        · simp [step, push, hcomma, hquote, hreturn, hfeed]
        · simp [step, push, hcomma, hquote, hreturn, hfeed]
      obtain ⟨r, hr, hholding⟩ := ih .plain (.inr rfl) (before ++ [c]) hrest
      refine ⟨r, ?_, ?_⟩
      · rw [after_cons, hstep]
        exact hr
      · rwa [List.append_assoc] at hholding

/-- Between quotes every character is taken in, a quote when it is written twice. -/
theorem after_doubled (rest : List Char) : ∀ before : List Char,
    after ⟨.quoted, before.reverse, fields, records⟩ (rest.flatMap doubled) =
      some ⟨.quoted, (before ++ rest).reverse, fields, records⟩ := by
  induction rest with
  | nil =>
      intro before
      rw [List.flatMap_nil, after_nil, List.append_nil]
  | cons c rest ih =>
      intro before
      have hchar : after ⟨.quoted, before.reverse, fields, records⟩ (doubled c) =
          some ⟨.quoted, (before ++ [c]).reverse, fields, records⟩ := by
        rw [List.reverse_append, doubled]
        split
        case isTrue hquote =>
          subst hquote
          rfl
        case isFalse hquote => simp [step, push, hquote]
      rw [List.flatMap_cons, after_append, hchar, Option.bind_some, ih (before ++ [c]),
        List.append_assoc]
      rfl

/-- A written field is read as its text, whatever this holds. -/
theorem holding_field (text : List Char) (fields : List (List Char))
    (records : List (List (List Char))) :
    ∃ r, (ready fields records).after (field text) = some r ∧ Holding text fields records r := by
  unfold field
  cases hquotes : needsQuotes text with
  | false =>
      rw [if_neg Bool.false_ne_true]
      exact holding_plain .start (.inl rfl) [] text hquotes
  | true =>
      refine ⟨⟨.closing, text.reverse, fields, records⟩, ?_, nofun, rfl, rfl, rfl⟩
      have hopening : (ready fields records).step '"' =
          some ⟨.quoted, [].reverse, fields, records⟩ := rfl
      rw [if_pos rfl, List.cons_append, after_cons, hopening, Option.bind_some, after_append,
        after_doubled text []]
      rfl

/-! ### Records -/

/-- Fields behind commas, up to the line feed that ends their record. -/
theorem after_rest (rest : List (List Char)) :
    ∀ {text : List Char} {fields : List (List Char)} {r : Reading}, Holding text fields records r →
      r.after (rest.flatMap (fun text => ',' :: field text) ++ ['\n']) =
        some (ready [] ((fields.reverse ++ text :: rest) :: records)) := by
  induction rest with
  | nil =>
      intro text fields r h
      rw [List.flatMap_nil, List.nil_append, after_cons, h.step_lineFeed, List.reverse_cons]
      rfl
  | cons next rest ih =>
      intro text fields r h
      -- The comma ends the field that is held, and the next one is held in its place.
      obtain ⟨behind, hbehind, hholding⟩ := holding_field next (text :: fields) records
      rw [List.flatMap_cons, List.cons_append, List.cons_append, after_cons, h.step_comma,
        Option.bind_some, List.append_assoc, after_append, hbehind, Option.bind_some,
        ih hholding, List.reverse_cons, List.append_assoc]
      rfl

/-- The line of a record with a field is read as that record. -/
theorem after_line {record : List String} (h : record ≠ []) :
    (ready [] records).after (line record) =
      some (ready [] (record.map String.toList :: records)) := by
  obtain ⟨first, rest, rfl⟩ := List.exists_cons_of_ne_nil h
  obtain ⟨r, hr, hholding⟩ := holding_field first.toList [] records
  rw [line, List.map_cons, joined_cons, List.append_assoc, after_append, hr, Option.bind_some,
    after_rest _ hholding]
  rfl

/-- Lines of records are read as these records, in order. -/
theorem after_lines (table : List (List String)) :
    ∀ records, (∀ record ∈ table, record ≠ []) →
      (ready [] records).after (table.flatMap line) =
        some (ready [] ((table.map (List.map String.toList)).reverse ++ records)) := by
  induction table with
  | nil =>
      intro records _
      rfl
  | cons record table ih =>
      intro records h
      obtain ⟨hrecord, htable⟩ := List.forall_mem_cons.1 h
      rw [List.flatMap_cons, after_append, after_line hrecord, Option.bind_some, ih _ htable,
        List.map_cons, List.reverse_cons, List.append_assoc]
      rfl

end Reading

/-- Records that have fields are read back from their lines. -/
theorem records?_lines {table : List (List String)} (h : ∀ record ∈ table, record ≠ []) :
    records? (table.flatMap line) = some table := by
  have hafter : (table.flatMap line).foldlM Reading.step .initial =
      some (.ready [] (table.map (List.map String.toList)).reverse) := by
    have hlines := Reading.after_lines table [] h
    rwa [List.append_nil] at hlines
  have hback : (table.map (List.map String.toList)).map (List.map String.ofList) = table := by
    rw [List.map_map]
    refine List.map_id'' (fun record => ?_) table
    rw [Function.comp_apply, List.map_map]
    exact List.map_id'' (fun _ => String.ofList_toList) record
  rw [records?, hafter, Option.bind_eq_bind, Option.bind_some, if_pos ⟨rfl, rfl⟩]
  rw [Reading.ready, List.reverse_reverse, hback]
  rfl

end MeterRadio.Csv

namespace MeterRadio.Log

/-- A log of comma-separated records is read back as one record for each entry, in order, with its
time, its place in the samples, its tag and the fields of its message, all as they were. -/
theorem records_read_back (withOffset : Bool) (es : List Entry) :
    ∃ w, (Writer.fresh .csv withOffset .empty).writeAll (fun _ => Sink.Faults.none) es = (w, none) ∧
      Csv.records? w.sink.contents =
        some (es.map fun e =>
          [e.time.text .millis, Text.decimal e.offset, Text.decimal e.length, e.kind] ++
            e.message.record) := by
  have herror := Writer.writeAll_none (fun _ => rfl) es (Writer.fresh .csv withOffset .empty)
  obtain ⟨-, -, -, hcontents⟩ :=
    Writer.writeAll_of_ok es (Writer.settled_fresh .csv withOffset .empty) herror
  refine ⟨_, Prod.ext rfl herror, ?_⟩
  have hlines : rendered .csv withOffset es = (es.map Entry.fields).flatMap Csv.line := by
    rw [List.flatMap_map]
    rfl
  have hfields : ∀ record ∈ es.map Entry.fields, record ≠ [] := by
    intro record hrecord
    obtain ⟨e, -, rfl⟩ := List.mem_map.1 hrecord
    nofun
  rw [hcontents, Writer.sink_fresh, Sink.contents_empty, List.nil_append]
  exact (congrArg Csv.records? hlines).trans (Csv.records?_lines hfields)

end MeterRadio.Log
