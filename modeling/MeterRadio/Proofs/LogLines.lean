/-
Module: MeterRadio.Proofs.LogLines
Purpose: A log is made of lines. In every format an entry is written as one line without control
  characters and a line feed after it, so the lines of a log are those of its entries.
Main exports: Log.line, Log.render_eq_line, Log.printable_line, Log.Lined, Log.written_in_lines
-/
import MeterRadio.Proofs.EntryXml

namespace MeterRadio

open Json

/-! ### Printable texts

An entry is one line if each of its texts is printable. That is shown from the parts upwards, and
starts with digits. -/

/-- Printable parts are printable with a printable text between them. -/
theorem Json.printable_intercalate {separator : List Char} {parts : List (List Char)}
    (hseparator : Printable separator) (hparts : ∀ part ∈ parts, Printable part) :
    Printable (separator.intercalate parts) := by
  induction parts with
  | nil => exact printable_nil
  | cons part rest ih =>
      rw [List.forall_mem_cons] at hparts
      obtain ⟨hpart, hrest⟩ := hparts
      cases rest with
      | nil =>
          rw [List.intercalate_singleton]
          exact hpart
      | cons next more =>
          rw [List.intercalate_cons_cons]
          exact printable_append (printable_append hpart hseparator) (ih hrest)

namespace Text

theorem printable_decimal (n : Nat) : Printable (decimal n).toList := by
  rw [decimal, String.toList_ofList]
  exact printable_of_isDigit (isDigit_of_mem_toDigits n)

theorem printable_zeroPadded (width n : Nat) : Printable (zeroPadded width n).toList :=
  printable_of_isDigit (isDigit_of_mem_zeroPadded width n)

theorem printable_padLeft {fill : Char} {text : String} (width : Nat) (hfill : 32 ≤ fill.toNat)
    (h : Printable text.toList) : Printable (padLeft width fill text).toList := by
  rw [padLeft, String.toList_ofList, List.leftpad]
  refine printable_append (fun c hc => ?_) h
  rw [List.eq_of_mem_replicate hc]
  exact hfill

theorem printable_padded (width n : Nat) : Printable (padded width n).toList :=
  printable_padLeft width (by decide) (printable_decimal n)

/-- What all digits of a base have the digits of every number have. -/
theorem forall_mem_toDigits {base : Nat} {P : Char → Prop} (hbase : 1 < base)
    (h : ∀ d < base, P d.digitChar) (n : Nat) : ∀ c ∈ Nat.toDigits base n, P c := by
  induction n using Nat.strongRecOn with
  | ind n ih =>
      intro c hc
      rcases Nat.lt_or_ge n base with hlt | hge
      · rw [Nat.toDigits_of_lt_base hlt, List.mem_singleton] at hc
        rw [hc]
        exact h n hlt
      · rw [Nat.toDigits_of_base_le hbase hge, List.mem_append, List.mem_singleton] at hc
        have hpos : 0 < n := Nat.lt_of_lt_of_le (Nat.zero_lt_of_lt hbase) hge
        rcases hc with hfront | rfl
        · exact ih (n / base) (Nat.div_lt_self hpos hbase) c hfront
        · exact h _ (Nat.mod_lt n (Nat.zero_lt_of_lt hbase))

theorem printable_hexadecimal (width n : Nat) : Printable (hexadecimal width n).toList := by
  have hdigits : ∀ d < 16, 32 ≤ d.digitChar.toUpper.toNat := by decide
  refine printable_padLeft width (by decide) ?_
  rw [String.toList_ofList]
  intro c hc
  obtain ⟨d, hd, rfl⟩ := List.mem_map.1 hc
  exact forall_mem_toDigits (P := fun d => 32 ≤ d.toUpper.toNat) (by decide) hdigits n d hd

end Text

theorem Bytes.printable_hexUpper (bytes : Bytes) : Printable (hexUpper bytes).toList := by
  rw [hexUpper, String.toList_ofList]
  exact printable_flatMap fun b _ => printable_hexByte (by decide) b

namespace Time.Timestamp

theorem printable_yearText (year : Int) : Printable (yearText year).toList := by
  unfold yearText
  split
  · exact Text.printable_zeroPadded 4 _
  · rw [String.toList_append]
    refine printable_append ?_ (Text.printable_zeroPadded 4 _)
    split
    · exact printable_of_all rfl
    · exact printable_of_all rfl

theorem printable_fractionText (nanos : Nat) (precision : Precision) :
    Printable (fractionText nanos precision).toList := by
  have hpoint : ∀ width count, Printable ("." ++ Text.zeroPadded width count).toList := by
    intro width count
    rw [String.toList_append]
    exact printable_append (printable_of_all rfl) (Text.printable_zeroPadded width count)
  cases precision with
  | millis => exact hpoint 3 _
  | fewest =>
      unfold fractionText
      by_cases hzero : nanos = 0
      · rw [if_pos hzero]
        exact printable_nil
      rw [if_neg hzero]
      by_cases hmillis : nanos % 1000000 = 0
      · rw [if_pos hmillis]
        exact hpoint 3 _
      rw [if_neg hmillis]
      by_cases hmicros : nanos % 1000 = 0
      · rw [if_pos hmicros]
        exact hpoint 6 _
      rw [if_neg hmicros]
      exact hpoint 9 _

/-- The text of every time is printable, in years with a sign and in leap seconds too. -/
theorem printable_text (precision : Precision) (t : Timestamp) :
    Printable (t.text precision).toList := by
  unfold text
  simp only [String.toList_append, printable_append_iff, printable_yearText,
    Text.printable_zeroPadded, printable_fractionText, true_and, and_true]
  exact ⟨⟨⟨⟨⟨printable_of_all rfl, printable_of_all rfl⟩, printable_of_all rfl⟩,
    printable_of_all rfl⟩, printable_of_all rfl⟩, printable_of_all rfl⟩

end Time.Timestamp

/-! ### Messages -/

theorem Idm.printable_bracketed (values : List Nat) : Printable (bracketed values).toList := by
  rw [bracketed, String.toList_append, String.toList_append, String.toList_intercalate]
  refine printable_append (printable_append (printable_of_all rfl) ?_) (printable_of_all rfl)
  refine printable_intercalate (printable_of_all rfl) fun part hpart => ?_
  simp only [List.map_map, List.mem_map, Function.comp_apply] at hpart
  obtain ⟨n, -, rfl⟩ := hpart
  exact Text.printable_decimal n

theorem Scm.printable_text (m : Scm) : Printable m.text.toList := by
  unfold text
  simp only [String.toList_append, printable_append_iff, Text.printable_padded,
    Text.printable_hexadecimal, and_true]
  -- the labels are left
  repeat' apply And.intro
  all_goals exact printable_of_all rfl

theorem Idm.printable_text (m : Idm) : Printable m.text.toList := by
  unfold text
  simp only [String.toList_append, printable_append_iff, Text.printable_decimal,
    Text.printable_padded, Text.printable_hexadecimal, Bytes.printable_hexUpper,
    Idm.printable_bracketed, and_true]
  repeat' apply And.intro
  all_goals exact printable_of_all rfl

/-- A number in hexadecimal as it stands in a record. -/
theorem Text.printable_prefixed (width n : Nat) :
    Printable ("0x" ++ Text.hexadecimal width n).toList := by
  rw [String.toList_append]
  exact printable_append (printable_of_all rfl) (Text.printable_hexadecimal width n)

namespace Message

theorem printable_text (m : Message) : Printable m.text.toList := by
  cases m with
  | scm m => exact m.printable_text
  | idm m => exact m.printable_text

theorem printable_kind (m : Message) : Printable m.kind.toList :=
  printable_of_isAlpha (Xml.isAlpha_of_isName m.isName_kind)

theorem printable_record (m : Message) : ∀ field ∈ m.record, Printable field.toList := by
  cases m with
  | scm m =>
      simp only [record, Scm.record, List.forall_mem_cons, Text.printable_decimal,
        Text.printable_prefixed, true_and]
      exact nofun
  | idm m =>
      simp only [record, Idm.record, List.forall_mem_append, List.forall_mem_cons,
        List.forall_mem_map, Text.printable_decimal, Text.printable_prefixed, true_and,
        implies_true]
      exact ⟨⟨nofun, trivial⟩, nofun⟩

end Message

/-! ### Elements and records -/

namespace Xml

theorem printable_escape {c : Char} (h : 32 ≤ c.toNat) : Printable (escape c) := by
  unfold escape
  repeat' split
  all_goals first | exact printable_of_all rfl | exact printable_cons h printable_nil

theorem printable_element {tag : String} {content : List Char} (htag : isName tag = true)
    (h : Printable content) : Printable (element tag content) := by
  have hname : Printable tag.toList := printable_of_isAlpha (isAlpha_of_isName htag)
  unfold element
  split
  · simp only [printable_append_iff, hname, and_true]
    exact ⟨printable_of_all rfl, printable_of_all rfl⟩
  · simp only [printable_append_iff, hname, h, and_true]
    exact ⟨⟨⟨printable_of_all rfl, printable_of_all rfl⟩, printable_of_all rfl⟩,
      printable_of_all rfl⟩

theorem printable_textElement {tag text : String} (htag : isName tag = true)
    (h : Printable text.toList) : Printable (textElement tag text) :=
  printable_element htag (printable_flatMap fun c hc => printable_escape (h c hc))

theorem printable_numberElement {tag : String} (htag : isName tag = true) (n : Nat) :
    Printable (numberElement tag n) :=
  printable_textElement htag (Text.printable_decimal n)

end Xml

theorem Message.printable_xml (m : Message) : Printable m.xml := by
  rw [xml_eq]
  exact printable_flatMap fun part hpart => printable_flatMap fun n _ =>
    Xml.printable_numberElement (m.isName_of_mem_named part hpart) n

namespace Csv

theorem printable_field {text : List Char} (h : Printable text) : Printable (field text) := by
  unfold field
  split
  · refine printable_cons (by decide) (printable_append (printable_flatMap fun c hc => ?_)
      (printable_of_all rfl))
    unfold doubled
    split
    · exact printable_of_all rfl
    · exact printable_cons (h c hc) printable_nil
  · exact h

theorem printable_joined {texts : List (List Char)} (h : ∀ text ∈ texts, Printable text) :
    Printable (joined texts) := by
  induction texts with
  | nil => exact printable_nil
  | cons text rest ih =>
      rw [List.forall_mem_cons] at h
      cases rest with
      | nil => exact printable_field h.1
      | cons next more =>
          exact printable_append (printable_field h.1) (printable_cons (by decide) (ih h.2))

end Csv

/-! ### Entries -/

namespace Log

/-- The line of an entry, without its end. -/
def line (format : Format) (withOffset : Bool) (e : Entry) : List Char :=
  match format with
  | .plain => (if withOffset then e.plain else e.withoutOffset).toList
  | .json => e.toJson.chars
  | .csv => Csv.joined (e.fields.map String.toList)
  | .xml => e.xml

/-- An entry is written as its line and one line feed, in all formats. -/
theorem render_eq_line (format : Format) (withOffset : Bool) (e : Entry) :
    render format withOffset e = line format withOffset e ++ ['\n'] := by
  cases format <;> rfl

namespace Entry

variable {e : Entry}

theorem printable_plain (hkind : Printable e.kind.toList) : Printable e.plain.toList := by
  unfold plain timeText
  simp only [String.toList_append, printable_append_iff, Time.Timestamp.printable_text,
    Text.printable_decimal, hkind, Message.printable_text, and_true]
  repeat' apply And.intro
  all_goals exact printable_of_all rfl

theorem printable_withoutOffset (hkind : Printable e.kind.toList) :
    Printable e.withoutOffset.toList := by
  unfold withoutOffset timeText
  simp only [String.toList_append, printable_append_iff, Time.Timestamp.printable_text, hkind,
    Message.printable_text, and_true]
  repeat' apply And.intro
  all_goals exact printable_of_all rfl

theorem printable_fields (hkind : Printable e.kind.toList) :
    ∀ field ∈ e.fields, Printable field.toList := by
  simp only [fields, timeText, List.forall_mem_append, List.forall_mem_cons,
    Time.Timestamp.printable_text, Text.printable_decimal, hkind, true_and]
  exact ⟨nofun, e.message.printable_record⟩

theorem printable_xml (hkind : Printable e.kind.toList) : Printable e.xml := by
  rw [xml_eq]
  refine Xml.printable_element (by decide) ?_
  unfold content
  simp only [printable_append_iff]
  exact ⟨⟨⟨⟨Xml.printable_textElement (by decide) (Time.Timestamp.printable_text _ _),
    Xml.printable_numberElement (by decide) _⟩, Xml.printable_numberElement (by decide) _⟩,
    Xml.printable_textElement (by decide) hkind⟩,
    Xml.printable_element (by decide) e.message.printable_xml⟩

end Entry

/-- Nothing in an entry breaks its line: the texts of times, numbers and messages are printable, and
a tag is escaped in JSON. In the other formats it has to be that of the message. -/
theorem printable_line {format : Format} (withOffset : Bool) {e : Entry}
    (h : format = .json ∨ e.kind = e.message.kind) : Printable (line format withOffset e) := by
  have hkind : format ≠ .json → Printable e.kind.toList := by
    intro hne
    rw [h.resolve_left hne]
    exact e.message.printable_kind
  cases format with
  | plain =>
      cases withOffset with
      | true => exact Entry.printable_plain (hkind nofun)
      | false => exact Entry.printable_withoutOffset (hkind nofun)
  | json => exact printable_chars _ (Entry.isPlain_toJson e)
  | csv =>
      refine Csv.printable_joined fun text htext => ?_
      obtain ⟨field, hfield, rfl⟩ := List.mem_map.1 htext
      exact Entry.printable_fields (hkind nofun) field hfield
  | xml => exact Entry.printable_xml (hkind nofun)

/-! ### Logs -/

theorem flatMap_ended_eq (texts : List (List Char)) :
    texts.flatMap (· ++ ['\n']) = ['\n'].intercalate (texts ++ [[]]) := by
  induction texts with
  | nil => rfl
  | cons text rest ih =>
      rw [List.flatMap_cons, ih]
      cases rest with
      | nil => simp
      | cons next more =>
          simp only [List.cons_append, List.intercalate_cons_cons]

/-- A text of lines is split at the ends of its lines, and nothing stands behind the last end. -/
theorem splitOn_flatMap_ended {texts : List (List Char)} (h : ∀ text ∈ texts, '\n' ∉ text) :
    (texts.flatMap (· ++ ['\n'])).splitOn '\n' = texts ++ [[]] := by
  rw [flatMap_ended_eq]
  refine List.splitOn_intercalate '\n' ?_ (List.append_ne_nil_of_right_ne_nil _ (by simp))
  intro text htext
  rcases List.mem_append.1 htext with hline | hlast
  · exact h text hline
  · rw [List.mem_singleton.1 hlast]
    exact List.not_mem_nil

theorem rendered_eq_lines (format : Format) (withOffset : Bool) (es : List Entry) :
    rendered format withOffset es = (es.map (line format withOffset)).flatMap (· ++ ['\n']) := by
  rw [rendered, List.flatMap_map]
  exact congrArg es.flatMap (funext (render_eq_line format withOffset))

/-- The text has one line for each entry, which is the line of that entry. -/
structure Lined (format : Format) (withOffset : Bool) (es : List Entry) (text : List Char) :
    Prop where
  ended : es ≠ [] → text.getLast? = some '\n'
  noReturn : '\r' ∉ text
  /-- Between line feeds stand the lines of the entries in order, and behind the last one
  nothing. -/
  split : text.splitOn '\n' = es.map (line format withOffset) ++ [[]]

/-- The entries of any log are told apart by its line ends. -/
theorem lined_rendered {format : Format} (withOffset : Bool) {es : List Entry}
    (h : ∀ e ∈ es, format = .json ∨ e.kind = e.message.kind) :
    Lined format withOffset es (rendered format withOffset es) where
  ended hsome := by
    rw [← List.dropLast_concat_getLast hsome, rendered_append, rendered_cons, rendered_nil,
      render_eq_line]
    simp
  noReturn := by
    intro hreturn
    obtain ⟨e, he, hmem⟩ := List.mem_flatMap.1 hreturn
    rw [render_eq_line, List.mem_append] at hmem
    rcases hmem with hline | hend
    · exact (printable_line withOffset (h e he)).not_mem_return hline
    · exact absurd (List.mem_singleton.1 hend) (by decide)
  split := by
    rw [rendered_eq_lines]
    refine splitOn_flatMap_ended fun text htext => ?_
    obtain ⟨e, he, rfl⟩ := List.mem_map.1 htext
    exact (printable_line withOffset (h e he)).not_mem_newline

/-- A log of entries in front of a working sink is one line for each entry, in order: the line that
the entry comes to if it is written alone. In JSON the tags may be any text; in the other formats
they are those of the messages. -/
theorem written_in_lines (format : Format) (withOffset : Bool) {es : List Entry}
    (h : ∀ e ∈ es, format = .json ∨ e.kind = e.message.kind) :
    let fresh := Writer.fresh format withOffset .empty
    let written := fresh.writeAll (fun _ => Sink.Faults.none) es
    written.2 = none ∧
      Lined format withOffset es written.1.sink.contents ∧
      (written.1.close Sink.Faults.none).contents = written.1.sink.contents ∧
      ∀ e, (fresh.write Sink.Faults.none e).2 = none ∧
        (fresh.write Sink.Faults.none e).1.sink.contents = line format withOffset e ++ ['\n'] := by
  intro fresh written
  have hworking : ∀ sink : Sink Char, (fun _ => Sink.Faults.none) sink = .none := fun _ => rfl
  have hfresh : fresh.Settled := Writer.settled_fresh format withOffset .empty
  have hok : written.2 = none := Writer.writeAll_none hworking es fresh
  obtain ⟨hsettled, -⟩ := Writer.writeAll_of_ok es hfresh hok
  refine ⟨hok, ?_, ?_, fun e => ?_⟩
  · have hcontents : written.1.sink.contents = _ :=
      Writer.contents_of_fresh hworking format withOffset es
    rw [hcontents]
    exact lined_rendered withOffset h
  · rw [Writer.contents_close, hsettled.held_eq]
    simp
  · have hone := Writer.write_none fresh e
    refine ⟨hone, ?_⟩
    rw [(Writer.write_of_ok hfresh hone).2, ← render_eq_line, Writer.sink_fresh]
    rfl

/-- A JSON log of two entries, the first of which has line breaks in its tag, and a log of
comma-separated records of the second. -/
theorem lastEntries_in_lines :
    '\n' ∈ lastEntry.kind.toList ∧ lastReceived.kind = lastReceived.message.kind ∧
      Lined .json true [lastEntry, lastReceived]
        ((Writer.fresh .json true .empty).writeAll (fun _ => Sink.Faults.none)
          [lastEntry, lastReceived]).1.sink.contents ∧
      Lined .csv false [lastReceived, lastReceived]
        ((Writer.fresh .csv false .empty).writeAll (fun _ => Sink.Faults.none)
          [lastReceived, lastReceived]).1.sink.contents := by
  have hany : ∀ e ∈ [lastEntry, lastReceived], Format.json = .json ∨ e.kind = e.message.kind :=
    fun e he => .inl rfl
  have hkind : ∀ e ∈ [lastReceived, lastReceived],
      Format.csv = .json ∨ e.kind = e.message.kind := by
    intro e he
    obtain rfl : e = lastReceived := by simpa using he
    exact .inr rfl
  obtain ⟨-, hjson, -⟩ := written_in_lines .json true hany
  obtain ⟨-, hcsv, -⟩ := written_in_lines .csv false hkind
  exact ⟨by decide, rfl, hjson, hcsv⟩

end Log
end MeterRadio
