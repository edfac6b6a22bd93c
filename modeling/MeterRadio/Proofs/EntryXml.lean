/-
Module: MeterRadio.Proofs.EntryXml
Purpose: Log entries of received packets survive their XML lines: what the log writer writes is one
  line, and it is read as the entry that was written by a reader who knows the kind of message.
Main exports: Message.named, Message.Listed, Message.reads_xml, Message.ofXml?_nodes,
  Log.Entry.ofXml?_nodes, Log.xml_line_read_back
-/
import MeterRadio.Proofs.ErrorDetection
import MeterRadio.Proofs.PacketEncoding
import MeterRadio.Proofs.XmlFields
import MeterRadio.Protocol

namespace MeterRadio

/-! ### Messages

A message is taken for the list of its fields, names with numbers. What is written for it, the
elements that this makes and what is read from them are all told from that list. -/

/-- The fields of a standard consumption message, each with its number. -/
def Scm.named (m : Scm) : List (String × List Nat) :=
  [("ID", [m.id.toNat]), ("Type", [m.ertType.toNat]), ("TamperPhy", [m.tamperPhy.toNat]),
    ("TamperEnc", [m.tamperEnc.toNat]), ("Consumption", [m.consumption.toNat]),
    ("ChecksumVal", [m.checksum.toNat])]

/-- The fields of an interval data message, each with its number or its numbers. -/
def Idm.named (m : Idm) : List (String × List Nat) :=
  [("PacketTypeID", [m.packetTypeId.toNat]), ("PacketLength", [m.packetLength.toNat]),
    ("HammingCode", [m.hammingCode.toNat]), ("ApplicationVersion", [m.applicationVersion.toNat]),
    ("ERTType", [m.ertType.toNat]), ("ERTSerialNumber", [m.serialNumber.toNat]),
    ("ConsumptionIntervalCount", [m.intervalCount.toNat]),
    ("ModuleProgrammingState", [m.programmingState.toNat]),
    ("TamperCounters", m.tamperCounters.map UInt8.toNat),
    ("AsynchronousCounters", [m.asynchronousCounters.toNat]),
    ("PowerOutageFlags", m.powerOutageFlags.map UInt8.toNat),
    ("LastConsumptionCount", [m.lastConsumption.toNat]),
    ("DifferentialConsumptionIntervals", m.intervals.map UInt16.toNat),
    ("TransmitTimeOffset", [m.transmitTimeOffset.toNat]),
    ("SerialNumberCRC", [m.serialNumberCrc.toNat]), ("PacketCRC", [m.packetCrc.toNat])]

/-- The lists of a message have numbers in them. A list without any leaves no element behind. -/
structure Idm.Listed (m : Idm) : Prop where
  tamperCounters : m.tamperCounters ≠ []
  powerOutageFlags : m.powerOutageFlags ≠ []
  intervals : m.intervals ≠ []

theorem Scm.named_nodup (m : Scm) : (m.named.map Prod.fst).Nodup := Log.scmNames_nodup

theorem Idm.named_nodup (m : Idm) : (m.named.map Prod.fst).Nodup := Log.idmNames_nodup

namespace Message

/-- The fields of a message, each with its number or its numbers. -/
def named : Message → List (String × List Nat)
  | .scm m => m.named
  | .idm m => m.named

/-- The fields that are lists. -/
def listNames : Message → List String
  | .scm _ => []
  | .idm _ => Idm.listNames

/-- No list of the message is empty. -/
def Listed : Message → Prop
  | .scm _ => True
  | .idm m => m.Listed

/-- The elements of a message. -/
def nodes (m : Message) : List Xml.Node := (m.named.map Xml.numberField).flatMap Prod.snd

theorem named_nodup (m : Message) : (m.named.map Prod.fst).Nodup := by
  cases m with
  | scm m => exact m.named_nodup
  | idm m => exact m.named_nodup

theorem isName_kind (m : Message) : Xml.isName m.kind = true := by
  have hscm : Xml.isName Scm.kind = true := by decide
  have hidm : Xml.isName Idm.kind = true := by decide
  cases m with
  | scm m => exact hscm
  | idm m => exact hidm

theorem isName_of_mem_named (m : Message) : ∀ part ∈ m.named, Xml.isName part.1 = true := by
  have hnames : ∀ name ∈ m.named.map Prod.fst, Xml.isName name = true := by
    have hscm : ∀ name ∈ Log.scmNames, Xml.isName name = true := by decide
    have hidm : ∀ name ∈ Log.idmNames, Xml.isName name = true := by decide
    cases m with
    | scm m => exact hscm
    | idm m => exact hidm
  exact fun part hpart => hnames part.1 (List.mem_map_of_mem hpart)

theorem xml_eq (m : Message) :
    m.xml = m.named.flatMap fun part => Xml.numberElements part.1 part.2 := by
  cases m with
  | scm m => simp [xml, Scm.xml, named, Scm.named, Xml.numberElements]
  | idm m => simp [xml, Idm.xml, named, Idm.named, Xml.numberElements]

theorem xml_ne_nil (m : Message) : m.xml ≠ [] := by
  cases m with
  | scm m => simp [xml, Scm.xml, Xml.numberElement, Xml.textElement, Xml.element_ne_nil]
  | idm m => simp [xml, Idm.xml, Xml.numberElement, Xml.textElement, Xml.element_ne_nil]

/-- Every message is written as elements, which are read as its nodes. -/
theorem reads_xml (m : Message) : Xml.Reads m.xml m.nodes := by
  rw [xml_eq]
  exact Xml.reads_numbers m.isName_of_mem_named

theorem run_of_mem_named {m : Message} (h : m.Listed) :
    ∀ field ∈ m.named.map Xml.numberField, Xml.Run m.listNames field := by
  intro field hfield
  obtain ⟨part, hpart, rfl⟩ := List.mem_map.1 hfield
  have hcounted : part.2 ≠ [] ∧ (part.1 ∉ m.listNames → part.2.length = 1) := by
    revert part
    cases m with
    | scm m => simp [named, Scm.named]
    | idm m =>
        simp [named, Idm.named, listNames, Idm.listNames, h.tamperCounters, h.powerOutageFlags,
          h.intervals]
  exact Xml.run_numberField (m.isName_of_mem_named part hpart) hcounted.1 hcounted.2

/-- In a message there are elements and no texts. -/
theorem isBroken_of_mem_nodes {m : Message} (h : m.Listed) :
    ∀ node ∈ m.nodes, Xml.isBroken node = false := by
  intro node hnode
  obtain ⟨field, hfield, hmem⟩ := List.mem_flatMap.1 hnode
  obtain ⟨content, rfl, -⟩ := (run_of_mem_named h field hfield).elements node hmem
  rfl

theorem fields?_nodes {m : Message} (h : m.Listed) (tag : String) :
    (Xml.Node.element tag true m.nodes).fields? m.listNames =
      some (m.named.map Xml.numberField) := by
  refine Xml.fields?_runs tag (run_of_mem_named h) ?_
  rw [Xml.map_fst_numberField]
  exact m.named_nodup

end Message

/-- The words of each size that are fields of a message, where its fields have distinct names. -/
theorem Xml.words_of_named {parts : List (String × List Nat)}
    (hdistinct : (parts.map Prod.fst).Nodup) :
    (∀ (k : Nat) {name : String} {b : UInt8}, parts[k]? = some (name, [b.toNat]) →
      byte? (parts.map numberField) name = some b) ∧
    (∀ (k : Nat) {name : String} {h : UInt16}, parts[k]? = some (name, [h.toNat]) →
      short? (parts.map numberField) name = some h) ∧
    ∀ (k : Nat) {name : String} {w : UInt32}, parts[k]? = some (name, [w.toNat]) →
      word? (parts.map numberField) name = some w :=
  ⟨word_of_getElem? (fun b => Nat.le_of_lt_succ b.toNat_lt) hdistinct fun _ => UInt8.ofNat_toNat,
    word_of_getElem? (fun h => Nat.le_of_lt_succ h.toNat_lt) hdistinct fun _ => UInt16.ofNat_toNat,
    word_of_getElem? (fun w => Nat.le_of_lt_succ w.toNat_lt) hdistinct fun _ => UInt32.ofNat_toNat⟩

theorem Scm.ofXml?_nodes (m : Scm) (tag : String) :
    Scm.ofXml? (.element tag true (Message.nodes (.scm m))) = some m := by
  have hfields : (Xml.Node.element tag true (Message.nodes (.scm m))).fields? [] =
      some (m.named.map Xml.numberField) :=
    Message.fields?_nodes (m := .scm m) trivial tag
  obtain ⟨hbyte, hshort, hword⟩ := Xml.words_of_named m.named_nodup
  rw [ofXml?]
  refine Option.bind_eq_some_iff.2 ⟨_, hfields, ?_⟩
  simp only [hword 0 rfl, hbyte 1 rfl, hbyte 2 rfl, hbyte 3 rfl, hword 4 rfl,
    hshort 5 rfl, Option.bind_eq_bind, Option.bind_some]
  rfl

theorem Idm.ofXml?_nodes {m : Idm} (h : m.Listed) (tag : String) :
    Idm.ofXml? (.element tag true (Message.nodes (.idm m))) = some m := by
  have hfields : (Xml.Node.element tag true (Message.nodes (.idm m))).fields? Idm.listNames =
      some (m.named.map Xml.numberField) :=
    Message.fields?_nodes (m := .idm m) h tag
  obtain ⟨hbyte, hshort, hword⟩ := Xml.words_of_named m.named_nodup
  have hbytes := Xml.words_of_getElem? (fun b : UInt8 => Nat.le_of_lt_succ b.toNat_lt) m.named_nodup
  have hshorts :=
    Xml.words_of_getElem? (fun h : UInt16 => Nat.le_of_lt_succ h.toNat_lt) m.named_nodup
  have hbyteBack : UInt8.ofNat ∘ UInt8.toNat = id := funext fun _ => UInt8.ofNat_toNat
  have hshortBack : UInt16.ofNat ∘ UInt16.toNat = id := funext fun _ => UInt16.ofNat_toNat
  rw [ofXml?]
  refine Option.bind_eq_some_iff.2 ⟨_, hfields, ?_⟩
  simp only [hbyte 0 rfl, hbyte 1 rfl, hbyte 2 rfl, hbyte 3 rfl, hbyte 4 rfl, hword 5 rfl,
    hbyte 6 rfl, hbyte 7 rfl, hbytes 8 rfl, hshort 9 rfl, hbytes 10 rfl, hword 11 rfl,
    hshorts 12 rfl, hshort 13 rfl, hshort 14 rfl, hshort 15 rfl, Option.bind_eq_bind,
    Option.bind_some, List.map_map, hbyteBack, hshortBack, List.map_id]
  rfl

namespace Message

/-- A message is read back from its nodes by a reader who knows its kind. -/
theorem ofXml?_nodes {m : Message} (h : m.Listed) (tag : String) :
    ofXml? m.shape (.element tag true m.nodes) = some m := by
  cases m with
  | scm m =>
      rw [shape, ofXml?, m.ofXml?_nodes]
      rfl
  | idm m =>
      rw [shape, ofXml?, Idm.ofXml?_nodes h]
      rfl

theorem exists_of_map_ok {ε α β : Type} {x : Except ε α} {f : α → β} {b : β}
    (h : x.map f = .ok b) : ∃ a, x = .ok a ∧ f a = b := by
  cases x with
  | error e => cases h
  | ok a =>
      cases h
      exact ⟨a, rfl, rfl⟩

/-- The lists of an accepted packet are as long as it has room for. -/
theorem listed_of_read {protocol : Protocol} {packet : Bytes} {m : Message}
    (h : protocol.read packet = .ok m) : m.Listed := by
  cases protocol with
  | scm =>
      obtain ⟨message, -, rfl⟩ := exists_of_map_ok h
      exact trivial
  | idm =>
      obtain ⟨message, hpacket, rfl⟩ := exists_of_map_ok h
      obtain ⟨-, hrange, -, -⟩ := Idm.ofPacket_ok_iff.1 hpacket
      exact ⟨List.ne_nil_of_length_eq_add_one hrange.tamperCounters,
        List.ne_nil_of_length_eq_add_one hrange.powerOutageFlags,
        List.ne_nil_of_length_eq_add_one hrange.intervals⟩

end Message

/-! ### Times -/

namespace Time.Timestamp

theorem all_visible_zeroPadded (width n : Nat) :
    (Text.zeroPadded width n).toList.all (fun c => !Xml.isSpace c) = true := by
  rw [List.all_eq_true]
  intro c hc
  rw [Xml.isSpace_of_isDigit (Text.isDigit_of_mem_zeroPadded width n c hc)]
  rfl

theorem all_visible_fractionText (n : Nat) :
    (fractionText n .fewest).toList.all (fun c => !Xml.isSpace c) = true := by
  have hpoint : ∀ width count,
      ("." ++ Text.zeroPadded width count).toList.all (fun c => !Xml.isSpace c) = true := by
    intro width count
    rw [String.toList_append, List.all_append, all_visible_zeroPadded]
    rfl
  unfold fractionText
  by_cases hzero : n = 0
  · rw [if_pos hzero]
    rfl
  rw [if_neg hzero]
  by_cases hmillis : n % 1000000 = 0
  · rw [if_pos hmillis]
    exact hpoint _ _
  rw [if_neg hmillis]
  by_cases hmicros : n % 1000 = 0
  · rw [if_pos hmicros]
    exact hpoint _ _
  rw [if_neg hmicros]
  exact hpoint _ _

theorem solid_text {t : Timestamp} (hfirst : 0 ≤ t.date.year) (hlast : t.date.year ≤ 9999) :
    Xml.Solid (t.text .fewest).toList := by
  have htext := toList_text hfirst hlast
  have hall : (t.text .fewest).toList.all (fun c => !Xml.isSpace c) = true := by
    rw [htext]
    simp only [List.all_append, List.all_cons, List.all_nil, all_visible_zeroPadded,
      all_visible_fractionText]
    decide
  refine ⟨fun hnil => ?_, fun c hc => ?_⟩
  · rw [htext, List.append_eq_nil_iff] at hnil
    cases hnil.2
  · have hc := List.all_eq_true.1 hall c hc
    rwa [Bool.not_eq_true'] at hc

end Time.Timestamp

/-! ### Entries -/

namespace Log

namespace Entry

/-- What is written between the tags of an entry. -/
def content (e : Entry) : List Char :=
  Xml.textElement "Time" (e.time.text .fewest) ++ Xml.numberElement "Offset" e.offset
    ++ Xml.numberElement "Length" e.length ++ Xml.textElement "Type" e.kind
    ++ Xml.element "Message" e.message.xml

theorem xml_eq (e : Entry) : e.xml = Xml.element "LogMessage" e.content := rfl

/-- The fields of an entry, each with its element. -/
def named (e : Entry) : List (String × List Xml.Node) :=
  [("Time", [Xml.leaf "Time" (e.time.text .fewest)]),
    ("Offset", [Xml.leaf "Offset" (Text.decimal e.offset)]),
    ("Length", [Xml.leaf "Length" (Text.decimal e.length)]), ("Type", [Xml.leaf "Type" e.kind]),
    ("Message", [.element "Message" true e.message.nodes])]

/-- The elements of an entry. -/
def nodes (e : Entry) : List Xml.Node := e.named.flatMap Prod.snd

theorem named_nodup (e : Entry) : (e.named.map Prod.fst).Nodup := entryNames_nodup

variable {e : Entry}

theorem content_ne_nil (e : Entry) : e.content ≠ [] := by
  rw [content]
  exact List.append_ne_nil_of_right_ne_nil _ (Xml.element_ne_nil _ _)

theorem reads_content (htime : Xml.Solid (e.time.text .fewest).toList)
    (hkind : Xml.Solid e.kind.toList) : Xml.Reads e.content e.nodes := by
  have htimeRead : Xml.Reads (Xml.textElement "Time" (e.time.text .fewest)) _ :=
    Xml.reads_textElement (by decide) htime
  have hoffset : Xml.Reads (Xml.numberElement "Offset" e.offset) _ :=
    Xml.reads_textElement (by decide) (Xml.solid_decimal e.offset)
  have hlength : Xml.Reads (Xml.numberElement "Length" e.length) _ :=
    Xml.reads_textElement (by decide) (Xml.solid_decimal e.length)
  have hkindRead : Xml.Reads (Xml.textElement "Type" e.kind) _ :=
    Xml.reads_textElement (by decide) hkind
  have hmessage : Xml.Reads (Xml.element "Message" e.message.xml) _ :=
    Xml.reads_element (by decide) e.message.xml_ne_nil e.message.reads_xml
  exact (((htimeRead.append hoffset).append hlength).append hkindRead).append hmessage

theorem run_of_mem_named (h : e.message.Listed) : ∀ field ∈ e.named, Xml.Run [] field := by
  have hone : ∀ tag content, Xml.isName tag = true →
      Xml.startsBroken (.element tag true content) = false →
        Xml.Run [] (tag, [.element tag true content]) := by
    intro tag content htag hsound
    refine ⟨htag, List.cons_ne_nil _ _, fun _ => rfl, fun node hnode => ?_⟩
    obtain rfl := List.mem_singleton.1 hnode
    exact ⟨_, rfl, hsound⟩
  have hmessage : Xml.startsBroken (.element "Message" true e.message.nodes) = false := by
    have hunbroken := Message.isBroken_of_mem_nodes h
    rw [Xml.startsBroken]
    cases hnodes : e.message.nodes with
    | nil => rfl
    | cons node rest => exact hunbroken node (by rw [hnodes]; exact List.mem_cons_self)
  simp only [named, List.forall_mem_cons]
  exact ⟨hone _ _ (by decide) rfl, hone _ _ (by decide) rfl, hone _ _ (by decide) rfl,
    hone _ _ (by decide) rfl, hone _ _ (by decide) hmessage, nofun⟩

/-- An entry is read from its elements, in an element of any name. -/
theorem ofXml?_nodes (hoffset : e.offset < 2 ^ 64) (hlength : e.length < 2 ^ 64)
    (htime : Time.Timestamp.ofText? (e.time.text .fewest) = some e.time)
    (hmessage : e.message.Listed) (tag : String) :
    ofXml? e.message.shape (.element tag true e.nodes) = some e := by
  have hfield := Xml.field?_of_getElem? e.named_nodup
  have htimeText : Xml.text? e.named "Time" = some (e.time.text .fewest) := by
    rw [Xml.text?, hfield 0 rfl]
    rfl
  have hoffsetRead : Xml.number? 0xFFFFFFFFFFFFFFFF e.named "Offset" = some e.offset := by
    rw [Xml.number?, hfield 1 rfl]
    exact Xml.natural?_leaf (Nat.le_of_lt_succ hoffset) "Offset"
  have hlengthRead : Xml.number? 0xFFFFFFFFFFFFFFFF e.named "Length" = some e.length := by
    rw [Xml.number?, hfield 2 rfl]
    exact Xml.natural?_leaf (Nat.le_of_lt_succ hlength) "Length"
  have hkind : Xml.text? e.named "Type" = some e.kind := by
    rw [Xml.text?, hfield 3 rfl]
    rfl
  have hfields := Xml.fields?_runs tag (run_of_mem_named hmessage) e.named_nodup
  rw [ofXml?]
  refine Option.bind_eq_some_iff.2 ⟨_, hfields, ?_⟩
  simp only [htimeText, htime, hoffsetRead, hlengthRead, hkind, hfield 4 rfl,
    Message.ofXml?_nodes hmessage, Option.bind_eq_bind, Option.bind_some]
  rfl

end Entry

/-- The line of an XML log that is written for the message of an accepted packet has no line break
inside, and it is read as the entry it was written for by a reader of such messages: with its time,
its place in the samples, its tag and all fields of its message, the lists as long as they were and
in their order. -/
theorem xml_line_read_back (withOffset : Bool) (sink : Sink Char) {protocol : Protocol}
    {packet : Bytes} {m : Message} {time : Time.Timestamp} {offset length : Nat}
    (hread : protocol.read packet = .ok m) (hoffset : offset < 2 ^ 64) (hlength : length < 2 ^ 64)
    (hnanos : time.nanos < Time.Timestamp.perSecond) (hfirst : 0 ≤ time.date.year)
    (hlast : time.date.year ≤ 9999) :
    ∃ line : List Char, '\n' ∉ line ∧
      ((Writer.fresh .xml withOffset sink).write Sink.Faults.none
        (.ofMessage time offset length m)).2 = none ∧
      ((Writer.fresh .xml withOffset sink).write Sink.Faults.none
        (.ofMessage time offset length m)).1.sink.contents =
          sink.contents ++ (line ++ ['\n']) ∧
      (Xml.parse? (String.ofList line)).bind (Entry.ofXml? m.shape) =
        some (.ofMessage time offset length m) := by
  have hok :=
    Writer.write_none (Writer.fresh .xml withOffset sink) (.ofMessage time offset length m)
  have hwritten := (Writer.write_of_ok (Writer.settled_fresh .xml withOffset sink) hok).2
  have hcontent := Entry.reads_content (e := .ofMessage time offset length m)
    (Time.Timestamp.solid_text hfirst hlast) (Xml.solid_of_isName m.isName_kind)
  have hentry := Entry.ofXml?_nodes (e := .ofMessage time offset length m) hoffset hlength
    (Time.Timestamp.ofText?_text hnanos hfirst hlast) (Message.listed_of_read hread) "LogMessage"
  have hname : Xml.isName "LogMessage" = true := by decide
  have hsome := (Entry.ofMessage time offset length m).content_ne_nil
  refine ⟨(Entry.ofMessage time offset length m).xml, ?_, hok, ?_, ?_⟩
  · exact Xml.element_unbroken hname hsome hcontent.unbroken
  · rw [hwritten, Writer.sink_fresh]
    rfl
  · rw [Entry.xml_eq, Xml.parse?_element hname hsome hcontent, Option.bind_some]
    exact hentry

/-- An interval data message received in the last nanosecond of the years with four digits, with the
greatest place and length. -/
def lastReceived : Entry :=
  .ofMessage ⟨253402300799, 999999999⟩ 18446744073709551615 18446744073709551615
    (.idm (Idm.fields (Idm.soundPacket [0x55, 0x55, 0x16, 0xA3])))

theorem lastReceived_read_back :
    Protocol.idm.read (Idm.soundPacket [0x55, 0x55, 0x16, 0xA3]) = .ok lastReceived.message ∧
      lastReceived.offset < 2 ^ 64 ∧ lastReceived.length < 2 ^ 64 ∧
      lastReceived.time.nanos < Time.Timestamp.perSecond ∧ lastReceived.time.date.year = 9999 ∧
      ∃ line : List Char, '\n' ∉ line ∧
        ((Writer.fresh .xml true .empty).write Sink.Faults.none lastReceived).2 = none ∧
        ((Writer.fresh .xml true .empty).write Sink.Faults.none lastReceived).1.sink.contents =
          line ++ ['\n'] ∧
        (Xml.parse? (String.ofList line)).bind (Entry.ofXml? .idm) = some lastReceived := by
  have hread : Protocol.idm.read (Idm.soundPacket [0x55, 0x55, 0x16, 0xA3]) =
      .ok lastReceived.message := by
    rw [Protocol.read, Idm.ofPacket_soundPacket rfl]
    rfl
  exact ⟨hread, by decide, by decide, by decide, by decide,
    xml_line_read_back true .empty hread (by decide) (by decide) (by decide) (by decide)
      (by decide)⟩

end Log
end MeterRadio
