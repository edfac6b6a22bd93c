/-
Module: MeterRadio.Proofs.EntryJson
Purpose: Log entries survive their JSON lines: what the log writer writes is one line, and it is
  read as the entry that was written, whether its kind of message is known or not.
Main exports: Json.record?_record, Message.ofJson?_toJson, Log.Entry.ofJson?_toJson,
  Log.json_line_read_back
-/
import MeterRadio.Proofs.JsonText
import MeterRadio.Proofs.LogWriting
import MeterRadio.Proofs.TimestampText

namespace MeterRadio

/-- Among pairs with distinct keys, one has the key that is looked for. -/
theorem filter_key_eq_singleton {κ β : Type} [BEq κ] [LawfulBEq κ] {pairs : List (κ × β)} {key : κ}
    {value : β} (hdistinct : (pairs.map Prod.fst).Nodup) (h : (key, value) ∈ pairs) :
    pairs.filter (fun p => p.1 == key) = [(key, value)] := by
  induction pairs with
  | nil => cases h
  | cons pair rest ih =>
      rw [List.map_cons, List.nodup_cons] at hdistinct
      rw [List.filter_cons]
      rcases List.mem_cons.1 h with rfl | hrest
      · have hnone : rest.filter (fun p => p.1 == key) = [] := by
          rw [List.filter_eq_nil_iff]
          intro p hp heq
          have hmem := List.mem_map_of_mem (f := Prod.fst) hp
          rw [eq_of_beq heq] at hmem
          exact hdistinct.1 hmem
        rw [if_pos (beq_self_eq_true key), hnone]
      · have hother : ¬ (pair.1 == key) = true := by
          intro heq
          have hmem := List.mem_map_of_mem (f := Prod.fst) hrest
          rw [← eq_of_beq heq] at hmem
          exact hdistinct.1 hmem
        rw [if_neg hother, ih hdistinct.2 hrest]

namespace Json

/-! ### Fields of a record -/

section Record

variable {members : List (String × Json)} {name : String} {value : Json}

theorem filter_name_eq_nil (h : name ∉ members.map Prod.fst) :
    (members.map fun m => (some m.1, m.2)).filter (fun m => m.1 == some name) = [] := by
  rw [List.filter_eq_nil_iff]
  intro m hm
  rcases List.mem_map.1 hm with ⟨member, hmember, rfl⟩
  intro heq
  have hname : member.1 = name := Option.some.inj (eq_of_beq heq)
  exact h (hname ▸ List.mem_map_of_mem hmember)

theorem only?_record (hdistinct : (members.map Prod.fst).Nodup) (h : (name, value) ∈ members) :
    only? name (members.map fun m => (some m.1, m.2)) = some value := by
  have hkeys : ((members.map fun m => (some m.1, m.2)).map Prod.fst).Nodup := by
    rw [List.map_map]
    exact List.pairwise_map.2 ((List.pairwise_map.1 hdistinct).imp fun hne heq =>
      hne (Option.some.inj heq))
  have hmem : (some name, value) ∈ members.map fun m => (some m.1, m.2) :=
    List.mem_map_of_mem (f := fun m : String × Json => (some m.1, m.2)) h
  rw [only?, filter_key_eq_singleton hkeys hmem]

theorem mapM_eq_some {α β : Type} {f : α → Option β} {g : α → β} {xs : List α}
    (h : ∀ x ∈ xs, f x = some (g x)) : xs.mapM f = some (xs.map g) := by
  induction xs with
  | nil => rfl
  | cons x xs ih =>
      rw [List.mapM_cons, h x List.mem_cons_self, ih fun y hy => h y (List.mem_cons_of_mem x hy)]
      rfl

/-- A record of distinct names gives back the values of all its fields. -/
theorem record?_record {names : List String} (hnames : members.map Prod.fst = names)
    (hdistinct : names.Nodup) :
    (record members).record? names = some (members.map Prod.snd) := by
  subst hnames
  have hreadable : (members.map fun m => (some m.1, m.2)).all (fun m => m.1.isSome) = true := by
    rw [List.all_eq_true]
    intro m hm
    rcases List.mem_map.1 hm with ⟨member, -, rfl⟩
    rfl
  rw [record, record?, if_pos hreadable, List.mapM_map]
  exact mapM_eq_some fun m hm => only?_record hdistinct hm

/-- A record is not read as one that has a field more. -/
theorem record?_eq_none {names : List String} (hname : name ∈ names)
    (h : name ∉ members.map Prod.fst) : (record members).record? names = none := by
  have hnone : only? name (members.map fun m => (some m.1, m.2)) = none := by
    rw [only?, filter_name_eq_nil h]
  rw [record, record?]
  split
  · induction names with
    | nil => cases hname
    | cons n names ih =>
        rw [List.mapM_cons]
        rcases List.mem_cons.1 hname with rfl | hrest
        · rw [hnone]
          rfl
        · rw [ih hrest]
          cases only? n (members.map fun m => (some m.1, m.2)) <;> rfl
  · rfl

end Record

/-! ### Numbers -/

theorem natural?_natural {limit n : Nat} (h : n ≤ limit) :
    (natural n).natural? limit = some n := if_pos h

/-- A word is read back from its number in the limit of its type. -/
theorem natural?_word {W : Type} {toNat : W → Nat} {ofNat : Nat → W} {limit : Nat}
    (hlimit : ∀ w, toNat w ≤ limit) (hback : ∀ w, ofNat (toNat w) = w) (w : W) :
    ((natural (toNat w)).natural? limit).map ofNat = some w := by
  rw [natural?_natural (hlimit w), Option.map_some, hback]

@[simp] theorem byte?_natural (b : UInt8) : byte? (.natural b.toNat) = some b :=
  natural?_word (fun b => Nat.le_of_lt_succ b.toNat_lt) (fun _ => UInt8.ofNat_toNat) b

@[simp] theorem short?_natural (s : UInt16) : short? (.natural s.toNat) = some s :=
  natural?_word (fun s => Nat.le_of_lt_succ s.toNat_lt) (fun _ => UInt16.ofNat_toNat) s

@[simp] theorem word?_natural (w : UInt32) : word? (.natural w.toNat) = some w :=
  natural?_word (fun w => Nat.le_of_lt_succ w.toNat_lt) (fun _ => UInt32.ofNat_toNat) w

theorem list?_naturals {α : Type} {item? : Json → Option α} {code : α → Nat}
    (h : ∀ a, item? (.natural (code a)) = some a) (values : List α) :
    (naturals (values.map code)).list? item? = some values := by
  have hitems : (values.map fun a => natural (code a)).mapM item? = some values := by
    rw [List.mapM_map]
    exact (mapM_eq_some fun a _ => h a).trans (by rw [List.map_id'])
  rw [naturals, list?, items?, List.map_map]
  exact hitems

/-! ### What is written is plain, faithful and flat

A plain value is read back from its text. To find the kind of a message that is not known, the
reader also wants it to be faithful, and not too deep. Whatever is written is all three. -/

theorem isPlain_record (members : List (String × Json)) :
    (record members).isPlain = members.all fun m => m.2.isPlain := by
  rw [record, isPlain]
  induction members with
  | nil => rfl
  | cons m rest ih => rw [List.map_cons, membersPlain, ih, List.all_cons, Option.isSome_some,
      Bool.true_and]

@[simp] theorem isPlain_naturals (values : List Nat) : (naturals values).isPlain = true := by
  rw [naturals, isPlain]
  induction values with
  | nil => rfl
  | cons n rest ih => rw [List.map_cons, itemsPlain, ih, isPlain, Bool.and_self]

theorem isFaithful_record (members : List (String × Json)) :
    (record members).isFaithful = members.all fun m => m.2.isFaithful := by
  rw [record, isFaithful]
  induction members with
  | nil => rfl
  | cons m rest ih => rw [List.map_cons, membersFaithful, ih, List.all_cons, Option.isSome_some,
      Bool.true_and]

theorem isFaithful_natural {n : Nat} (h : n < 2 ^ 64) : (natural n).isFaithful = true := by
  have hword : n ≤ Scaled.maxSignificand := Nat.le_of_lt_succ h
  rw [isFaithful, decide_eq_true hword, Bool.true_or]

theorem isFaithful_naturals {values : List Nat} (h : ∀ n ∈ values, n < 2 ^ 64) :
    (naturals values).isFaithful = true := by
  rw [naturals, isFaithful]
  induction values with
  | nil => rfl
  | cons n rest ih =>
      rw [List.map_cons, itemsFaithful, isFaithful_natural (h n List.mem_cons_self),
        ih fun k hk => h k (List.mem_cons_of_mem n hk), Bool.and_self]

@[simp] theorem isFaithful_byte (b : UInt8) : (natural b.toNat).isFaithful = true :=
  isFaithful_natural (b.toNat_lt.trans (by decide))

@[simp] theorem isFaithful_short (s : UInt16) : (natural s.toNat).isFaithful = true :=
  isFaithful_natural (s.toNat_lt.trans (by decide))

@[simp] theorem isFaithful_word (w : UInt32) : (natural w.toNat).isFaithful = true :=
  isFaithful_natural (w.toNat_lt.trans (by decide))

theorem isFaithful_words {W : Type} {toNat : W → Nat} (h : ∀ w, toNat w < 2 ^ 64)
    (words : List W) : (naturals (words.map toNat)).isFaithful = true := by
  refine isFaithful_naturals fun n hn => ?_
  rcases List.mem_map.1 hn with ⟨w, -, rfl⟩
  exact h w

@[simp] theorem isFaithful_bytes (bytes : List UInt8) :
    (naturals (bytes.map UInt8.toNat)).isFaithful = true :=
  isFaithful_words (fun b => b.toNat_lt.trans (by decide)) bytes

@[simp] theorem isFaithful_shorts (shorts : List UInt16) :
    (naturals (shorts.map UInt16.toNat)).isFaithful = true :=
  isFaithful_words (fun s => s.toNat_lt.trans (by decide)) shorts

theorem depth_record_le {members : List (String × Json)} (bound : Nat)
    (h : ∀ m ∈ members, depth m.2 ≤ bound) : (record members).depth ≤ 1 + bound := by
  rw [record, depth]
  refine Nat.add_le_add_left ?_ 1
  induction members with
  | nil => exact Nat.zero_le bound
  | cons m rest ih =>
      rw [List.map_cons, memberDepth]
      exact Nat.max_le.2 ⟨h m List.mem_cons_self, ih fun k hk => h k (List.mem_cons_of_mem m hk)⟩

@[simp] theorem depth_naturals (values : List Nat) : (naturals values).depth = 1 := by
  have hflat : itemDepth (values.map natural) = 0 := by
    induction values with
    | nil => rfl
    | cons n rest ih =>
        rw [List.map_cons, itemDepth, ih]
        rfl
  rw [naturals, depth, hflat]

end Json

/-! ### Messages

A message is a record of distinct names, and each field is found by its own. The kinds are told
apart by a name that only one of them has. -/

theorem Log.scmNames_nodup : Log.scmNames.Nodup := by decide

theorem Log.idmNames_nodup : Log.idmNames.Nodup := by decide

theorem Log.entryNames_nodup : Log.entryNames.Nodup := by decide

theorem Scm.ofJson?_toJson (m : Scm) : Scm.ofJson? m.toJson = some m := by
  rw [ofJson?]
  refine Option.bind_eq_some_iff.2 ⟨_, Json.record?_record rfl Log.scmNames_nodup, ?_⟩
  simp

theorem Idm.ofJson?_toJson (m : Idm) : Idm.ofJson? m.toJson = some m := by
  rw [ofJson?]
  refine Option.bind_eq_some_iff.2 ⟨_, Json.record?_record rfl Log.idmNames_nodup, ?_⟩
  simp [Json.list?_naturals Json.byte?_natural, Json.list?_naturals Json.short?_natural]

/-- An interval data message has no field with the name of the meter in a standard consumption
message, so it is not taken for one. -/
theorem Scm.ofJson?_idm (m : Idm) : Scm.ofJson? m.toJson = none := by
  have hmissing : "ID" ∉ Log.idmNames := by decide
  have hnone : m.toJson.record? Log.scmNames = none :=
    Json.record?_eq_none List.mem_cons_self hmissing
  rw [ofJson?, hnone]
  rfl

namespace Message

/-- What a reader expects who knows the kind of the message. -/
def shape : Message → Log.Shape
  | .scm _ => .scm
  | .idm _ => .idm

theorem isPlain_toJson (m : Message) : m.toJson.isPlain = true := by
  cases m with
  | scm m => exact Json.isPlain_record _
  | idm m =>
      rw [toJson, Idm.toJson, Json.isPlain_record]
      simp [Json.isPlain]

theorem isFaithful_toJson (m : Message) : m.toJson.isFaithful = true := by
  cases m with
  | scm m =>
      rw [toJson, Scm.toJson, Json.isFaithful_record]
      simp
  | idm m =>
      rw [toJson, Idm.toJson, Json.isFaithful_record]
      simp

theorem depth_toJson_le (m : Message) : m.toJson.depth ≤ 2 := by
  cases m with
  | scm m =>
      refine Json.depth_record_le 1 ?_
      simp [Json.depth]
  | idm m =>
      refine Json.depth_record_le 1 ?_
      simp [Json.depth]

/-- A message is read again, by a reader who knows its kind and by one who does not. -/
theorem ofJson?_toJson (m : Message) {shape : Log.Shape} (h : shape = m.shape ∨ shape = .either) :
    ofJson? shape m.toJson = some m := by
  have hwhole : (m.toJson.isFaithful && decide (m.toJson.depth ≤ deepest)) = true := by
    rw [isFaithful_toJson, Bool.true_and, decide_eq_true_eq]
    exact (depth_toJson_le m).trans (by decide)
  cases m with
  | scm m =>
      rcases h with rfl | rfl
      · rw [Message.shape, ofJson?, toJson, Scm.ofJson?_toJson]
        rfl
      · rw [ofJson?, if_pos hwhole, toJson, Scm.ofJson?_toJson]
        rfl
  | idm m =>
      rcases h with rfl | rfl
      · rw [Message.shape, ofJson?, toJson, Idm.ofJson?_toJson]
        rfl
      · rw [ofJson?, if_pos hwhole, toJson, Scm.ofJson?_idm, Idm.ofJson?_toJson]
        rfl

end Message

/-! ### Entries -/

namespace Log

namespace Entry

variable {e : Entry}

theorem isPlain_toJson (e : Entry) : e.toJson.isPlain = true := by
  rw [toJson, Json.isPlain_record]
  simp [Json.isPlain, Json.text, Message.isPlain_toJson]

theorem ofJson?_toJson {shape : Shape} (hoffset : e.offset < 2 ^ 64) (hlength : e.length < 2 ^ 64)
    (htime : Time.Timestamp.ofText? (e.time.text .fewest) = some e.time)
    (hmessage : Message.ofJson? shape e.message.toJson = some e.message) :
    ofJson? shape e.toJson = some e := by
  have hoffset' : (Json.natural e.offset).long? = some e.offset :=
    Json.natural?_natural (Nat.le_of_lt_succ hoffset)
  have hlength' : (Json.natural e.length).long? = some e.length :=
    Json.natural?_natural (Nat.le_of_lt_succ hlength)
  rw [ofJson?]
  refine Option.bind_eq_some_iff.2 ⟨_, Json.record?_record rfl entryNames_nodup, ?_⟩
  simp [Json.text, Json.text?, htime, hoffset', hlength', hmessage]

end Entry

/-- The line of a JSON log has no line break inside, and it is read as the entry it was written for,
by a reader who knows the kind of the message and by one who does not. -/
theorem json_line_read_back (withOffset : Bool) (sink : Sink Char) (e : Entry)
    (hoffset : e.offset < 2 ^ 64) (hlength : e.length < 2 ^ 64)
    (hnanos : e.time.nanos < Time.Timestamp.perSecond) (hfirst : 0 ≤ e.time.date.year)
    (hlast : e.time.date.year ≤ 9999) :
    ∃ line : List Char, '\n' ∉ line ∧
      ((Writer.fresh .json withOffset sink).write Sink.Faults.none e).2 = none ∧
      ((Writer.fresh .json withOffset sink).write Sink.Faults.none e).1.sink.contents =
        sink.contents ++ (line ++ ['\n']) ∧
      ∀ shape, shape = e.message.shape ∨ shape = .either →
        (Json.parse? (String.ofList line)).bind (Entry.ofJson? shape) = some e := by
  have hplain := e.isPlain_toJson
  have hok := Writer.write_none (Writer.fresh .json withOffset sink) e
  have hwritten := (Writer.write_of_ok (Writer.settled_fresh .json withOffset sink) hok).2
  refine ⟨e.toJson.chars, (Json.printable_chars _ hplain).not_mem_newline, hok, ?_, ?_⟩
  · rw [hwritten, Writer.sink_fresh]
    rfl
  · intro shape hshape
    have htime := Time.Timestamp.ofText?_text hnanos hfirst hlast
    have hread := Entry.ofJson?_toJson hoffset hlength htime (e.message.ofJson?_toJson hshape)
    change (Json.parse? e.toJson.render).bind _ = _
    rw [Json.parse?_render hplain, Option.bind_some, hread]

/-- An entry from the last nanosecond of the years with four digits, with the greatest place and
length, a tag to be escaped, and lists of other lengths than those of packets. -/
def lastEntry : Entry :=
  { time := ⟨253402300799, 999999999⟩
    offset := 18446744073709551615
    length := 18446744073709551615
    kind := "\"I\\DM\"\n\x01\x7f ßは𝄞"
    message := .idm
      { packetTypeId := 0x1C, packetLength := 92, hammingCode := 0xC6, applicationVersion := 4
        ertType := 23, serialNumber := 4294967295, intervalCount := 255, programmingState := 0
        tamperCounters := [0, 255], asynchronousCounters := 65535, powerOutageFlags := []
        lastConsumption := 4294967295, intervals := [65535, 0, 511, 1]
        transmitTimeOffset := 0, serialNumberCrc := 1, packetCrc := 65535 } }

theorem lastEntry_read_back :
    lastEntry.offset < 2 ^ 64 ∧ lastEntry.length < 2 ^ 64 ∧
      lastEntry.time.nanos < Time.Timestamp.perSecond ∧ lastEntry.time.date.year = 9999 ∧
      ∃ line : List Char, '\n' ∉ line ∧
        ((Writer.fresh .json true .empty).write Sink.Faults.none lastEntry).2 = none ∧
        ((Writer.fresh .json true .empty).write Sink.Faults.none lastEntry).1.sink.contents =
          line ++ ['\n'] ∧
        ∀ shape, shape = .idm ∨ shape = .either →
          (Json.parse? (String.ofList line)).bind (Entry.ofJson? shape) = some lastEntry :=
  ⟨by decide, by decide, by decide, by decide,
    json_line_read_back true .empty lastEntry (by decide) (by decide) (by decide) (by decide)
      (by decide)⟩

end Log
end MeterRadio
