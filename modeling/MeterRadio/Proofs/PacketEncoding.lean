/-
Module: MeterRadio.Proofs.PacketEncoding
Purpose: Reading a packet undoes writing it. The packets that are read as a message are those that
  hold its fields at their places, closed by the check; the bits in no field may be anything.
Main exports: Scm.InRange, Scm.Holds, Scm.holds_iff_fields, Idm.InRange, Idm.Holds,
  Idm.holds_iff_fields, packets_hold_messages
-/
import Mathlib.Tactic.MkIffOfInductiveProp
import MeterRadio.Proofs.BitFields
import MeterRadio.Proofs.MessageContents

namespace MeterRadio

open Bits (window)

/-! ### Standard consumption messages

That a packet holds a message is said by windows, one for each field, and the reader turns out to
look at just these. So a message is read back from a packet with its fields in their places. -/

namespace Scm

/-- The fields have room in a packet. -/
structure InRange (m : Scm) : Prop where
  id : m.id.toNat < 2 ^ 26
  ertType : m.ertType.toNat < 16
  tamperPhy : m.tamperPhy.toNat < 4
  tamperEnc : m.tamperEnc.toNat < 4
  consumption : m.consumption.toNat < 2 ^ 24

/-- A packet has the fields of a message at their places. The identifier is in two parts. -/
@[mk_iff]
structure Holds (packet : Bytes) (m : Scm) : Prop where
  id : window packet 21 2 ++ window packet 56 24 = Bits.ofNat 26 m.id.toNat
  ertType : window packet 26 4 = Bits.ofNat 4 m.ertType.toNat
  tamperPhy : window packet 24 2 = Bits.ofNat 2 m.tamperPhy.toNat
  tamperEnc : window packet 30 2 = Bits.ofNat 2 m.tamperEnc.toNat
  consumption : window packet 32 24 = Bits.ofNat 24 m.consumption.toNat
  checksum : window packet 80 16 = Bits.ofNat 16 m.checksum.toNat

/-! Each field read is the number at its place. -/

section Fields

variable (packet : Bytes)

theorem toNat_id_fields :
    (fields packet).id.toNat = Bits.toNat (window packet 21 2 ++ window packet 56 24) := by
  rw [toNat_id, Bits.toNat_append, Bits.length_window, Bits.toNat_read_of_le (by decide),
    Bits.toNat_read_of_le (by decide)]

theorem toNat_toUInt8_read {start count : Nat} (h : count ≤ 8) :
    (Bits.read packet start count).toUInt8.toNat = Bits.toNat (window packet start count) := by
  rw [UInt64.toNat_toUInt8, Bits.toNat_read_of_le (by omega)]
  exact Nat.mod_eq_of_lt (Nat.lt_of_lt_of_le (Bits.toNat_window_lt packet start count)
    (Nat.pow_le_pow_right Nat.zero_lt_two h))

theorem toNat_consumption_fields :
    (fields packet).consumption.toNat = Bits.toNat (window packet 32 24) := by
  rw [fields, UInt64.toNat_toUInt32, Bits.toNat_read_of_le (by decide)]
  exact Nat.mod_eq_of_lt (Nat.lt_of_lt_of_le (Bits.toNat_window_lt packet 32 24) (by decide))

theorem toNat_checksum_fields :
    (fields packet).checksum.toNat = Bits.toNat (window packet 80 16) := by
  rw [fields, UInt64.toNat_toUInt16, Bits.toNat_read_of_le (by decide)]
  exact Nat.mod_eq_of_lt (Bits.toNat_window_lt packet 80 16)

theorem inRange_fields : InRange (fields packet) where
  id := by
    have hlt := Bits.toNat_lt (window packet 21 2 ++ window packet 56 24)
    rw [List.length_append, Bits.length_window, Bits.length_window] at hlt
    rw [toNat_id_fields]
    exact hlt
  ertType := (toNat_toUInt8_read packet (by decide)).trans_lt (Bits.toNat_window_lt packet 26 4)
  tamperPhy := (toNat_toUInt8_read packet (by decide)).trans_lt (Bits.toNat_window_lt packet 24 2)
  tamperEnc := (toNat_toUInt8_read packet (by decide)).trans_lt (Bits.toNat_window_lt packet 30 2)
  consumption := (toNat_consumption_fields packet).trans_lt (Bits.toNat_window_lt packet 32 24)

end Fields

/-- Read are the fields that a packet holds. -/
theorem holds_iff_fields {packet : Bytes} {m : Scm} (h : InRange m) :
    Holds packet m ↔ fields packet = m := by
  have hid : window packet 21 2 ++ window packet 56 24 = Bits.ofNat 26 m.id.toNat ↔
      (fields packet).id = m.id := by
    rw [Bits.eq_ofNat_iff (by simp) h.id, ← toNat_id_fields, UInt32.toNat_inj]
  have hbyte : ∀ start count (b : UInt8), count ≤ 8 → b.toNat < 2 ^ count →
      (window packet start count = Bits.ofNat count b.toNat ↔
        (Bits.read packet start count).toUInt8 = b) := by
    intro start count b hcount hb
    rw [Bits.window_eq_ofNat_iff hb, ← toNat_toUInt8_read packet hcount,
      UInt8.toNat_inj]
  have htype := hbyte 26 4 m.ertType (by decide) h.ertType
  have hphy := hbyte 24 2 m.tamperPhy (by decide) h.tamperPhy
  have henc := hbyte 30 2 m.tamperEnc (by decide) h.tamperEnc
  have hconsumption : window packet 32 24 = Bits.ofNat 24 m.consumption.toNat ↔
      (fields packet).consumption = m.consumption := by
    rw [Bits.window_eq_ofNat_iff h.consumption, ← toNat_consumption_fields,
      UInt32.toNat_inj]
  have hcheck : window packet 80 16 = Bits.ofNat 16 m.checksum.toNat ↔
      (fields packet).checksum = m.checksum := by
    rw [Bits.window_eq_ofNat_iff m.checksum.toNat_lt,
      ← toNat_checksum_fields, UInt16.toNat_inj]
  cases m
  rw [holds_iff, fields, mk.injEq]
  exact and_congr hid (and_congr htype (and_congr hphy (and_congr henc
    (and_congr hconsumption hcheck))))

/-- A packet is closed if its last field is the register over the rest. -/
theorem closed_iff_checksum {packet : Bytes} (h : packet.length = 12) :
    Closed packet ↔ (fields packet).checksum = crc.runBits (packet.between 2 10) := by
  have hbytes : packet.between 10 12 = (packet.drop 10).take 2 := List.drop_take
  rw [Closed, hbytes, ← Bits.toNat_ofBytes, ← Bits.window_eq_ofBytes (Nat.le_of_eq h.symm),
    ← toNat_checksum_fields, UInt16.toNat_inj]

/-- The packets that are read as a message are those that hold it, closed by its check. -/
theorem ofPacket_ok_iff {packet : Bytes} {m : Scm} :
    ofPacket packet = .ok m ↔
      packet.length = 12 ∧ InRange m ∧ Holds packet m ∧
        m.checksum = crc.runBits (packet.between 2 10) := by
  constructor
  · intro h
    obtain ⟨hlength, hclosed, rfl⟩ := ofPacket_ok h
    have hrange := inRange_fields packet
    exact ⟨hlength, hrange, (holds_iff_fields hrange).2 rfl,
      (closed_iff_checksum hlength).1 hclosed⟩
  · rintro ⟨hlength, hrange, hholds, hcheck⟩
    obtain rfl := (holds_iff_fields hrange).1 hholds
    exact ofPacket_of_closed hlength ((closed_iff_checksum hlength).2 hcheck)

/-! ### Written packets -/

section Written

variable (sync : Nat) (spare : Bool) (m : Scm)

/-- The fields of a written packet, one behind the other. -/
def parts : List (List Bool) :=
  [Bits.ofNat 21 sync, Bits.ofNat 2 (m.id.toNat >>> 24), [spare], Bits.ofNat 2 m.tamperPhy.toNat,
    Bits.ofNat 4 m.ertType.toNat, Bits.ofNat 2 m.tamperEnc.toNat,
    Bits.ofNat 24 m.consumption.toNat, Bits.ofNat 24 m.id.toNat,
    Bits.ofNat 16 (closing (Bits.pack (bodyBits sync spare m))).toNat]

theorem ofBytes_toPacket :
    Bits.ofBytes (toPacket sync spare m) = (parts sync spare m).flatten := by
  have hbody : Bits.ofBytes (Bits.pack (bodyBits sync spare m)) = bodyBits sync spare m :=
    Bits.ofBytes_pack (by simp [bodyBits])
  rw [toPacket, Bits.ofBytes_append, hbody, Bits.ofBytes_ofNat]
  simp [parts, bodyBits]

theorem length_toPacket : (toPacket sync spare m).length = 12 := by
  simp [toPacket, bodyBits]

theorem between_toPacket :
    crc.runBits ((toPacket sync spare m).between 2 10) =
      closing (Bits.pack (bodyBits sync spare m)) := by
  have hlength : (Bits.pack (bodyBits sync spare m)).length = 10 := by simp [bodyBits]
  rw [toPacket, Bytes.between, List.take_left' hlength, closing, Checksum.run_eq_runBits]

/-- A packet that is written for a message: the given bits are where no field is, the fields of the
message and the check at their places, and it is read as the message with that check. -/
structure Written (packet : Bytes) : Prop where
  length : packet.length = 12
  sync : window packet 0 21 = Bits.ofNat 21 sync
  spare : window packet 23 1 = [spare]
  holds : Holds packet { m with checksum := crc.runBits (packet.between 2 10) }
  read : ofPacket packet = .ok { m with checksum := crc.runBits (packet.between 2 10) }

variable {m}

theorem written_toPacket (h : InRange m) : Written sync spare m (toPacket sync spare m) := by
  have hlengths : (parts sync spare m).map List.length = [21, 2, 1, 2, 4, 2, 24, 24, 16] := by
    simp [parts]
  have hplace := Bits.window_of_parts (ofBytes_toPacket sync spare m) hlengths
  have hholds : Holds (toPacket sync spare m)
      { m with checksum := crc.runBits ((toPacket sync spare m).between 2 10) } := by
    refine ⟨?id, hplace 4 rfl, hplace 3 rfl, hplace 5 rfl, hplace 6 rfl, ?check⟩
    case id =>
      have hhigh : window (toPacket sync spare m) 21 2 = Bits.ofNat 2 (m.id.toNat >>> 24) :=
        hplace 1 rfl
      have hlow : window (toPacket sync spare m) 56 24 = Bits.ofNat 24 m.id.toNat :=
        hplace 7 rfl
      rw [hhigh, hlow]
      exact (Bits.ofNat_add 2 24 m.id.toNat).symm
    case check =>
      rw [between_toPacket]
      exact hplace 8 rfl
  have hrange : InRange { m with checksum := crc.runBits ((toPacket sync spare m).between 2 10) } :=
    ⟨h.id, h.ertType, h.tamperPhy, h.tamperEnc, h.consumption⟩
  exact
    { length := length_toPacket sync spare m
      sync := hplace 0 rfl
      spare := hplace 2 rfl
      holds := hholds
      read := ofPacket_ok_iff.2 ⟨length_toPacket sync spare m, hrange, hholds, rfl⟩ }

end Written

end Scm

/-! ### Interval data messages -/

namespace Idm

/-- The fields are those of a packet: of its type, in its numbers, and with room in it. -/
structure InRange (m : Idm) : Prop where
  packetTypeId : m.packetTypeId = 0x1C
  ertType : m.ertType.toNat < 16
  tamperCounters : m.tamperCounters.length = 6
  powerOutageFlags : m.powerOutageFlags.length = 6
  intervals : m.intervals.length = 47
  interval : ∀ v ∈ m.intervals, v.toNat < 512

/-- A packet has the fields of a message at their places. -/
@[mk_iff]
structure Holds (packet : Bytes) (m : Idm) : Prop where
  packetTypeId : window packet 32 8 = Bits.ofNat 8 m.packetTypeId.toNat
  packetLength : window packet 40 8 = Bits.ofNat 8 m.packetLength.toNat
  hammingCode : window packet 48 8 = Bits.ofNat 8 m.hammingCode.toNat
  applicationVersion : window packet 56 8 = Bits.ofNat 8 m.applicationVersion.toNat
  ertType : window packet 68 4 = Bits.ofNat 4 m.ertType.toNat
  serialNumber : window packet 72 32 = Bits.ofNat 32 m.serialNumber.toNat
  intervalCount : window packet 104 8 = Bits.ofNat 8 m.intervalCount.toNat
  programmingState : window packet 112 8 = Bits.ofNat 8 m.programmingState.toNat
  tamperCounters : window packet 120 48 = Bits.ofBytes m.tamperCounters
  asynchronousCounters : window packet 168 16 = Bits.ofNat 16 m.asynchronousCounters.toNat
  powerOutageFlags : window packet 184 48 = Bits.ofBytes m.powerOutageFlags
  lastConsumption : window packet 232 32 = Bits.ofNat 32 m.lastConsumption.toNat
  intervals : window packet 264 423 = (m.intervals.map UInt16.toNat).flatMap (Bits.ofNat 9)
  transmitTimeOffset : window packet 688 16 = Bits.ofNat 16 m.transmitTimeOffset.toNat
  serialNumberCrc : window packet 704 16 = Bits.ofNat 16 m.serialNumberCrc.toNat
  packetCrc : window packet 720 16 = Bits.ofNat 16 m.packetCrc.toNat

/-! What a packet has at a place is what is read there. -/

section Fields

variable {packet : Bytes}

theorem window_byte_iff (k : Nat) (b : UInt8) :
    window packet (8 * k) 8 = Bits.ofNat 8 b.toNat ↔ byteAt packet k = b := by
  rw [Bits.window_eq_ofByte, Bits.ofNat_eight_toNat]
  constructor
  · intro h
    have hnumber := congrArg Bits.toNat h
    rw [Bits.toNat_ofByte, Bits.toNat_ofByte] at hnumber
    exact UInt8.toNat_inj.1 hnumber
  · rintro rfl
    rfl

theorem window_bytes_iff {first count : Nat} (h : first + count ≤ packet.length) (bytes : Bytes) :
    window packet (8 * first) (8 * count) = Bits.ofBytes bytes ↔
      slice packet first count = bytes := by
  rw [Bits.window_eq_ofBytes h]
  constructor
  · intro hbits
    have hpacked := congrArg Bits.pack hbits
    rwa [Bits.pack_ofBytes, Bits.pack_ofBytes] at hpacked
  · rintro rfl
    rfl

/-- The bytes from a place on, as a number. -/
theorem toNat_slice {first count : Nat} (h : first + count ≤ packet.length) :
    Bytes.toNat (slice packet first count) =
      Bits.toNat (window packet (8 * first) (8 * count)) := by
  rw [Bits.window_eq_ofBytes h, Bits.toNat_ofBytes]
  rfl

/-- The same of words of any width that holds what is read. -/
theorem window_word_iff {W : Type} (toNat : W → Nat) (ofNat : Nat → W) {first : Nat} (count : Nat)
    (hlt : ∀ w, toNat w < 2 ^ (8 * count)) (hback : ∀ w, ofNat (toNat w) = w)
    (hnumber : ∀ n < 2 ^ (8 * count), toNat (ofNat n) = n) (h : first + count ≤ packet.length)
    (w : W) :
    window packet (8 * first) (8 * count) = Bits.ofNat (8 * count) (toNat w) ↔
      ofNat (Bytes.toNat (slice packet first count)) = w := by
  rw [Bits.window_eq_ofNat_iff (hlt w), toNat_slice h]
  constructor
  · intro heq
    rw [heq, hback]
  · rintro rfl
    exact (hnumber _ (Bits.toNat_window_lt packet _ _)).symm

/-- The commodity type is the lower half of its byte. -/
theorem toNat_ertType_fields (packet : Bytes) :
    (fields packet).ertType.toNat = Bits.toNat (window packet 68 4) := by
  have hbyte : Bits.toNat (window packet 64 4 ++ window packet 68 4) =
      (byteAt packet 8).toNat := by
    rw [← Bits.window_add packet 64 4 4, byteAt, ← Bits.toNat_ofByte, ← Bits.window_eq_ofByte]
  have hlt := Bits.toNat_window_lt packet 68 4
  rw [Bits.toNat_append, Bits.length_window] at hbyte
  have hmask : (byteAt packet 8 &&& 0x0F).toNat = (byteAt packet 8).toNat % 2 ^ 4 :=
    Nat.and_two_pow_sub_one_eq_mod _ 4
  rw [fields, hmask, ← hbyte]
  omega

theorem toNat_intervals_fields (packet : Bytes) :
    (fields packet).intervals.map UInt16.toNat = Bits.numbers packet 264 9 47 := by
  rw [fields, List.map_map, Bits.numbers]
  refine List.map_congr_left fun k _ => ?_
  rw [Function.comp_apply, UInt64.toNat_toUInt16, Bits.toNat_read_of_le (by decide)]
  exact Nat.mod_eq_of_lt (Nat.lt_of_lt_of_le (Bits.toNat_window_lt packet _ _) (by decide))

theorem inRange_fields (hlength : packet.length = 92) (htype : byteAt packet 4 = 0x1C) :
    InRange (fields packet) where
  packetTypeId := htype
  ertType := (toNat_ertType_fields packet).trans_lt (Bits.toNat_window_lt packet 68 4)
  tamperCounters := length_slice (by omega)
  powerOutageFlags := length_slice (by omega)
  intervals := by
    rw [fields, List.length_map, List.length_range]
    rfl
  interval := by
    intro v hv
    have hmem : v.toNat ∈ Bits.numbers packet 264 9 47 := by
      rw [← toNat_intervals_fields]
      exact List.mem_map_of_mem hv
    obtain ⟨k, -, hk⟩ := List.mem_map.1 hmem
    rw [← hk]
    exact Bits.toNat_window_lt packet _ 9

end Fields

/-- Read are the fields that a packet holds. -/
theorem holds_iff_fields {packet : Bytes} {m : Idm} (hlength : packet.length = 92) (h : InRange m) :
    Holds packet m ↔ fields packet = m := by
  have hbyte : ∀ k b, window packet (8 * k) 8 = Bits.ofNat 8 (UInt8.toNat b) ↔
      byteAt packet k = b := window_byte_iff
  have hbytes : ∀ first bytes, first + 6 ≤ 92 →
      (window packet (8 * first) 48 = Bits.ofBytes bytes ↔ slice packet first 6 = bytes) :=
    fun first bytes hfirst => window_bytes_iff (show first + 6 ≤ packet.length by omega) bytes
  have hword : ∀ first w, first + 4 ≤ 92 →
      (window packet (8 * first) 32 = Bits.ofNat 32 (UInt32.toNat w) ↔
        UInt32.ofNat (Bytes.toNat (slice packet first 4)) = w) :=
    fun first w hfirst => window_word_iff UInt32.toNat UInt32.ofNat 4 UInt32.toNat_lt
      (fun _ => UInt32.ofNat_toNat) (fun _ => UInt32.toNat_ofNat_of_lt') (by omega) w
  have hshort : ∀ first w, first + 2 ≤ 92 →
      (window packet (8 * first) 16 = Bits.ofNat 16 (UInt16.toNat w) ↔
        UInt16.ofNat (Bytes.toNat (slice packet first 2)) = w) :=
    fun first w hfirst => window_word_iff UInt16.toNat UInt16.ofNat 2 UInt16.toNat_lt
      (fun _ => UInt16.ofNat_toNat) (fun _ => UInt16.toNat_ofNat_of_lt') (by omega) w
  have htype : window packet 68 4 = Bits.ofNat 4 m.ertType.toNat ↔
      (fields packet).ertType = m.ertType := by
    rw [Bits.window_eq_ofNat_iff h.ertType, ← toNat_ertType_fields,
      UInt8.toNat_inj]
  have hsmall : ∀ v ∈ m.intervals.map UInt16.toNat, v < 2 ^ 9 := by
    intro v hv
    obtain ⟨w, hw, rfl⟩ := List.mem_map.1 hv
    exact h.interval w hw
  have hintervals : window packet 264 (47 * 9) =
        (m.intervals.map UInt16.toNat).flatMap (Bits.ofNat 9) ↔
      (fields packet).intervals = m.intervals := by
    rw [Bits.window_eq_flatMap_iff (by rw [List.length_map, h.intervals]) hsmall,
      ← toNat_intervals_fields, List.map_inj_right fun _ _ => UInt16.toNat_inj.1]
  cases m
  rw [holds_iff, fields, mk.injEq]
  exact and_congr (hbyte 4 _) (and_congr (hbyte 5 _) (and_congr (hbyte 6 _)
    (and_congr (hbyte 7 _) (and_congr htype (and_congr (hword 9 _ (by decide))
    (and_congr (hbyte 13 _) (and_congr (hbyte 14 _) (and_congr (hbytes 15 _ (by decide))
    (and_congr (hshort 21 _ (by decide)) (and_congr (hbytes 23 _ (by decide))
    (and_congr (hword 29 _ (by decide)) (and_congr hintervals
    (and_congr (hshort 86 _ (by decide)) (and_congr (hshort 88 _ (by decide))
    (hshort 90 _ (by decide))))))))))))))))

theorem closed_iff_packetCrc {packet : Bytes} (h : packet.length = 92) :
    Closed packet ↔ (fields packet).packetCrc = ~~~ crc.runBits (packet.between 4 90) := by
  have hbytes : packet.between 90 92 = slice packet 90 2 := List.drop_take
  have hlt := Bytes.toNat_lt (slice packet 90 2)
  rw [length_slice (Nat.le_of_eq h.symm)] at hlt
  rw [Closed, hbytes, fields, ← UInt16.toNat_inj, UInt16.toNat_ofNat_of_lt' hlt]

/-- The packets that are read as a message are those that hold it, closed by its check. -/
theorem ofPacket_ok_iff {packet : Bytes} {m : Idm} :
    ofPacket packet = .ok m ↔
      packet.length = 92 ∧ InRange m ∧ Holds packet m ∧
        m.packetCrc = ~~~ crc.runBits (packet.between 4 90) := by
  constructor
  · intro h
    obtain ⟨-, -, htype⟩ := (language packet).accepted.1 ⟨m, h⟩
    obtain ⟨hlength, hclosed, rfl⟩ := ofPacket_ok h
    have hrange := inRange_fields hlength htype
    exact ⟨hlength, hrange, (holds_iff_fields hlength hrange).2 rfl,
      (closed_iff_packetCrc hlength).1 hclosed⟩
  · rintro ⟨hlength, hrange, hholds, hcheck⟩
    obtain rfl := (holds_iff_fields hlength hrange).1 hholds
    rw [ofPacket_of_closed hlength ((closed_iff_packetCrc hlength).2 hcheck)]
    exact if_neg (not_not_intro hrange.packetTypeId)

/-! ### Written packets -/

section Written

variable (sync : Bytes) (nibble : Nat) (spare : Bool) (m : Idm)

/-- The fields of a written packet, one behind the other. -/
def parts : List (List Bool) :=
  [Bits.ofBytes sync, Bits.ofByte m.packetTypeId, Bits.ofByte m.packetLength,
    Bits.ofByte m.hammingCode, Bits.ofByte m.applicationVersion,
    Bits.ofNat 4 nibble, Bits.ofNat 4 m.ertType.toNat, Bits.ofNat 32 m.serialNumber.toNat,
    Bits.ofByte m.intervalCount, Bits.ofByte m.programmingState,
    Bits.ofBytes m.tamperCounters, Bits.ofNat 16 m.asynchronousCounters.toNat,
    Bits.ofBytes m.powerOutageFlags, Bits.ofNat 32 m.lastConsumption.toNat,
    (m.intervals.map UInt16.toNat).flatMap (Bits.ofNat 9), [spare],
    Bits.ofNat 16 m.transmitTimeOffset.toNat, Bits.ofNat 16 m.serialNumberCrc.toNat,
    Bits.ofNat 16 (closing (bodyBytes nibble spare m)).toNat]

variable {m}

theorem length_intervalBits (h : InRange m) :
    ((m.intervals.map UInt16.toNat).flatMap (Bits.ofNat 9)).length = 423 := by
  rw [Bits.length_flatMap_ofNat, List.length_map, h.intervals]

theorem ofBytes_toPacket (h : InRange m) :
    Bits.ofBytes (toPacket sync nibble spare m) = (parts sync nibble spare m).flatten := by
  have hpacked : Bits.ofBytes (Bits.pack
        (m.intervals.flatMap (fun v => Bits.ofNat intervalBits v.toNat) ++ [spare])) =
      (m.intervals.map UInt16.toNat).flatMap (Bits.ofNat 9) ++ [spare] := by
    have hsame : m.intervals.flatMap (fun v => Bits.ofNat intervalBits v.toNat) =
        (m.intervals.map UInt16.toNat).flatMap (Bits.ofNat 9) := by
      rw [List.flatMap_map]
      rfl
    rw [hsame, Bits.ofBytes_pack]
    rw [List.length_append, length_intervalBits h, List.length_singleton]
  -- The bits of the type share a byte with four bits that no field uses.
  have hhalves : Bits.ofNat 8 (nibble % 16 * 16 + m.ertType.toNat % 16) =
      Bits.ofNat 4 nibble ++ Bits.ofNat 4 m.ertType.toNat := by
    apply Bits.eq_of_toNat_eq (by simp)
    rw [Bits.toNat_append, Bits.toNat_ofNat, Bits.toNat_ofNat, Bits.toNat_ofNat,
      Bits.length_ofNat]
    omega
  simp only [toPacket, bodyBytes, parts, Bits.ofBytes_cons, hpacked, hhalves, Bits.ofBytes_append,
    Bits.ofBytes_nil, Bits.ofBytes_ofNat, Bits.ofByte_ofNat, List.flatten_cons, List.flatten_nil,
    List.append_assoc, List.append_nil, Nat.reduceMul]

theorem length_bodyBytes (h : InRange m) : (bodyBytes nibble spare m).length = 86 := by
  have hpacked := length_intervalBits h
  rw [List.flatMap_map] at hpacked
  have hbits : (m.intervals.flatMap fun v => Bits.ofNat intervalBits v.toNat).length = 423 :=
    hpacked
  simp [bodyBytes, h.tamperCounters, h.powerOutageFlags, hbits]

variable {sync}

theorem length_toPacket (hsync : sync.length = 4) (h : InRange m) :
    (toPacket sync nibble spare m).length = 92 := by
  simp [toPacket, hsync, length_bodyBytes nibble spare h]

theorem between_toPacket (hsync : sync.length = 4) (h : InRange m) :
    ~~~ crc.runBits ((toPacket sync nibble spare m).between 4 90) =
      closing (bodyBytes nibble spare m) := by
  have hlength : (sync ++ bodyBytes nibble spare m).length = 90 := by
    rw [List.length_append, hsync, length_bodyBytes nibble spare h]
  rw [toPacket, Bytes.between, List.take_left' hlength, List.drop_left' hsync, closing,
    Checksum.run_eq_runBits]

/-- A packet that is written for a message: the given bytes and bits are where no field is, the
fields of the message and the check at their places, and it is read as the message with that
check. -/
structure Written (sync : Bytes) (nibble : Nat) (spare : Bool) (m : Idm) (packet : Bytes) : Prop
    where
  length : packet.length = 92
  sync : packet.take 4 = sync
  nibble : window packet 64 4 = Bits.ofNat 4 nibble
  spare : window packet 687 1 = [spare]
  holds : Holds packet { m with packetCrc := ~~~ crc.runBits (packet.between 4 90) }
  read : ofPacket packet = .ok { m with packetCrc := ~~~ crc.runBits (packet.between 4 90) }

theorem written_toPacket (hsync : sync.length = 4) (h : InRange m) :
    Written sync nibble spare m (toPacket sync nibble spare m) := by
  have hlengths : (parts sync nibble spare m).map List.length =
      [32, 8, 8, 8, 8, 4, 4, 32, 8, 8, 48, 16, 48, 32, 423, 1, 16, 16, 16] := by
    simp only [parts, List.map_cons, List.map_nil, length_intervalBits h, Bits.length_ofBytes,
      Bits.length_ofByte, Bits.length_ofNat, List.length_singleton, hsync, h.tamperCounters,
      h.powerOutageFlags, Nat.reduceMul]
  have hplace := Bits.window_of_parts (ofBytes_toPacket sync nibble spare h) hlengths
  have hcheck := between_toPacket nibble spare hsync h
  have hholds : Holds (toPacket sync nibble spare m)
      { m with packetCrc := ~~~ crc.runBits ((toPacket sync nibble spare m).between 4 90) } :=
    { packetTypeId := hplace 1 rfl
      packetLength := hplace 2 rfl
      hammingCode := hplace 3 rfl
      applicationVersion := hplace 4 rfl
      ertType := hplace 6 rfl
      serialNumber := hplace 7 rfl
      intervalCount := hplace 8 rfl
      programmingState := hplace 9 rfl
      tamperCounters := hplace 10 rfl
      asynchronousCounters := hplace 11 rfl
      powerOutageFlags := hplace 12 rfl
      lastConsumption := hplace 13 rfl
      intervals := hplace 14 rfl
      transmitTimeOffset := hplace 16 rfl
      serialNumberCrc := hplace 17 rfl
      packetCrc := by
        rw [hcheck]
        exact hplace 18 rfl }
  have hrange : InRange
      { m with packetCrc := ~~~ crc.runBits ((toPacket sync nibble spare m).between 4 90) } :=
    ⟨h.packetTypeId, h.ertType, h.tamperCounters, h.powerOutageFlags, h.intervals, h.interval⟩
  have hlength := length_toPacket nibble spare hsync h
  exact
    { length := hlength
      sync := by
        rw [toPacket, List.append_assoc]
        exact List.take_left' hsync
      nibble := hplace 5 rfl
      spare := hplace 15 rfl
      holds := hholds
      read := ofPacket_ok_iff.2 ⟨hlength, hrange, hholds, rfl⟩ }

end Written

end Idm

/-! ### Both kinds -/

/-- Whatever fields with room in a packet and whatever bits elsewhere, there is a packet that has
them at their places and is read as these fields. And the packets that are read as a message are
those that have its fields, all in range, and the check of their payload. -/
theorem packets_hold_messages :
    (∀ sync spare (m : Scm), m.InRange → Scm.Written sync spare m (Scm.toPacket sync spare m)) ∧
      (∀ packet (m : Scm), Scm.ofPacket packet = .ok m ↔
        packet.length = 12 ∧ m.InRange ∧ Scm.Holds packet m ∧
          m.checksum = Scm.crc.runBits (packet.between 2 10)) ∧
      (∀ sync nibble spare (m : Idm), sync.length = 4 → m.InRange →
        Idm.Written sync nibble spare m (Idm.toPacket sync nibble spare m)) ∧
      ∀ packet (m : Idm), Idm.ofPacket packet = .ok m ↔
        packet.length = 92 ∧ m.InRange ∧ Idm.Holds packet m ∧
          m.packetCrc = ~~~ Idm.crc.runBits (packet.between 4 90) :=
  ⟨fun sync spare _ h => Scm.written_toPacket sync spare h, fun _ _ => Scm.ofPacket_ok_iff,
    fun _ nibble spare _ hsync h => Idm.written_toPacket nibble spare hsync h,
    fun _ _ => Idm.ofPacket_ok_iff⟩

/-! The packets of messages with every field at its largest are full to the last bit. -/

/-- A message with every field at its largest. -/
def Scm.largest : Scm :=
  { id := 0x3FFFFFF
    ertType := 15
    tamperPhy := 3
    tamperEnc := 3
    consumption := 0xFFFFFF
    checksum := 0 }

/-- A message with every field at its largest, of the type that is read. -/
def Idm.largest : Idm :=
  { packetTypeId := Idm.typeId
    packetLength := 255
    hammingCode := 255
    applicationVersion := 255
    ertType := 15
    serialNumber := 0xFFFFFFFF
    intervalCount := 255
    programmingState := 255
    tamperCounters := List.replicate 6 255
    asynchronousCounters := 0xFFFF
    powerOutageFlags := List.replicate 6 255
    lastConsumption := 0xFFFFFFFF
    intervals := List.replicate Idm.intervalTotal 511
    transmitTimeOffset := 0xFFFF
    serialNumberCrc := 0xFFFF
    packetCrc := 0 }

theorem Scm.inRange_largest : Scm.largest.InRange :=
  ⟨by decide, by decide, by decide, by decide, by decide⟩

theorem Idm.inRange_largest : Idm.largest.InRange :=
  ⟨rfl, by decide, rfl, rfl, rfl, fun v hv => by
    rw [List.eq_of_mem_replicate hv]
    decide⟩

theorem largest_messages_written :
    Scm.largest.InRange ∧ Idm.largest.InRange ∧
      Scm.Written (2 ^ 21 - 1) true Scm.largest (List.replicate 10 255 ++ [0x78, 0xDE]) ∧
        Idm.Written [255, 255, 255, 255] 15 true Idm.largest
          (List.replicate 4 255 ++ [0x1C] ++ List.replicate 85 255 ++ [0xD7, 0xF4]) := by
  have hscm : Scm.toPacket (2 ^ 21 - 1) true Scm.largest =
      List.replicate 10 255 ++ [0x78, 0xDE] := by
    decide +kernel
  have hidm : Idm.toPacket [255, 255, 255, 255] 15 true Idm.largest =
      List.replicate 4 255 ++ [0x1C] ++ List.replicate 85 255 ++ [0xD7, 0xF4] := by
    decide +kernel
  rw [← hscm, ← hidm]
  obtain ⟨hscmWritten, -, hidmWritten, -⟩ := packets_hold_messages
  exact ⟨Scm.inRange_largest, Idm.inRange_largest,
    hscmWritten _ _ _ Scm.inRange_largest, hidmWritten _ _ _ _ rfl Idm.inRange_largest⟩

end MeterRadio
