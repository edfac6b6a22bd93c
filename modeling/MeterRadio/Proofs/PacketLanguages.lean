/-
Module: MeterRadio.Proofs.PacketLanguages
Purpose: Which byte strings are packets of each kind. A packet has the right length and is closed
  by the check of its payload; the register run over both ends at the residue in no other case.
  What stands before the check's reach is not looked at.
Main exports: Bytes.between, Checksum.run_drop_eq_iff, Checksum.guarded, Scm.Closed, Scm.Language,
  Idm.Closed, Idm.Language, packets_read_exactly
-/
import MeterRadio.Message.Idm
import MeterRadio.Proofs.ShiftRegister

namespace MeterRadio

/-! ### Parts of a byte string -/

/-- The bytes from one place up to another. -/
def Bytes.between (data : Bytes) (first stop : Nat) : Bytes := (data.take stop).drop first

theorem Bytes.between_append {data : Bytes} {first mid : Nat} (h : first ≤ mid) :
    data.between first mid ++ data.drop mid = data.drop first := by
  unfold between
  rcases Nat.le_total data.length mid with hend | hmid
  · rw [List.take_of_length_le hend, List.drop_of_length_le hend, List.append_nil]
  · have hlength : first ≤ (data.take mid).length := by
      rw [List.length_take]
      omega
    rw [← List.drop_append_of_le_length hlength, List.take_append_drop]

section SameEnd

variable {n : Nat} {a b : Bytes}

theorem getD_eq_of_drop (h : a.drop n = b.drop n) {i : Nat} (hi : n ≤ i) :
    a.getD i 0 = b.getD i 0 := by
  have hplace : n + (i - n) = i := by omega
  have hsame := congrArg (fun data : Bytes => data[i - n]?) h
  simp only [List.getElem?_drop, hplace] at hsame
  rw [List.getD_eq_getElem?_getD, List.getD_eq_getElem?_getD, hsame]

theorem Bits.read_eq_of_drop (h : a.drop n = b.drop n) {start : Nat} (hstart : 8 * n ≤ start)
    (count : Nat) : read a start count = read b start count := by
  have hbit : ∀ k, bit a (start + k) = bit b (start + k) := by
    intro k
    unfold bit
    rw [getD_eq_of_drop h (show n ≤ (start + k) / 8 by omega)]
  unfold read
  simp only [hbit]

theorem Idm.slice_eq_of_drop (h : a.drop n = b.drop n) {start : Nat} (hstart : n ≤ start)
    (count : Nat) : slice a start count = slice b start count := by
  have hplace : n + (start - n) = start := by omega
  unfold slice
  rw [← hplace, ← List.drop_drop, h, List.drop_drop]

end SameEnd

/-! ### The residue

A check behind its payload is not compared with the register but fed into it. Then the register ends
at the residue if the check agrees, and in no other case. -/

namespace Checksum

/-- A check is the register over its payload, up to the bits of a mask, exactly if both together
leave in the register what is shifted out of the mask. -/
theorem run_append_eq_iff {c : Checksum} (hpoly : c.poly.toBitVec.getLsbD 0 = true)
    (mask : UInt16) (payload : Bytes) {check : Bytes} (h : check.length = 2) :
    c.run (payload ++ check) = (shift c.poly)^[16] mask ↔
      Bytes.toNat check = (c.runBits payload ^^^ mask).toNat := by
  have hlt : Bytes.toNat check < UInt16.size := by
    have hbits := Bits.toNat_lt (Bits.ofBytes check)
    rw [Bits.toNat_ofBytes, Bits.length_ofBytes, h] at hbits
    exact hbits
  have hinjective : Function.Injective (shift c.poly)^[16] :=
    (shift_injective hpoly).iterate 16
  rw [run_eq_runBits, runBits_append_check c payload h, hinjective.eq_iff]
  generalize c.runBits payload = register
  constructor
  · intro hxor
    have hregister : register ^^^ mask = UInt16.ofNat (Bytes.toNat check) := by
      rw [← hxor, ← UInt16.xor_assoc, UInt16.xor_self, UInt16.zero_xor]
    rw [hregister, UInt16.toNat_ofNat_of_lt' hlt]
  · intro hcheck
    rw [hcheck, UInt16.ofNat_toNat, ← UInt16.xor_assoc, UInt16.xor_self, UInt16.zero_xor]

/-- The same of a packet whose payload begins at one place and ends at another, two bytes before
the end. -/
theorem run_drop_eq_iff {c : Checksum} (hpoly : c.poly.toBitVec.getLsbD 0 = true) (mask : UInt16)
    {packet : Bytes} {first last : Nat} (hfirst : first ≤ last)
    (h : packet.length = last + 2) :
    c.run (packet.drop first) = (shift c.poly)^[16] mask ↔
      Bytes.toNat (packet.between last (last + 2)) =
        (c.runBits (packet.between first last) ^^^ mask).toNat := by
  have hcheck : packet.drop last = packet.between last (last + 2) := by
    rw [Bytes.between, List.take_of_length_le (Nat.le_of_eq h)]
  have hlength : (packet.between last (last + 2)).length = 2 := by
    rw [← hcheck, List.length_drop, h, Nat.add_sub_cancel_left]
  rw [← Bytes.between_append hfirst, hcheck]
  exact run_append_eq_iff hpoly mask _ hlength

/-! ### Reading behind a check

The readers of both kinds of packets have one shape. What can be said of it without the fields is
said here once, with the register at the residue for a check that agrees. -/

section Guarded

variable {α : Type}

/-- Reads a packet of so many bytes: right length first, then the check over all bytes but the first
ones, then the rest. -/
def guarded (c : Checksum) (bytes first : Nat) (rest : Bytes → Except PacketError α)
    (packet : Bytes) : Except PacketError α :=
  if packet.length ≠ bytes then .error (.length packet.length)
  else if c.run (packet.drop first) ≠ c.residue then
    .error (.checksum (c.run (packet.drop first)))
  else rest packet

variable {c : Checksum} {bytes first : Nat} {rest : Bytes → Except PacketError α} {packet : Bytes}

theorem guarded_of_length (h : packet.length ≠ bytes) :
    c.guarded bytes first rest packet = .error (.length packet.length) :=
  if_pos h

theorem guarded_of_residue (h : packet.length = bytes)
    (hcheck : c.run (packet.drop first) = c.residue) :
    c.guarded bytes first rest packet = rest packet :=
  (if_neg (not_not_intro h)).trans (if_neg (not_not_intro hcheck))

/-- The register that is named is the one over the bytes under the check, bit by bit. -/
theorem guarded_of_ne_residue (h : packet.length = bytes)
    (hcheck : c.run (packet.drop first) ≠ c.residue) :
    c.guarded bytes first rest packet =
      .error (.checksum (c.runBits (packet.between first bytes))) := by
  have hcovered : packet.between first bytes = packet.drop first := by
    rw [Bytes.between, List.take_of_length_le (Nat.le_of_eq h)]
  rw [hcovered, ← run_eq_runBits]
  exact (if_neg (not_not_intro h)).trans (if_pos hcheck)

theorem guarded_ok_iff :
    (∃ m, c.guarded bytes first rest packet = .ok m) ↔
      packet.length = bytes ∧ c.run (packet.drop first) = c.residue ∧
        ∃ m, rest packet = .ok m := by
  constructor
  · rintro ⟨m, hm⟩
    by_cases hlength : packet.length = bytes
    · by_cases hcheck : c.run (packet.drop first) = c.residue
      · rw [guarded_of_residue hlength hcheck] at hm
        exact ⟨hlength, hcheck, m, hm⟩
      · rw [guarded_of_ne_residue hlength hcheck] at hm
        cases hm
    · rw [guarded_of_length hlength] at hm
      cases hm
  · rintro ⟨hlength, hcheck, m, hm⟩
    exact ⟨m, (guarded_of_residue hlength hcheck).trans hm⟩

/-- The first bytes are of no account, if they are of none to the rest. -/
theorem guarded_eq_of_drop {other : Bytes} (hlength : other.length = packet.length)
    (hdrop : other.drop first = packet.drop first) (hrest : rest other = rest packet) :
    c.guarded bytes first rest other = c.guarded bytes first rest packet := by
  rw [guarded, guarded, hlength, hdrop, hrest]

end Guarded

end Checksum

/-! ### Standard consumption messages -/

namespace Scm

/-- The last two bytes are the register over the eight before them. -/
def Closed (packet : Bytes) : Prop :=
  Bytes.toNat (packet.between 10 12) = (crc.runBits (packet.between 2 10)).toNat

theorem run_eq_residue_iff_closed {packet : Bytes} (h : packet.length = 12) :
    crc.run (packet.drop 2) = crc.residue ↔ Closed packet := by
  have hresidue : crc.residue = (Checksum.shift crc.poly)^[16] 0 := by
    decide +kernel
  rw [hresidue, Checksum.run_drop_eq_iff (by decide) 0 (show 2 ≤ 10 by decide) h, UInt16.xor_zero]
  rfl

theorem fields_eq_of_drop {a b : Bytes} (h : a.drop 2 = b.drop 2) : fields a = fields b := by
  have hread : ∀ start count, 16 ≤ start → Bits.read a start count = Bits.read b start count :=
    fun start count hstart => Bits.read_eq_of_drop h hstart count
  unfold fields
  rw [hread 21 2 (by decide), hread 56 24 (by decide), hread 26 4 (by decide),
    hread 24 2 (by decide), hread 30 2 (by decide), hread 32 24 (by decide),
    hread 80 16 (by decide)]

/-- The packets that are read, and what is wrong with the others. The first two bytes are of no
account. -/
structure Language (packet : Bytes) : Prop where
  accepted : (∃ m, ofPacket packet = .ok m) ↔ packet.length = 12 ∧ Closed packet
  length : packet.length ≠ 12 → ofPacket packet = .error (.length packet.length)
  check : packet.length = 12 → ¬ Closed packet →
    ofPacket packet = .error (.checksum (crc.runBits (packet.between 2 12)))
  unread : ∀ other : Bytes, other.length = packet.length → other.drop 2 = packet.drop 2 →
    ofPacket other = ofPacket packet

theorem ofPacket_eq_guarded :
    ofPacket = crc.guarded 12 2 fun packet => .ok (fields packet) := rfl

theorem ofPacket_of_closed {packet : Bytes} (h : packet.length = 12) (hclosed : Closed packet) :
    ofPacket packet = .ok (fields packet) := by
  rw [ofPacket_eq_guarded]
  exact Checksum.guarded_of_residue h ((run_eq_residue_iff_closed h).2 hclosed)

theorem ofPacket_of_not_closed {packet : Bytes} (h : packet.length = 12)
    (hclosed : ¬ Closed packet) :
    ofPacket packet = .error (.checksum (crc.runBits (packet.between 2 12))) := by
  rw [ofPacket_eq_guarded]
  exact Checksum.guarded_of_ne_residue h (mt (run_eq_residue_iff_closed h).1 hclosed)

theorem language (packet : Bytes) : Language packet where
  accepted := by
    rw [ofPacket_eq_guarded, Checksum.guarded_ok_iff]
    refine and_congr_right fun hlength => ?_
    rw [run_eq_residue_iff_closed hlength]
    exact and_iff_left ⟨_, rfl⟩
  length := by
    rw [ofPacket_eq_guarded]
    exact Checksum.guarded_of_length
  check := ofPacket_of_not_closed
  unread := by
    intro other hlength hdrop
    rw [ofPacket_eq_guarded]
    exact Checksum.guarded_eq_of_drop hlength hdrop
      (congrArg Except.ok (fields_eq_of_drop hdrop))

end Scm

/-! ### Interval data messages -/

namespace Idm

/-- The last two bytes are the complement of the register over the eighty-six before them. -/
def Closed (packet : Bytes) : Prop :=
  Bytes.toNat (packet.between 90 92) = (~~~ crc.runBits (packet.between 4 90)).toNat

theorem run_eq_residue_iff_closed {packet : Bytes} (h : packet.length = 92) :
    crc.run (packet.drop 4) = crc.residue ↔ Closed packet := by
  have hresidue : crc.residue = (Checksum.shift crc.poly)^[16] 0xFFFF := by
    decide +kernel
  have hcomplement : ∀ register : UInt16, register ^^^ 0xFFFF = ~~~ register := by
    intro register
    rw [← UInt16.xor_neg_one]
    rfl
  rw [hresidue, Checksum.run_drop_eq_iff (by decide) 0xFFFF (show 4 ≤ 90 by decide) h,
    hcomplement]
  rfl

theorem fields_eq_of_drop {a b : Bytes} (h : a.drop 4 = b.drop 4) : fields a = fields b := by
  have hbyte : ∀ i, 4 ≤ i → byteAt a i = byteAt b i := fun i hi => getD_eq_of_drop h hi
  have hslice : ∀ start count, 4 ≤ start → slice a start count = slice b start count :=
    fun start count hstart => slice_eq_of_drop h hstart count
  have hread : ∀ k, Bits.read a (intervalStart + k * intervalBits) intervalBits =
      Bits.read b (intervalStart + k * intervalBits) intervalBits := by
    intro k
    apply Bits.read_eq_of_drop h
    unfold intervalStart
    omega
  unfold fields
  simp only [hbyte, hslice, hread, Nat.reduceLeDiff]

/-- The packets that are read, and what is wrong with the others. The first four bytes are of no
account. -/
structure Language (packet : Bytes) : Prop where
  accepted : (∃ m, ofPacket packet = .ok m) ↔
    packet.length = 92 ∧ Closed packet ∧ byteAt packet 4 = 0x1C
  length : packet.length ≠ 92 → ofPacket packet = .error (.length packet.length)
  check : packet.length = 92 → ¬ Closed packet →
    ofPacket packet = .error (.checksum (crc.runBits (packet.between 4 92)))
  packet_type : packet.length = 92 → Closed packet → byteAt packet 4 ≠ 0x1C →
    ofPacket packet = .error (.packetType (byteAt packet 4))
  unread : ∀ other : Bytes, other.length = packet.length → other.drop 4 = packet.drop 4 →
    ofPacket other = ofPacket packet

/-- Reads what stands behind a check that agrees: the packet type, then the fields. -/
def ofClosed (packet : Bytes) : Except PacketError Idm :=
  if byteAt packet 4 ≠ 0x1C then .error (.packetType (byteAt packet 4))
  else .ok (fields packet)

theorem ofPacket_eq_guarded : ofPacket = crc.guarded 92 4 ofClosed := rfl

theorem ofPacket_of_closed {packet : Bytes} (h : packet.length = 92) (hclosed : Closed packet) :
    ofPacket packet =
      if byteAt packet 4 ≠ 0x1C then .error (.packetType (byteAt packet 4))
      else .ok (fields packet) := by
  rw [ofPacket_eq_guarded]
  exact Checksum.guarded_of_residue h ((run_eq_residue_iff_closed h).2 hclosed)

theorem ofPacket_of_not_closed {packet : Bytes} (h : packet.length = 92)
    (hclosed : ¬ Closed packet) :
    ofPacket packet = .error (.checksum (crc.runBits (packet.between 4 92))) := by
  rw [ofPacket_eq_guarded]
  exact Checksum.guarded_of_ne_residue h (mt (run_eq_residue_iff_closed h).1 hclosed)

theorem ofClosed_ok_iff {packet : Bytes} :
    (∃ m, ofClosed packet = .ok m) ↔ byteAt packet 4 = 0x1C := by
  unfold ofClosed
  split
  case isTrue htype =>
    constructor
    · rintro ⟨m, hm⟩
      cases hm
    · exact fun heq => absurd heq htype
  case isFalse htype => exact ⟨fun _ => not_not.1 htype, fun _ => ⟨_, rfl⟩⟩

theorem language (packet : Bytes) : Language packet where
  accepted := by
    rw [ofPacket_eq_guarded, Checksum.guarded_ok_iff, ofClosed_ok_iff]
    refine and_congr_right fun hlength => ?_
    rw [run_eq_residue_iff_closed hlength]
  length := by
    rw [ofPacket_eq_guarded]
    exact Checksum.guarded_of_length
  check := ofPacket_of_not_closed
  packet_type := by
    intro hlength hclosed htype
    rw [ofPacket_of_closed hlength hclosed, if_pos htype]
  unread := by
    intro other hlength hdrop
    have htype : byteAt other 4 = byteAt packet 4 := getD_eq_of_drop hdrop (Nat.le_refl 4)
    rw [ofPacket_eq_guarded]
    apply Checksum.guarded_eq_of_drop hlength hdrop
    rw [ofClosed, ofClosed, htype, fields_eq_of_drop hdrop]

end Idm

/-- Both readers accept exactly the packets of their kind, name the first thing wrong with any other
byte string, and look at nothing before the reach of the check. -/
theorem packets_read_exactly (packet : Bytes) : Scm.Language packet ∧ Idm.Language packet :=
  ⟨Scm.language packet, Idm.language packet⟩

end MeterRadio
