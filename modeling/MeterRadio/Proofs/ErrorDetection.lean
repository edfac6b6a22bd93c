/-
Module: MeterRadio.Proofs.ErrorDetection
Purpose: Packets damaged under their check are refused for it. Standard consumption packets show up
  to four wrong bits, interval data packets two or any odd number of them, and both show all errors
  within sixteen bits in a row.
Main exports: Checksum.residue_iff_residual, Scm.closed_iff_residual, Idm.closed_iff_residual,
  Scm.four_errors_or_burst_refused, Idm.odd_pair_or_burst_refused
-/
import MeterRadio.Proofs.ErrorPatterns
import MeterRadio.Proofs.PacketLanguages

namespace MeterRadio

/-! ### Errors by their places

Whether damage shows depends on the bits in which two packets differ, and on nothing else. Both
kinds of packets have that in common; they differ in length and in the reach of the check. -/

theorem Bits.true_mem_errors_of_differing {first stop : Nat} {a b : Bytes}
    (h : differing first stop a b ≠ []) : true ∈ errors first stop a b := by
  rcases List.exists_mem_of_ne_nil _ h with ⟨i, hi⟩
  exact true_mem_errors.2 ⟨i, mem_differing.1 hi⟩

theorem Bits.drop_eq_of_differing {a b : Bytes} {k stop : Nat} (hlength : a.length = b.length)
    (hstop : 8 * a.length = stop) (h : differing (8 * k) stop a b = []) : a.drop k = b.drop k := by
  apply drop_eq_of_bits hlength
  intro i hfirst hlt
  by_contra hdiffer
  have hmem := mem_differing.2 ⟨hfirst, hstop ▸ hlt, hdiffer⟩
  rw [h] at hmem
  exact List.not_mem_nil hmem

/-- Errors at places within sixteen bits in a row leave something in the register. -/
theorem Checksum.residual_within {poly : UInt16} (hpoly : poly.toBitVec.getLsbD 0 = true)
    {first stop start : Nat} {a b : Bytes} (hwrong : Bits.differing first stop a b ≠ [])
    (h : ∀ i ∈ Bits.differing first stop a b, start ≤ i ∧ i < start + 16) :
    residual poly (Bits.errors first stop a b) ≠ 0 := by
  have houtside : ∀ lo hi, first ≤ lo → hi ≤ stop → (hi ≤ start ∨ start + 16 ≤ lo ∨ hi ≤ lo) →
      true ∉ Bits.errors lo hi a b := by
    intro lo hi hlo hhi hrange hmem
    rcases Bits.true_mem_errors.1 hmem with ⟨i, hlow, hhigh, hdiffer⟩
    have hwithin := h i (Bits.mem_differing.2 ⟨by omega, by omega, hdiffer⟩)
    omega
  rcases List.exists_mem_of_ne_nil _ hwrong with ⟨i, hi⟩
  have hwithin := h i hi
  rcases Bits.mem_differing.1 hi with ⟨hfirst, hstop, hdiffer⟩
  -- the sixteen bits, cut off where the byte strings are not compared
  let low := max first start
  let high := min stop (start + 16)
  have hsplit : Bits.errors first stop a b =
      Bits.errors first low a b ++ Bits.errors low high a b ++ Bits.errors high stop a b := by
    rw [← Bits.errors_append a b (by omega) (by omega),
      ← Bits.errors_append a b (by omega) (by omega)]
  rw [hsplit]
  apply residual_burst hpoly
  · exact houtside _ _ (Nat.le_refl first) (by omega) (by omega)
  · exact houtside _ _ (by omega) (Nat.le_refl stop) (by omega)
  · rw [Bits.length_errors]
    omega
  · exact Bits.true_mem_errors.2 ⟨i, by omega, by omega, hdiffer⟩

/-- Beside a byte string that leaves the residue behind its first bytes, another one of its length
does so exactly if the errors in it leave nothing. -/
theorem Checksum.residue_iff_residual {c : Checksum} (first bytes : Nat) {packet other : Bytes}
    (hpacket : packet.length = bytes) (hother : other.length = bytes)
    (hresidue : c.run (packet.drop first) = c.residue) :
    c.run (other.drop first) = c.residue ↔
      residual c.poly (Bits.errors (8 * first) (8 * bytes) packet other) = 0 := by
  have hrun := run_drop_eq_iff_residual c first (hpacket.trans hother.symm)
  rw [hresidue, hpacket] at hrun
  rw [eq_comm]
  exact hrun

/-! ### Standard consumption messages -/

namespace Scm

theorem ofPacket_ok {packet : Bytes} {m : Scm} (h : ofPacket packet = .ok m) :
    packet.length = 12 ∧ Closed packet ∧ fields packet = m := by
  rcases (language packet).accepted.1 ⟨m, h⟩ with ⟨hlength, hclosed⟩
  rw [ofPacket_of_closed hlength hclosed] at h
  exact ⟨hlength, hclosed, Except.ok.inj h⟩

/-- Beside a packet, another is closed exactly if the errors in it leave nothing. -/
theorem closed_iff_residual {packet other : Bytes} (hpacket : packet.length = 12)
    (hother : other.length = 12) (hclosed : Closed packet) :
    Closed other ↔ Checksum.residual crc.poly (Bits.errors 16 96 packet other) = 0 := by
  rw [← run_eq_residue_iff_closed hother]
  exact Checksum.residue_iff_residual 2 12 hpacket hother
    ((run_eq_residue_iff_closed hpacket).2 hclosed)

/-- No four bits of a packet cancel each other. -/
theorem separates : Checksum.Separates crc.poly 2 79 := by
  decide +kernel

/-- A packet that is accepted, with up to four wrong bits under the check, or with all wrong bits
within sixteen in a row, is refused for its check. The first two bytes may be anything. -/
theorem four_errors_or_burst_refused {packet damaged : Bytes} {m : Scm}
    (h : ofPacket packet = .ok m) (hlength : damaged.length = 12)
    (hdiffer : damaged.between 2 12 ≠ packet.between 2 12)
    (herrors : (Bits.differing 16 96 packet damaged).length ≤ 4 ∨
      ∃ start, ∀ i ∈ Bits.differing 16 96 packet damaged, start ≤ i ∧ i < start + 16) :
    ofPacket damaged = .error (.checksum (crc.runBits (damaged.between 2 12))) := by
  rcases ofPacket_ok h with ⟨hpacket, hclosed, -⟩
  apply ofPacket_of_not_closed hlength
  have hpoly : crc.poly.toBitVec.getLsbD 0 = true := by decide
  have hwrong : Bits.differing 16 96 packet damaged ≠ [] := by
    intro hnone
    have hsame := Bits.drop_eq_of_differing (hpacket.trans hlength.symm)
      (show 8 * packet.length = 96 by omega) (show Bits.differing (8 * 2) 96 packet damaged = []
        from hnone)
    rw [Bytes.between, Bytes.between, List.take_of_length_le (by omega),
      List.take_of_length_le (by omega)] at hdiffer
    exact hdiffer hsame.symm
  rw [closed_iff_residual hpacket hlength hclosed]
  rcases herrors with hfew | ⟨start, hwithin⟩
  · apply Checksum.residual_few hpoly separates
    · rw [Bits.length_errors]
    · exact Bits.true_mem_errors_of_differing hwrong
    · rw [Bits.count_errors]
      exact hfew
  · exact Checksum.residual_within hpoly hwrong hwithin

/-- A packet with all fields in use. -/
def soundPacket : Bytes :=
  [0xF9, 0x53, 0x00, 0x2B, 0x0C, 0x51, 0xA6, 0x00, 0x7F, 0x13, 0x6B, 0xC3]

/-- The same with the first two bytes gone and four bits wrong: the first under the check, the last,
and two far from them and from each other. -/
def scatteredPacket : Bytes :=
  [0x00, 0x00, 0x80, 0x2B, 0x0C, 0xD1, 0xA6, 0x00, 0x7D, 0x13, 0x6B, 0xC2]

theorem scattered_errors_refused :
    ofPacket soundPacket = .ok (fields soundPacket) ∧
      Bits.differing 16 96 soundPacket scatteredPacket = [16, 40, 70, 95] ∧
        ofPacket scatteredPacket =
          .error (.checksum (crc.runBits (scatteredPacket.between 2 12))) := by
  have hsound : ofPacket soundPacket = .ok (fields soundPacket) := by decide +kernel
  have hplaces : Bits.differing 16 96 soundPacket scatteredPacket = [16, 40, 70, 95] := by
    decide +kernel
  have hfew : (Bits.differing 16 96 soundPacket scatteredPacket).length ≤ 4 := by
    rw [hplaces]
    decide
  exact ⟨hsound, hplaces,
    four_errors_or_burst_refused hsound (by decide) (by decide) (Or.inl hfew)⟩

end Scm

/-! ### Interval data messages -/

namespace Idm

theorem ofPacket_ok {packet : Bytes} {m : Idm} (h : ofPacket packet = .ok m) :
    packet.length = 92 ∧ Closed packet ∧ fields packet = m := by
  rcases (language packet).accepted.1 ⟨m, h⟩ with ⟨hlength, hclosed, htype⟩
  rw [ofPacket_of_closed hlength hclosed, if_neg (not_not_intro htype)] at h
  exact ⟨hlength, hclosed, Except.ok.inj h⟩

/-- Beside a packet, another is closed exactly if the errors in it leave nothing. -/
theorem closed_iff_residual {packet other : Bytes} (hpacket : packet.length = 92)
    (hother : other.length = 92) (hclosed : Closed packet) :
    Closed other ↔ Checksum.residual crc.poly (Bits.errors 32 736 packet other) = 0 := by
  rw [← run_eq_residue_iff_closed hother]
  exact Checksum.residue_iff_residual 4 92 hpacket hother
    ((run_eq_residue_iff_closed hpacket).2 hclosed)

/-- No two bits of a packet cancel each other. -/
theorem separates : Checksum.Separates crc.poly 0 703 := by
  decide +kernel

/-- A packet that is accepted, with an odd number of wrong bits under the check, or two, or with all
wrong bits within sixteen in a row, is refused for its check, whatever its type and its first four
bytes have become. -/
theorem odd_pair_or_burst_refused {packet damaged : Bytes} {m : Idm} (h : ofPacket packet = .ok m)
    (hlength : damaged.length = 92)
    (herrors : (Bits.differing 32 736 packet damaged).length % 2 = 1 ∨
      (Bits.differing 32 736 packet damaged).length = 2 ∨
      Bits.differing 32 736 packet damaged ≠ [] ∧
        ∃ start, ∀ i ∈ Bits.differing 32 736 packet damaged, start ≤ i ∧ i < start + 16) :
    ofPacket damaged = .error (.checksum (crc.runBits (damaged.between 4 92))) := by
  rcases ofPacket_ok h with ⟨hpacket, hclosed, -⟩
  apply ofPacket_of_not_closed hlength
  have hpoly : crc.poly.toBitVec.getLsbD 0 = true := by decide
  have hparity : Checksum.parity crc.poly = true := by decide
  rw [closed_iff_residual hpacket hlength hclosed]
  rcases herrors with hodd | htwo | ⟨hwrong, start, hwithin⟩
  · apply Checksum.residual_odd hparity
    rw [Bits.count_errors]
    exact hodd
  · have hwrong : Bits.differing 32 736 packet damaged ≠ [] := by
      intro hnone
      rw [hnone] at htwo
      exact absurd htwo (by decide)
    apply Checksum.residual_few hpoly separates
    · rw [Bits.length_errors]
    · exact Bits.true_mem_errors_of_differing hwrong
    · rw [Bits.count_errors]
      exact Nat.le_of_eq htwo
  · exact Checksum.residual_within hpoly hwrong hwithin

/-- What stands behind the sync word of a packet with all fields in use and the spare bits set. -/
def soundBody : Bytes :=
  [0x1C, 0x5C, 0xC6, 0x04, 0xF7, 0x12, 0x34, 0x56, 0x78, 0x03, 0xBC, 0x01, 0x02, 0x03, 0x04,
    0x05, 0x06, 0xAB, 0xCD, 0x80, 0x00, 0x00, 0x00, 0x00, 0xFF, 0x00, 0x0F, 0x12, 0x06, 0x00,
    0x02, 0xC2, 0xC2, 0x11, 0x60, 0xDC, 0x84, 0x4D, 0x2C, 0x18, 0xCD, 0xC7, 0x94, 0x22, 0x3D,
    0x34, 0xA5, 0x58, 0x2E, 0xD8, 0xCD, 0x16, 0xE3, 0x9D, 0xE4, 0xFD, 0x84, 0x44, 0xE3, 0xD2,
    0x99, 0xA4, 0xFE, 0x95, 0x55, 0xB0, 0x5A, 0xEE, 0xD8, 0x1C, 0x66, 0x5F, 0x45, 0xAD, 0xDC,
    0x70, 0xF9, 0xDD, 0x9F, 0x27, 0xBF, 0xF5, 0x01, 0x02, 0xBE, 0xEF, 0x05, 0x2B]

/-- The packet behind a sync word. -/
def soundPacket (sync : Bytes) : Bytes := sync ++ soundBody

/-- The packet with another sync word and three bits wrong, which make it one of another type. -/
def retypedPacket : Bytes := [0, 0, 0, 0, 0x1B] ++ soundBody.drop 1

theorem ofPacket_soundPacket {sync : Bytes} (h : sync.length = 4) :
    ofPacket (soundPacket sync) = .ok (fields (soundPacket sync)) := by
  have hlength : (soundPacket sync).length = 92 := by
    rw [soundPacket, List.length_append, h]
    rfl
  have hbody : (soundPacket sync).drop 4 = soundBody := List.drop_left' h
  have hrun : crc.run soundBody = crc.residue := by
    decide +kernel
  rw [← hbody] at hrun
  have htype : byteAt (soundPacket sync) 4 = 0x1C := by
    rw [byteAt, soundPacket, List.getD_eq_getElem?_getD,
      List.getElem?_append_right (Nat.le_of_eq h), h]
    rfl
  rw [ofPacket_of_closed hlength ((run_eq_residue_iff_closed hlength).1 hrun), htype]
  rfl

theorem retyped_packet_refused :
    ofPacket (soundPacket [0x55, 0x55, 0x16, 0xA3]) =
        .ok (fields (soundPacket [0x55, 0x55, 0x16, 0xA3])) ∧
      Bits.differing 32 736 (soundPacket [0x55, 0x55, 0x16, 0xA3]) retypedPacket = [37, 38, 39] ∧
        ofPacket retypedPacket = .error (.checksum (crc.runBits (retypedPacket.between 4 92))) := by
  have hsync : ([0x55, 0x55, 0x16, 0xA3] : Bytes).length = 4 := rfl
  have hlength : retypedPacket.length = 92 := by
    decide +kernel
  have hplaces : Bits.differing 32 736 (soundPacket [0x55, 0x55, 0x16, 0xA3]) retypedPacket =
      [37, 38, 39] := by
    decide +kernel
  have hodd : (Bits.differing 32 736 (soundPacket [0x55, 0x55, 0x16, 0xA3]) retypedPacket).length
      % 2 = 1 := by
    rw [hplaces]
    rfl
  exact ⟨ofPacket_soundPacket hsync, hplaces,
    odd_pair_or_burst_refused (ofPacket_soundPacket hsync) hlength (Or.inl hodd)⟩

end Idm
end MeterRadio
