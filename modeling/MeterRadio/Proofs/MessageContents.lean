/-
Module: MeterRadio.Proofs.MessageContents
Purpose: What a message keeps of its packet. Every bit under the check is in some field, but for a
  few spare ones; those are settled by the check, so that a message has one packet, the sync word
  apart.
Main exports: Scm.Spare, Idm.Spare, Scm.bit_eq_of_fields, Idm.bit_eq_of_fields,
  message_determines_packet
-/
import MeterRadio.Proofs.BitReading
import MeterRadio.Proofs.ErrorDetection

namespace MeterRadio

/-! ### Standard consumption messages

Fields have all but a few bits, and those few lie close together. Packets that differ in nothing
else would differ in a burst, and the check shows every burst. -/

namespace Scm

/-- The bits behind the first two bytes that are in no field: the end of the sync word, and one
more. -/
def Spare (i : Nat) : Prop := 16 ≤ i ∧ i < 21 ∨ i = 23

theorem toNat_id (packet : Bytes) :
    (fields packet).id.toNat =
      (Bits.read packet 21 2).toNat * 2 ^ 24 + (Bits.read packet 56 24).toNat := by
  have hhigh := Bits.read_lt (show 2 ≤ 64 by decide) packet 21
  have hlow := Bits.read_lt (show 24 ≤ 64 by decide) packet 56
  have hup : (Bits.read packet 21 2 <<< 24).toNat = (Bits.read packet 21 2).toNat <<< 24 := by
    rw [UInt64.toNat_shiftLeft]
    apply Nat.mod_eq_of_lt
    rw [Nat.shiftLeft_eq]
    change (Bits.read packet 21 2).toNat * 2 ^ 24 < 2 ^ 64
    omega
  have hjoin : ((Bits.read packet 21 2 <<< 24) ||| Bits.read packet 56 24).toNat =
      (Bits.read packet 21 2).toNat * 2 ^ 24 + (Bits.read packet 56 24).toNat := by
    rw [UInt64.toNat_or, hup, ← Nat.shiftLeft_add_eq_or_of_lt hlow, Nat.shiftLeft_eq]
  rw [fields, UInt64.toNat_toUInt32, hjoin]
  omega

section Fields

variable {a b : Bytes}

/-- Every bit behind the first two bytes is in a field, but for the spare ones. -/
theorem bit_eq_of_fields (h : fields a = fields b) {i : Nat} (hfirst : 16 ≤ i) (hstop : i < 96)
    (hspare : ¬ Spare i) : Bits.bit a i = Bits.bit b i := by
  have hid := congrArg (fun m : Scm => m.id.toNat) h
  simp only [toNat_id] at hid
  have hlow := fun packet => Bits.read_lt (show 24 ≤ 64 by decide) packet 56
  have ha := hlow a
  have hb := hlow b
  have hupper : (Bits.read a 21 2).toNat = (Bits.read b 21 2).toNat := by omega
  have hlower : (Bits.read a 56 24).toNat = (Bits.read b 56 24).toNat := by omega
  have hbyte : ∀ {start count}, (Bits.read a start count).toUInt8 =
      (Bits.read b start count).toUInt8 → count ≤ 8 → start ≤ i → i < start + count →
        Bits.bit a i = Bits.bit b i := by
    intro start count hword hcount
    have hnumber := congrArg UInt8.toNat hword
    rw [UInt64.toNat_toUInt8, UInt64.toNat_toUInt8] at hnumber
    exact Bits.bit_eq_of_narrow hcount (by decide) hnumber
  have hconsumption := congrArg (fun m : Scm => m.consumption.toNat) h
  have hchecksum := congrArg (fun m : Scm => m.checksum.toNat) h
  simp only [fields, UInt64.toNat_toUInt32, UInt64.toNat_toUInt16] at hconsumption hchecksum
  unfold Spare at hspare
  have hplace : (21 ≤ i ∧ i < 21 + 2) ∨ (24 ≤ i ∧ i < 24 + 2) ∨ (26 ≤ i ∧ i < 26 + 4) ∨
      (30 ≤ i ∧ i < 30 + 2) ∨ (32 ≤ i ∧ i < 32 + 24) ∨ (56 ≤ i ∧ i < 56 + 24) ∨
      (80 ≤ i ∧ i < 80 + 16) := by omega
  rcases hplace with hp | hp | hp | hp | hp | hp | hp
  · exact Bits.bit_eq_of_read_eq (by decide) hupper hp.1 hp.2
  · exact hbyte (congrArg Scm.tamperPhy h) (by decide) hp.1 hp.2
  · exact hbyte (congrArg Scm.ertType h) (by decide) hp.1 hp.2
  · exact hbyte (congrArg Scm.tamperEnc h) (by decide) hp.1 hp.2
  · exact Bits.bit_eq_of_narrow (show 24 ≤ 32 by decide) (by decide) hconsumption hp.1 hp.2
  · exact Bits.bit_eq_of_read_eq (by decide) hlower hp.1 hp.2
  · exact Bits.bit_eq_of_narrow (show 16 ≤ 16 by decide) (by decide) hchecksum hp.1 hp.2

/-- The spare bits are in no field. -/
theorem fields_eq_of_bits
    (h : ∀ i, 16 ≤ i → i < 96 → ¬ Spare i → Bits.bit a i = Bits.bit b i) :
    fields a = fields b := by
  have hread : ∀ start count, 16 ≤ start → start + count ≤ 96 →
      (∀ i, start ≤ i → i < start + count → ¬ Spare i) →
        Bits.read a start count = Bits.read b start count := by
    intro start count hfirst hstop hspare
    apply Bits.read_eq_of_bits
    intro i hlow hhigh
    exact h i (by omega) (by omega) (hspare i hlow hhigh)
  unfold Spare at hread
  unfold fields
  rw [hread 21 2 (by decide) (by decide) (by omega),
    hread 56 24 (by decide) (by decide) (by omega), hread 26 4 (by decide) (by decide) (by omega),
    hread 24 2 (by decide) (by decide) (by omega), hread 30 2 (by decide) (by decide) (by omega),
    hread 32 24 (by decide) (by decide) (by omega), hread 80 16 (by decide) (by decide) (by omega)]

end Fields

/-- Closed packets that differ in spare bits at most are the same behind the first two bytes: the
spare bits lie close together. -/
theorem drop_eq_of_fields {a b : Bytes} (ha : a.length = 12) (hb : b.length = 12)
    (hclosed : Closed a) (hother : Closed b) (h : fields a = fields b) : a.drop 2 = b.drop 2 := by
  apply Bits.drop_eq_of_differing (ha.trans hb.symm) (show 8 * a.length = 96 by omega)
  by_contra hdiffer
  have hpoly : crc.poly.toBitVec.getLsbD 0 = true := by decide
  have hwithin : ∀ i ∈ Bits.differing 16 96 a b, 16 ≤ i ∧ i < 16 + 16 := by
    intro i hi
    rcases Bits.mem_differing.1 hi with ⟨hfirst, hstop, hne⟩
    have hspare : Spare i := by
      by_contra hspare
      exact hne (bit_eq_of_fields h hfirst hstop hspare)
    unfold Spare at hspare
    omega
  exact Checksum.residual_within hpoly hdiffer hwithin
    ((closed_iff_residual ha hb hclosed).1 hother)

end Scm

/-! ### Interval data messages -/

namespace Idm

/-- The bits behind the first four bytes that are in no field: the upper half of the byte with the
commodity type, and the one behind the intervals. -/
def Spare (i : Nat) : Prop := 64 ≤ i ∧ i < 68 ∨ i = 687

theorem length_slice {packet : Bytes} {start count : Nat} (h : start + count ≤ packet.length) :
    (slice packet start count).length = count := by
  rw [slice, List.length_take, List.length_drop]
  omega

theorem getD_slice (packet : Bytes) {start count k : Nat} (hstart : start ≤ k)
    (hstop : k < start + count) :
    (slice packet start count).getD (k - start) 0 = packet.getD k 0 := by
  have hplace : start + (k - start) = k := by omega
  rw [slice, List.getD_eq_getElem?_getD, List.getElem?_take_of_lt (by omega), List.getElem?_drop,
    hplace, List.getD_eq_getElem?_getD]

section Fields

variable {a b : Bytes} (ha : a.length = 92) (hb : b.length = 92)

include ha hb in
/-- A word with room for the bytes it was read from keeps them. -/
theorem slice_eq_of_word {W : Type} {toNat : W → Nat} {ofNat : Nat → W} {start count width : Nat}
    (hnumber : ∀ n, toNat (ofNat n) = n % 2 ^ width) (hcount : 8 * count ≤ width)
    (hstop : start + count ≤ 92)
    (h : ofNat (Bytes.toNat (slice a start count)) = ofNat (Bytes.toNat (slice b start count))) :
    slice a start count = slice b start count := by
  have hslice : ∀ {packet : Bytes}, packet.length = 92 →
      (slice packet start count).length = count := by
    intro packet hlength
    apply length_slice
    omega
  have hroom : ∀ {packet : Bytes}, packet.length = 92 →
      Bytes.toNat (slice packet start count) < 2 ^ width := by
    intro packet hlength
    have hlt := Bytes.toNat_lt (slice packet start count)
    rw [hslice hlength] at hlt
    exact Nat.lt_of_lt_of_le hlt (Nat.pow_le_pow_right (by decide) hcount)
  have hsame := congrArg toNat h
  rw [hnumber, hnumber, Nat.mod_eq_of_lt (hroom ha), Nat.mod_eq_of_lt (hroom hb)] at hsame
  apply Bytes.eq_of_toNat_eq _ hsame
  rw [hslice ha, hslice hb]

include ha hb in
/-- The bytes that are fields, or in one, as a whole. -/
theorem getD_eq_of_fields (h : fields a = fields b) {k : Nat}
    (hk : 4 ≤ k ∧ k < 8 ∨ 9 ≤ k ∧ k < 33 ∨ 86 ≤ k ∧ k < 92) : a.getD k 0 = b.getD k 0 := by
  have hpart : ∀ {start count}, slice a start count = slice b start count → start ≤ k →
      k < start + count → a.getD k 0 = b.getD k 0 := by
    intro start count hsame hstart hstop
    rw [← getD_slice a hstart hstop, hsame, getD_slice b hstart hstop]
  have hwide : ∀ {start}, UInt32.ofNat (Bytes.toNat (slice a start 4)) =
      UInt32.ofNat (Bytes.toNat (slice b start 4)) → start + 4 ≤ 92 → start ≤ k →
        k < start + 4 → a.getD k 0 = b.getD k 0 := fun hword hend =>
    hpart (slice_eq_of_word ha hb (fun _ => UInt32.toNat_ofNat') (Nat.le_refl 32) hend hword)
  have hnarrow : ∀ {start}, UInt16.ofNat (Bytes.toNat (slice a start 2)) =
      UInt16.ofNat (Bytes.toNat (slice b start 2)) → start + 2 ≤ 92 → start ≤ k →
        k < start + 2 → a.getD k 0 = b.getD k 0 := fun hword hend =>
    hpart (slice_eq_of_word ha hb (fun _ => UInt16.toNat_ofNat') (Nat.le_refl 16) hend hword)
  have hplace : k = 4 ∨ k = 5 ∨ k = 6 ∨ k = 7 ∨ (9 ≤ k ∧ k < 9 + 4) ∨ k = 13 ∨ k = 14 ∨
      (15 ≤ k ∧ k < 15 + 6) ∨ (21 ≤ k ∧ k < 21 + 2) ∨ (23 ≤ k ∧ k < 23 + 6) ∨
      (29 ≤ k ∧ k < 29 + 4) ∨ (86 ≤ k ∧ k < 86 + 2) ∨ (88 ≤ k ∧ k < 88 + 2) ∨
      (90 ≤ k ∧ k < 90 + 2) := by omega
  rcases hplace with rfl | rfl | rfl | rfl | hp | rfl | rfl | hp | hp | hp | hp | hp | hp | hp
  · exact congrArg Idm.packetTypeId h
  · exact congrArg Idm.packetLength h
  · exact congrArg Idm.hammingCode h
  · exact congrArg Idm.applicationVersion h
  · exact hwide (congrArg Idm.serialNumber h) (by decide) hp.1 hp.2
  · exact congrArg Idm.intervalCount h
  · exact congrArg Idm.programmingState h
  · exact hpart (congrArg Idm.tamperCounters h) hp.1 hp.2
  · exact hnarrow (congrArg Idm.asynchronousCounters h) (by decide) hp.1 hp.2
  · exact hpart (congrArg Idm.powerOutageFlags h) hp.1 hp.2
  · exact hwide (congrArg Idm.lastConsumption h) (by decide) hp.1 hp.2
  · exact hnarrow (congrArg Idm.transmitTimeOffset h) (by decide) hp.1 hp.2
  · exact hnarrow (congrArg Idm.serialNumberCrc h) (by decide) hp.1 hp.2
  · exact hnarrow (congrArg Idm.packetCrc h) (by decide) hp.1 hp.2

/-- The bits of the commodity type. -/
theorem bit_eq_of_ertType (h : fields a = fields b) {i : Nat} (hfirst : 68 ≤ i) (hstop : i < 72) :
    Bits.bit a i = Bits.bit b i := by
  have hmasked := congrArg (fun m : Idm => m.ertType.toNat.testBit (7 - i % 8)) h
  have hlow : Nat.testBit 15 (7 - i % 8) = true := by
    have hplace : i = 68 ∨ i = 69 ∨ i = 70 ∨ i = 71 := by omega
    rcases hplace with rfl | rfl | rfl | rfl <;> decide
  have hbyte : i / 8 = 8 := by omega
  simp only [fields, byteAt, UInt8.toNat_and, Nat.testBit_and, UInt8.reduceToNat, hlow,
    Bool.and_true] at hmasked
  rw [Bits.bit, Bits.bit, hbyte]
  exact hmasked

/-- The bits of the intervals. -/
theorem bit_eq_of_intervals (h : fields a = fields b) {i : Nat} (hfirst : 264 ≤ i)
    (hstop : i < 687) : Bits.bit a i = Bits.bit b i := by
  have hall : (List.range intervalTotal).map (fun k =>
        (Bits.read a (intervalStart + k * intervalBits) intervalBits).toUInt16) =
      (List.range intervalTotal).map (fun k =>
        (Bits.read b (intervalStart + k * intervalBits) intervalBits).toUInt16) :=
    congrArg Idm.intervals h
  have hk : (i - 264) / 9 ∈ List.range intervalTotal := by
    rw [List.mem_range]
    unfold intervalTotal
    omega
  have hnumber := congrArg UInt16.toNat (List.map_inj_left.1 hall _ hk)
  rw [UInt64.toNat_toUInt16, UInt64.toNat_toUInt16] at hnumber
  apply Bits.bit_eq_of_narrow (show intervalBits ≤ 16 by decide) (by decide) hnumber
  · unfold intervalStart intervalBits
    omega
  · unfold intervalStart intervalBits
    omega

include ha hb in
/-- Every bit behind the first four bytes is in a field, but for the spare ones. -/
theorem bit_eq_of_fields (h : fields a = fields b) {i : Nat} (hfirst : 32 ≤ i) (hstop : i < 736)
    (hspare : ¬ Spare i) : Bits.bit a i = Bits.bit b i := by
  unfold Spare at hspare
  have hplace : (68 ≤ i ∧ i < 72) ∨ (264 ≤ i ∧ i < 687) ∨
      (4 ≤ i / 8 ∧ i / 8 < 8 ∨ 9 ≤ i / 8 ∧ i / 8 < 33 ∨ 86 ≤ i / 8 ∧ i / 8 < 92) := by omega
  rcases hplace with hp | hp | hp
  · exact bit_eq_of_ertType h hp.1 hp.2
  · exact bit_eq_of_intervals h hp.1 hp.2
  · exact Bits.bit_eq_of_getD (getD_eq_of_fields ha hb h hp)

/-! The other way round, each field is settled by its bits. -/

include ha hb in
theorem slice_eq_of_getD {start count : Nat} (hstop : start + count ≤ 92)
    (h : ∀ k, start ≤ k → k < start + count → a.getD k 0 = b.getD k 0) :
    slice a start count = slice b start count := by
  have hla := length_slice (Nat.le_trans hstop (Nat.le_of_eq ha.symm))
  have hlb := length_slice (Nat.le_trans hstop (Nat.le_of_eq hb.symm))
  apply List.ext_getElem (hla.trans hlb.symm)
  intro j hja hjb
  have hlow : start ≤ start + j := Nat.le_add_right start j
  have hhigh : start + j < start + count := by omega
  have hsame := (getD_slice a hlow hhigh).trans
    ((h _ hlow hhigh).trans (getD_slice b hlow hhigh).symm)
  rw [Nat.add_sub_cancel_left, List.getD_eq_getElem?_getD, List.getD_eq_getElem?_getD,
    List.getElem?_eq_getElem hja, List.getElem?_eq_getElem hjb] at hsame
  exact hsame

theorem ertType_eq_of_bits (h : ∀ i, 68 ≤ i → i < 72 → Bits.bit a i = Bits.bit b i) :
    byteAt a 8 &&& 0x0F = byteAt b 8 &&& 0x0F := by
  apply UInt8.toNat_inj.1
  apply Nat.eq_of_testBit_eq
  intro j
  rw [UInt8.toNat_and, UInt8.toNat_and, Nat.testBit_and, Nat.testBit_and]
  rcases Nat.lt_or_ge j 4 with hj | hj
  · unfold byteAt
    rw [Bits.testBit_getD a 8 (by omega), Bits.testBit_getD b 8 (by omega),
      h _ (by omega) (by omega)]
  · have hclear : (UInt8.toNat 0x0F).testBit j = false :=
      Nat.testBit_lt_two_pow (Nat.lt_of_lt_of_le (show UInt8.toNat 0x0F < 2 ^ 4 by decide)
        (Nat.pow_le_pow_right (by decide) hj))
    rw [hclear, Bool.and_false, Bool.and_false]

theorem interval_eq_of_bits (h : ∀ i, 264 ≤ i → i < 687 → Bits.bit a i = Bits.bit b i) {k : Nat}
    (hk : k ∈ List.range intervalTotal) :
    (Bits.read a (intervalStart + k * intervalBits) intervalBits).toUInt16 =
      (Bits.read b (intervalStart + k * intervalBits) intervalBits).toUInt16 := by
  have hlt := List.mem_range.1 hk
  unfold intervalTotal at hlt
  unfold intervalStart intervalBits
  apply congrArg
  apply Bits.read_eq_of_bits
  intro i hlow hhigh
  exact h i (by omega) (by omega)

include ha hb in
/-- The spare bits are in no field. -/
theorem fields_eq_of_bits
    (h : ∀ i, 32 ≤ i → i < 736 → ¬ Spare i → Bits.bit a i = Bits.bit b i) :
    fields a = fields b := by
  unfold Spare at h
  have hbyte : ∀ k, (4 ≤ k ∧ k < 8 ∨ 9 ≤ k ∧ k < 33 ∨ 86 ≤ k ∧ k < 92) →
      a.getD k 0 = b.getD k 0 := by
    intro k hk
    apply Bits.getD_eq_of_bits
    intro i hlow hhigh
    exact h i (by omega) (by omega) (by omega)
  have hslice : ∀ start count, (9 ≤ start ∧ start + count ≤ 33 ∨
      86 ≤ start ∧ start + count ≤ 92) → slice a start count = slice b start count := by
    intro start count hrange
    exact slice_eq_of_getD ha hb (by omega) fun k hlow hhigh => hbyte k (by omega)
  have htype : byteAt a 8 &&& 0x0F = byteAt b 8 &&& 0x0F :=
    ertType_eq_of_bits fun i hlow hhigh => h i (by omega) (by omega) (by omega)
  have hintervals : ∀ k ∈ List.range intervalTotal,
      (Bits.read a (intervalStart + k * intervalBits) intervalBits).toUInt16 =
        (Bits.read b (intervalStart + k * intervalBits) intervalBits).toUInt16 :=
    fun k => interval_eq_of_bits fun i hlow hhigh => h i (by omega) (by omega) (by omega)
  unfold fields byteAt at *
  rw [List.map_congr_left hintervals, htype, hbyte 4 (by decide), hbyte 5 (by decide),
    hbyte 6 (by decide), hbyte 7 (by decide), hbyte 13 (by decide), hbyte 14 (by decide),
    hslice 9 4 (by decide), hslice 15 6 (by decide), hslice 21 2 (by decide),
    hslice 23 6 (by decide), hslice 29 4 (by decide), hslice 86 2 (by decide),
    hslice 88 2 (by decide), hslice 90 2 (by decide)]

end Fields

/-! ### The spare bits of interval data packets

These are too far apart for a burst. What errors in the first four leave is followed up to the place
of the last one, and no choice of them is made up for there. -/

/-- What an error at the end of the upper half byte leaves when the last spare bit is fed in. -/
theorem iterate_shift_lastError :
    (Checksum.shift crc.poly)^[619] (Checksum.lastError crc.poly) = 0xA444 := by
  have hcut : 619 = 319 + 300 := rfl
  have hfirst : (Checksum.shift crc.poly)^[300] (Checksum.lastError crc.poly) = 0xA87E := by
    decide +kernel
  have hthen : (Checksum.shift crc.poly)^[319] 0xA87E = 0xA444 := by
    decide +kernel
  rw [hcut, Function.iterate_add_apply, hfirst, hthen]

/-- No errors in the upper half byte come to a single bit at the top when the last spare bit is fed
in. -/
theorem iterate_shift_residual_ne {half : List Bool} (h : half.length = 4) :
    (Checksum.shift crc.poly)^[619] (Checksum.residual crc.poly half) ≠ 0x8000 := by
  have hall : ∀ a b c d : Bool, Checksum.wordSum crc.poly 0xA444 [a, b, c, d] ≠ 0x8000 := by
    decide +kernel
  have hreverse := Checksum.residual_reverse crc.poly half.reverse
  rw [List.reverse_reverse] at hreverse
  rw [hreverse, Checksum.iterate_shift_wordSum, iterate_shift_lastError]
  match half, h with
  | [a, b, c, d], _ => exact hall d c b a

/-- Errors in spare bits leave something in the register. -/
theorem residual_spare {a b : Bytes} (hwrong : Bits.differing 32 736 a b ≠ [])
    (hspare : ∀ i ∈ Bits.differing 32 736 a b, Spare i) :
    Checksum.residual crc.poly (Bits.errors 32 736 a b) ≠ 0 := by
  have hpoly : crc.poly.toBitVec.getLsbD 0 = true := by decide
  have hright : ∀ first stop, 32 ≤ first → stop ≤ 736 →
      (∀ i, first ≤ i → i < stop → ¬ Spare i) → true ∉ Bits.errors first stop a b := by
    intro first stop hfirst hstop hnone hmem
    rcases Bits.true_mem_errors.1 hmem with ⟨i, hlow, hhigh, hdiffer⟩
    exact hnone i hlow hhigh
      (hspare i (Bits.mem_differing.2 ⟨by omega, by omega, hdiffer⟩))
  unfold Spare at hright hspare
  have hfront := hright 32 64 (by decide) (by decide) (by omega)
  have hmiddle := hright 68 687 (by decide) (by decide) (by omega)
  have hback := hright 688 736 (by decide) (by decide) (by omega)
  by_cases hlast : Bits.bit a 687 = Bits.bit b 687
  · -- only the half byte is left, and its bits lie close together
    have hwithin : ∀ i ∈ Bits.differing 32 736 a b, 64 ≤ i ∧ i < 64 + 16 := by
      intro i hi
      have hne := (Bits.mem_differing.1 hi).2.2
      rcases hspare i hi with hhalf | rfl
      · omega
      · exact absurd hlast hne
    exact Checksum.residual_within hpoly hwrong hwithin
  · -- the last spare bit adds a bit at the top, which the others would have to come to
    have hone : Bits.errors 687 688 a b = [true] := by
      change [Bits.bit a 687 != Bits.bit b 687] = [true]
      rw [bne_iff_ne.2 hlast]
    have hsplit : Bits.errors 32 736 a b =
        [] ++ (Bits.errors 32 64 a b ++ Bits.errors 64 68 a b ++ Bits.errors 68 687 a b ++ [true])
          ++ Bits.errors 688 736 a b := by
      rw [← hone, ← Bits.errors_append a b (by decide) (by decide),
        ← Bits.errors_append a b (by decide) (by decide),
        ← Bits.errors_append a b (by decide) (by decide), List.nil_append,
        ← Bits.errors_append a b (by decide) (by decide)]
    have hhalf := iterate_shift_residual_ne (Bits.length_errors 64 68 a b)
    rw [hsplit, Ne, Checksum.residual_padded hpoly _ List.not_mem_nil hback,
      Checksum.residual_concat]
    intro hzero
    have htop := (Checksum.xor_eq_zero_iff _ _).1 (Checksum.eq_zero_of_shift hpoly hzero)
    rw [Checksum.residual, List.foldl_append, List.foldl_append,
      Checksum.foldl_feedBit_right crc.poly hmiddle, Bits.length_errors] at htop
    have hempty : (Bits.errors 32 64 a b).foldl (Checksum.feedBit crc.poly) 0 = 0 :=
      Checksum.residual_of_right crc.poly hfront
    rw [hempty] at htop
    exact hhalf htop

/-- Closed packets that differ in spare bits at most are the same behind the first four bytes. -/
theorem drop_eq_of_fields {a b : Bytes} (ha : a.length = 92) (hb : b.length = 92)
    (hclosed : Closed a) (hother : Closed b) (h : fields a = fields b) : a.drop 4 = b.drop 4 := by
  apply Bits.drop_eq_of_differing (ha.trans hb.symm) (show 8 * a.length = 736 by omega)
  by_contra hdiffer
  apply residual_spare hdiffer
  · intro i hi
    rcases Bits.mem_differing.1 hi with ⟨hfirst, hstop, hne⟩
    by_contra hspare
    exact hne (bit_eq_of_fields ha hb h hfirst hstop hspare)
  · exact (closed_iff_residual ha hb hclosed).1 hother

end Idm

/-! ### One packet for a message -/

/-- Two packets accepted with the same message agree in every byte under the check. The fields are
exactly the bits under it without the spare ones, so this rests on the check. -/
theorem message_determines_packet (a b : Bytes) :
    (∀ m, Scm.ofPacket a = .ok m → Scm.ofPacket b = .ok m → a.between 2 12 = b.between 2 12) ∧
      (∀ m, Idm.ofPacket a = .ok m → Idm.ofPacket b = .ok m → a.between 4 92 = b.between 4 92) ∧
      (Scm.fields a = Scm.fields b ↔
        ∀ i, 16 ≤ i → i < 96 → ¬ Scm.Spare i → Bits.bit a i = Bits.bit b i) ∧
      (a.length = 92 → b.length = 92 →
        (Idm.fields a = Idm.fields b ↔
          ∀ i, 32 ≤ i → i < 736 → ¬ Idm.Spare i → Bits.bit a i = Bits.bit b i)) := by
  refine ⟨?_, ?_, ?_, ?_⟩
  · intro m ha hb
    rcases Scm.ofPacket_ok ha with ⟨hlength, hclosed, hfields⟩
    rcases Scm.ofPacket_ok hb with ⟨hsize, hother, hsame⟩
    have hdrop := Scm.drop_eq_of_fields hlength hsize hclosed hother (hfields.trans hsame.symm)
    rw [Bytes.between, Bytes.between, List.take_of_length_le (Nat.le_of_eq hlength),
      List.take_of_length_le (Nat.le_of_eq hsize), hdrop]
  · intro m ha hb
    rcases Idm.ofPacket_ok ha with ⟨hlength, hclosed, hfields⟩
    rcases Idm.ofPacket_ok hb with ⟨hsize, hother, hsame⟩
    have hdrop := Idm.drop_eq_of_fields hlength hsize hclosed hother (hfields.trans hsame.symm)
    rw [Bytes.between, Bytes.between, List.take_of_length_le (Nat.le_of_eq hlength),
      List.take_of_length_le (Nat.le_of_eq hsize), hdrop]
  · exact ⟨fun h i => Scm.bit_eq_of_fields h, Scm.fields_eq_of_bits⟩
  · intro ha hb
    exact ⟨fun h i => Idm.bit_eq_of_fields ha hb h, Idm.fields_eq_of_bits ha hb⟩

/-- A sound packet with the first two bytes gone. -/
def Scm.resentPacket : Bytes := [0, 0] ++ soundPacket.drop 2

/-- A packet of each kind, and the same behind another sync word: one message each. -/
theorem resent_packets_agree :
    (∃ m, Scm.ofPacket Scm.soundPacket = .ok m ∧ Scm.ofPacket Scm.resentPacket = .ok m ∧
        Scm.soundPacket.between 2 12 = Scm.resentPacket.between 2 12) ∧
      ∃ m, Idm.ofPacket (Idm.soundPacket [0x55, 0x55, 0x16, 0xA3]) = .ok m ∧
        Idm.ofPacket (Idm.soundPacket [1, 2, 3, 4]) = .ok m ∧
          (Idm.soundPacket [0x55, 0x55, 0x16, 0xA3]).between 4 92 =
            (Idm.soundPacket [1, 2, 3, 4]).between 4 92 ∧
          ∀ i, 32 ≤ i → i < 736 → ¬ Idm.Spare i →
            Bits.bit (Idm.soundPacket [0x55, 0x55, 0x16, 0xA3]) i =
              Bits.bit (Idm.soundPacket [1, 2, 3, 4]) i := by
  have hscm : Scm.ofPacket Scm.soundPacket = .ok (Scm.fields Scm.soundPacket) := by
    decide +kernel
  have hresent : Scm.ofPacket Scm.resentPacket = .ok (Scm.fields Scm.soundPacket) := by
    decide +kernel
  have hsync : ([0x55, 0x55, 0x16, 0xA3] : Bytes).length = 4 := rfl
  have hother : ([1, 2, 3, 4] : Bytes).length = 4 := rfl
  have hidm := Idm.ofPacket_soundPacket hsync
  have hagain := Idm.ofPacket_soundPacket hother
  have hdrop : (Idm.soundPacket [1, 2, 3, 4]).drop 4 =
      (Idm.soundPacket [0x55, 0x55, 0x16, 0xA3]).drop 4 := rfl
  rw [Idm.fields_eq_of_drop hdrop] at hagain
  rcases Idm.ofPacket_ok hidm with ⟨hlength, -, -⟩
  rcases Idm.ofPacket_ok hagain with ⟨hsize, -, hfields⟩
  exact ⟨⟨_, hscm, hresent, (message_determines_packet _ _).1 _ hscm hresent⟩,
    _, hidm, hagain, (message_determines_packet _ _).2.1 _ hidm hagain,
    ((message_determines_packet _ _).2.2.2 hlength hsize).1 hfields.symm⟩

end MeterRadio
