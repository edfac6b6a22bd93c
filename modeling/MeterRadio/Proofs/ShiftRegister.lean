/-
Module: MeterRadio.Proofs.ShiftRegister
Purpose: The algebra of the check register. A shift is linear, and with an odd polynomial nothing
  is lost in it; so bits fed in one by one, bytes fed in through the table, and a check compared
  with the register come to the same.
Main exports: Checksum.shift_xor, Checksum.shift_injective, Checksum.run_eq_runBits,
  Checksum.runBits_append_check
-/
import Mathlib.Data.List.Induction
import Mathlib.Logic.Function.Iterate
import Mathlib.Tactic.Ring
import MeterRadio.Checksum
import MeterRadio.Proofs.BitPacking

namespace MeterRadio

/-! ### Byte strings as numbers -/

namespace Bits

theorem toNat_append (front back : List Bool) :
    toNat (front ++ back) = toNat front * 2 ^ back.length + toNat back := by
  induction back using List.reverseRecOn with
  | nil => simp [toNat]
  | append_singleton back b ih =>
      rw [← List.append_assoc, toNat_concat, toNat_concat, ih, List.length_append,
        List.length_singleton, Nat.pow_succ]
      ring

theorem toNat_ofByte (b : UInt8) : toNat (ofByte b) = b.toNat := by
  apply Nat.eq_of_testBit_eq
  intro j
  rcases Nat.lt_or_ge j 8 with hj | hj
  · have hback : (ofByte b).length - 1 - (7 - j) = j := by
      rw [length_ofByte]
      omega
    have htest := testBit_toNat (ofByte b) (show 7 - j < _ by rw [length_ofByte]; omega)
    have hplace : 7 - (7 - j) = j := by omega
    have hrange : 7 - j < 8 := by omega
    rw [hback] at htest
    rw [htest]
    simp [ofByte, hrange, hplace]
  · have hsmall : ∀ n : Nat, n < 2 ^ 8 → n.testBit j = false := fun n hn =>
      Nat.testBit_lt_two_pow (Nat.lt_of_lt_of_le hn (Nat.pow_le_pow_right (by decide) hj))
    have hbits := toNat_lt (ofByte b)
    rw [length_ofByte] at hbits
    rw [hsmall _ hbits, hsmall _ b.toNat_lt]

/-- A byte string is the number that its bits are. -/
theorem toNat_ofBytes (data : Bytes) : toNat (ofBytes data) = Bytes.toNat data := by
  induction data using List.reverseRecOn with
  | nil => rfl
  | append_singleton front b ih =>
      have hlast : ofBytes [b] = ofByte b := by simp [ofBytes]
      rw [ofBytes_append, hlast, toNat_append, ih, toNat_ofByte, length_ofByte]
      simp [Bytes.toNat]

end Bits

namespace Checksum

/-! ### One shift -/

theorem and_top_ne_zero (r : UInt16) : (r &&& 0x8000 ≠ 0) ↔ r.toBitVec.msb = true := by
  have htop : UInt16.toBitVec 0x8000 = BitVec.twoPow 16 15 := rfl
  rw [← UInt16.toBitVec_inj.ne, UInt16.toBitVec_and, htop, BitVec.and_twoPow,
    BitVec.msb_eq_getLsbD_last]
  simp

theorem toBitVec_shift (poly r : UInt16) :
    (shift poly r).toBitVec =
      if r.toBitVec.msb then (r.toBitVec <<< 1) ^^^ poly.toBitVec else r.toBitVec <<< 1 := by
  unfold shift
  simp only [and_top_ne_zero]
  split
  · simp
  · simp

/-- A shift is linear. -/
theorem shift_xor (poly a b : UInt16) :
    shift poly (a ^^^ b) = shift poly a ^^^ shift poly b := by
  apply UInt16.toBitVec_inj.1
  rw [UInt16.toBitVec_xor, toBitVec_shift, toBitVec_shift, toBitVec_shift, UInt16.toBitVec_xor,
    BitVec.msb_xor, BitVec.shiftLeft_xor_distrib]
  generalize a.toBitVec <<< 1 = x
  generalize b.toBitVec <<< 1 = y
  generalize poly.toBitVec = z
  cases a.toBitVec.msb <;> cases b.toBitVec.msb
  · rfl
  · exact BitVec.xor_assoc x y z
  · change x ^^^ y ^^^ z = x ^^^ z ^^^ y
    ac_rfl
  · calc
      x ^^^ y = x ^^^ y ^^^ (z ^^^ z) := by rw [BitVec.xor_self, BitVec.xor_zero]
      _ = x ^^^ z ^^^ (y ^^^ z) := by ac_rfl

/-- The lowest bit after a shift tells whether an odd polynomial was added, so only the empty
register is shifted to the empty one. -/
theorem eq_zero_of_shift {poly r : UInt16} (hpoly : poly.toBitVec.getLsbD 0 = true)
    (h : shift poly r = 0) : r = 0 := by
  have hbits : ∀ i, (shift poly r).toBitVec.getLsbD i = false := by
    intro i
    rw [h]
    exact BitVec.getLsbD_zero
  apply UInt16.toBitVec_inj.1
  apply BitVec.eq_of_getLsbD_eq
  cases hmsb : r.toBitVec.msb with
  | true =>
      have hlow := hbits 0
      rw [toBitVec_shift, hmsb, if_pos rfl, BitVec.getLsbD_xor, hpoly] at hlow
      simp at hlow
  | false =>
      intro i hi
      have hnext := hbits (i + 1)
      rw [toBitVec_shift, hmsb, if_neg Bool.false_ne_true, BitVec.getLsbD_shiftLeft] at hnext
      rcases Nat.lt_or_ge (i + 1) 16 with hlt | hge
      · simpa [hlt] using hnext
      · have hlast : i = 15 := by omega
        rw [BitVec.msb_eq_getLsbD_last] at hmsb
        subst hlast
        exact hmsb

theorem xor_eq_zero_iff (a b : UInt16) : a ^^^ b = 0 ↔ a = b := by
  rw [← UInt16.toBitVec_inj, ← UInt16.toBitVec_inj, UInt16.toBitVec_xor]
  exact BitVec.xor_eq_zero_iff

/-- With an odd polynomial a shift can be undone. -/
theorem shift_injective {poly : UInt16} (hpoly : poly.toBitVec.getLsbD 0 = true) :
    Function.Injective (shift poly) := by
  intro a b h
  apply (xor_eq_zero_iff a b).1
  apply eq_zero_of_shift hpoly
  rw [shift_xor]
  exact (xor_eq_zero_iff _ _).2 h

/-! ### Several shifts -/

theorem iterate_shift_xor (poly : UInt16) (n : Nat) :
    ∀ a b, (shift poly)^[n] (a ^^^ b) = (shift poly)^[n] a ^^^ (shift poly)^[n] b := by
  induction n with
  | zero => intro a b; rfl
  | succ n ih =>
      intro a b
      rw [Function.iterate_succ_apply, shift_xor, ih]
      rfl

/-- A register without its top bit only moves up. -/
theorem shift_shiftRight (poly r : UInt16) : shift poly (r >>> 1) = r >>> 1 <<< 1 := by
  have hmsb : (r >>> 1).toBitVec.msb = false := by
    rw [BitVec.msb_eq_getLsbD_last, UInt16.toBitVec_shiftRight]
    simp
  apply UInt16.toBitVec_inj.1
  rw [toBitVec_shift, hmsb]
  simp

/-! ### Bits fed in one by one

A bit is added at the top of the register and then shifted. By linearity sixteen bits can be added
at once, and shifted afterwards. -/

/-- A bit at the top of a register. -/
def topBit (b : Bool) : UInt16 := if b then 0x8000 else 0

theorem toBitVec_topBit (b : Bool) :
    (topBit b).toBitVec = if b then BitVec.twoPow 16 15 else 0 := by
  cases b <;> rfl

/-- To feed a bit is to add it at the top and shift. -/
theorem feedBit_eq (poly r : UInt16) (b : Bool) :
    feedBit poly r b = shift poly (r ^^^ topBit b) := by
  have htop : (topBit b).toBitVec.msb = b := by
    cases b <;> rfl
  have hgone : (topBit b).toBitVec <<< 1 = 0#16 := by
    cases b <;> rfl
  have hset : decide (r &&& 0x8000 ≠ 0) = r.toBitVec.msb := by
    rw [Bool.eq_iff_iff, decide_eq_true_iff]
    exact and_top_ne_zero r
  have hdiffer : (decide (r &&& 0x8000 ≠ 0) != b) = (r ^^^ topBit b).toBitVec.msb := by
    rw [hset, UInt16.toBitVec_xor, BitVec.msb_xor, htop]
  have hup : (r ^^^ topBit b).toBitVec <<< 1 = r.toBitVec <<< 1 := by
    rw [UInt16.toBitVec_xor, BitVec.shiftLeft_xor_distrib, hgone, BitVec.xor_zero]
  apply UInt16.toBitVec_inj.1
  rw [toBitVec_shift, hup, ← hdiffer, feedBit]
  split
  · simp
  · simp

/-- Bits at the top of a register, the first one highest. -/
def aligned : List Bool → UInt16
  | [] => 0
  | b :: rest => topBit b ^^^ (aligned rest >>> 1)

theorem getLsbD_aligned (bits : List Bool) :
    ∀ i, i < 16 → (aligned bits).toBitVec.getLsbD i = bits.getD (15 - i) false := by
  induction bits with
  | nil => intro i _; simp [aligned]
  | cons b rest ih =>
      intro i hi
      have htop : (topBit b).toBitVec.getLsbD i = (decide (i = 15) && b) := by
        rw [toBitVec_topBit]
        cases b with
        | false => simp
        | true => simp [eq_comm]
      have hrest : (aligned rest >>> 1).toBitVec.getLsbD i =
          (aligned rest).toBitVec.getLsbD (i + 1) := by
        rw [UInt16.toBitVec_shiftRight]
        simp [Nat.add_comm]
      rw [aligned, UInt16.toBitVec_xor, BitVec.getLsbD_xor, htop, hrest]
      rcases Nat.lt_or_ge (i + 1) 16 with hlt | hge
      · have hplace : 15 - i = (15 - (i + 1)) + 1 := by omega
        have hne : ¬ i = 15 := by omega
        rw [ih (i + 1) hlt, hplace, List.getD_cons_succ]
        simp [hne]
      · have hlast : i = 15 := by omega
        subst hlast
        simp

/-- Bits that leave room below them only move up. -/
theorem shift_aligned_shiftRight (poly : UInt16) {bits : List Bool} (h : bits.length < 16) :
    shift poly (aligned bits >>> 1) = aligned bits := by
  have hlow : (aligned bits).toBitVec.getLsbD 0 = false := by
    rw [getLsbD_aligned bits 0 (by decide), List.getD_eq_getElem?_getD,
      List.getElem?_eq_none (by omega)]
    rfl
  rw [shift_shiftRight]
  apply UInt16.toBitVec_inj.1
  apply BitVec.eq_of_getLsbD_eq
  intro i hi
  cases i with
  | zero => simpa using hlow.symm
  | succ i => simp [hi, Nat.add_comm]

/-- As many bits as the register has can be added at its top all at once. -/
theorem foldl_feedBit (poly : UInt16) (bits : List Bool) :
    ∀ r, bits.length ≤ 16 →
      bits.foldl (feedBit poly) r = (shift poly)^[bits.length] (r ^^^ aligned bits) := by
  induction bits with
  | nil => intro r _; simp [aligned]
  | cons b rest ih =>
      intro r h
      rw [List.length_cons] at h
      have hstep : shift poly (r ^^^ topBit b ^^^ (aligned rest >>> 1)) =
          shift poly (r ^^^ topBit b) ^^^ aligned rest := by
        rw [shift_xor, shift_aligned_shiftRight poly (by omega)]
      rw [List.foldl_cons, ih _ (by omega), feedBit_eq, List.length_cons,
        Function.iterate_succ_apply, aligned, ← UInt16.xor_assoc, hstep]

/-- Sixteen bits fill the register with the number that they are. -/
theorem aligned_eq {bits : List Bool} (h : bits.length = 16) :
    aligned bits = UInt16.ofNat (Bits.toNat bits) := by
  apply UInt16.toBitVec_inj.1
  apply BitVec.eq_of_getLsbD_eq
  intro i hi
  have hback : bits.length - 1 - (15 - i) = i := by omega
  have htest := Bits.testBit_toNat bits (show 15 - i < bits.length by omega)
  rw [hback] at htest
  rw [getLsbD_aligned bits i hi, ← htest, UInt16.toBitVec_ofNat', BitVec.getLsbD_ofNat]
  simp [hi]

/-! ### Bytes through the table

The lower half of a register only moves up, and the upper half is shifted out with the byte. What
that comes to is an entry of the table, and by linearity the two are added. -/

/-- A register with room above its bits only moves up. -/
theorem toBitVec_iterate_shift (poly : UInt16) (n : Nat) :
    ∀ r : UInt16, (∀ i, 16 ≤ i + n → r.toBitVec.getLsbD i = false) →
      ((shift poly)^[n] r).toBitVec = r.toBitVec <<< n := by
  induction n with
  | zero => intro r _; simp
  | succ n ih =>
      intro r hclear
      have hmsb : r.toBitVec.msb = false := by
        rw [BitVec.msb_eq_getLsbD_last]
        exact hclear 15 (by omega)
      have hstep : (shift poly r).toBitVec = r.toBitVec <<< 1 := by
        rw [toBitVec_shift, hmsb]
        rfl
      have hroom : ∀ i, 16 ≤ i + n → (shift poly r).toBitVec.getLsbD i = false := by
        intro i hi
        rw [hstep, BitVec.getLsbD_shiftLeft]
        cases i with
        | zero => simp
        | succ i =>
            rw [Nat.add_sub_cancel, hclear i (by omega), Bool.and_false]
      rw [Function.iterate_succ_apply, ih _ hroom, hstep, ← BitVec.shiftLeft_add, Nat.add_comm]

theorem toBitVec_upper (b : UInt8) :
    (b.toUInt16 <<< 8).toBitVec = b.toBitVec.setWidth 16 <<< 8 := by
  rw [UInt16.toBitVec_shiftLeft, UInt8.toBitVec_toUInt16]
  rfl

theorem aligned_ofByte (b : UInt8) : aligned (Bits.ofByte b) = b.toUInt16 <<< 8 := by
  apply UInt16.toBitVec_inj.1
  apply BitVec.eq_of_getLsbD_eq
  intro i hi
  rw [getLsbD_aligned _ i hi, toBitVec_upper, BitVec.getLsbD_shiftLeft]
  rcases Nat.lt_or_ge i 8 with hlow | hhigh
  · have hend : (Bits.ofByte b).length ≤ 15 - i := by
      rw [Bits.length_ofByte]
      omega
    rw [List.getD_eq_getElem?_getD, List.getElem?_eq_none hend]
    simp [hlow]
  · have hplace : 7 - (15 - i) = i - 8 := by omega
    have hrange : 15 - i < 8 := by omega
    have hnot : ¬ i < 8 := by omega
    simp [Bits.ofByte, hrange, hplace, hi, hnot, BitVec.getLsbD, UInt8.toNat_toBitVec]

/-- An entry of the table is what its byte comes to, alone in the upper half. -/
theorem getD_table (poly : UInt16) (b : UInt8) :
    (table poly).getD b.toNat 0 = (shift poly)^[8] (b.toUInt16 <<< 8) := by
  have hlt := b.toNat_lt
  have hentry : (table poly)[b.toNat]? = some (shiftByte poly (UInt16.ofNat b.toNat <<< 8)) := by
    simp [table, hlt]
  have hword : UInt16.ofNat b.toNat = b.toUInt16 := by simp
  rw [Array.getD_eq_getD_getElem?, hentry, Option.getD_some, hword]
  rfl

/-- A byte through the table is its bits one by one: the lower half of the register moves up, and
the upper half is shifted out together with the byte. -/
theorem feedByte_eq (poly r : UInt16) (b : UInt8) :
    feedByte (table poly) r b = (Bits.ofByte b).foldl (feedBit poly) r := by
  let upper := (r >>> 8).toUInt8
  let lower := r ^^^ (upper.toUInt16 <<< 8)
  have hsplit : r ^^^ (b.toUInt16 <<< 8) = lower ^^^ ((upper ^^^ b).toUInt16 <<< 8) := by
    have hcancel : upper.toUInt16 <<< 8 ^^^ upper.toUInt16 <<< 8 = 0 := (xor_eq_zero_iff _ _).2 rfl
    rw [UInt8.toUInt16_xor, UInt16.shiftLeft_xor, ← UInt16.xor_assoc, UInt16.xor_assoc r, hcancel,
      UInt16.xor_zero]
  have hclear : ∀ i, 16 ≤ i + 8 → lower.toBitVec.getLsbD i = false := by
    intro i hi
    rcases Nat.lt_or_ge i 16 with hlt | hge
    · have hnot : ¬ i < 8 := by omega
      have hplace : 8 + (i - 8) = i := by omega
      have hhalf : i - 8 < 8 := by omega
      rw [UInt16.toBitVec_xor, BitVec.getLsbD_xor, toBitVec_upper, UInt16.toBitVec_toUInt8,
        UInt16.toBitVec_shiftRight]
      simp [hlt, hnot, hplace, hhalf]
    · exact BitVec.getLsbD_of_ge _ _ hge
  have hlow : (shift poly)^[8] lower = r <<< 8 := by
    apply UInt16.toBitVec_inj.1
    rw [toBitVec_iterate_shift poly 8 lower hclear, UInt16.toBitVec_xor,
      BitVec.shiftLeft_xor_distrib, toBitVec_upper, ← BitVec.shiftLeft_add]
    simp
  rw [foldl_feedBit _ _ _ (by simp), aligned_ofByte, hsplit, Bits.length_ofByte,
    iterate_shift_xor, hlow, feedByte, getD_table]

/-- The table does the work of the bits. -/
theorem run_eq_runBits (c : Checksum) (data : Bytes) : c.run data = c.runBits data := by
  unfold run runBits
  generalize c.initial = r
  induction data generalizing r with
  | nil => rfl
  | cons b rest ih =>
      rw [Bits.ofBytes_cons, List.foldl_append, ← feedByte_eq]
      exact ih _

/-! ### A check behind its payload -/

theorem runBits_append (c : Checksum) (front back : Bytes) :
    c.runBits (front ++ back) = (Bits.ofBytes back).foldl (feedBit c.poly) (c.runBits front) := by
  rw [runBits, Bits.ofBytes_append, List.foldl_append]
  rfl

/-- Two bytes fed in are compared with the register, and the difference is shifted out. -/
theorem runBits_append_check (c : Checksum) (payload : Bytes) {check : Bytes}
    (h : check.length = 2) :
    c.runBits (payload ++ check) =
      (shift c.poly)^[16] (c.runBits payload ^^^ UInt16.ofNat (Bytes.toNat check)) := by
  have hbits : (Bits.ofBytes check).length = 16 := by
    rw [Bits.length_ofBytes, h]
  rw [runBits_append, foldl_feedBit _ _ _ (Nat.le_of_eq hbits), hbits, aligned_eq hbits,
    Bits.toNat_ofBytes]

end Checksum
end MeterRadio
