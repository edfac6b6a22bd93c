/-
Module: MeterRadio.Proofs.BitPacking
Purpose: Bits packed into bytes are read back, and bytes are what their own bits pack into.
Main exports: Bits.testBit_toNat, Bits.toNat_lt, Bits.bit_pack, Bits.pack_ofBytes
-/
import Mathlib.Algebra.Order.Ring.Nat
import MeterRadio.Bits

namespace MeterRadio.Bits

/-! ### Bits as a number -/

theorem toNat_concat (bits : List Bool) (b : Bool) :
    toNat (bits ++ [b]) = 2 * toNat bits + b.toNat := by
  simp [toNat]

/-- The last bit is the least significant one. -/
theorem testBit_toNat_reverse (bits : List Bool) :
    ∀ j : Nat, (toNat bits.reverse).testBit j = bits.getD j false := by
  induction bits with
  | nil => intro j; simp [toNat]
  | cons b rest ih =>
      intro j
      have hlast := b.toNat_lt
      rw [List.reverse_cons, toNat_concat]
      cases j with
      | zero =>
          have hparity : (2 * toNat rest.reverse + b.toNat) % 2 = b.toNat := by omega
          rw [Nat.testBit_zero, List.getD_cons_zero, hparity]
          cases b <;> rfl
      | succ j =>
          have hhalf : (2 * toNat rest.reverse + b.toNat) / 2 = toNat rest.reverse := by omega
          rw [Nat.testBit_succ, hhalf, ih, List.getD_cons_succ]

/-- A bit of a number counts by its distance from the last one. -/
theorem testBit_toNat (bits : List Bool) {j : Nat} (hj : j < bits.length) :
    (toNat bits).testBit (bits.length - 1 - j) = bits.getD j false := by
  have hplace : bits.length - 1 - j < bits.length := by omega
  have hback : bits.length - 1 - (bits.length - 1 - j) = j := by omega
  have hreverse := testBit_toNat_reverse bits.reverse (bits.length - 1 - j)
  rw [List.reverse_reverse] at hreverse
  rw [hreverse, List.getD_eq_getElem?_getD, List.getElem?_reverse hplace, hback,
    ← List.getD_eq_getElem?_getD]

/-- Bits make a number of no more than their count of binary digits. -/
theorem toNat_lt (bits : List Bool) : toNat bits < 2 ^ bits.length := by
  have hreverse : ∀ l : List Bool, toNat l.reverse < 2 ^ l.length := by
    intro l
    induction l with
    | nil => simp [toNat]
    | cons b rest ih =>
        have hlast := b.toNat_lt
        rw [List.reverse_cons, toNat_concat, List.length_cons, Nat.pow_succ]
        omega
  simpa using hreverse bits.reverse

/-! ### Packed bytes -/

/-- A packed byte shows its bits from the most significant one on. -/
theorem testBit_packByte (bits : List Bool) {j : Nat} (hj : j < 8) :
    (packByte bits).toNat.testBit (7 - j) = bits.getD j false := by
  have hlt := toNat_lt ((List.range 8).map fun k => bits.getD k false)
  have htest := testBit_toNat ((List.range 8).map fun k => bits.getD k false)
    (show j < _ by simpa using hj)
  rw [List.length_map, List.length_range] at hlt htest
  rw [packByte, UInt8.toNat_ofNat_of_lt' hlt, htest]
  simp [hj]

/-- Packed bits are read back, clear beyond the last one. -/
theorem bit_pack (bits : List Bool) (i : Nat) : bit (pack bits) i = bits.getD i false := by
  unfold bit pack
  by_cases hi : i / 8 < (bits.length + 7) / 8
  · have hplace : 8 * (i / 8) + i % 8 = i := by omega
    rw [List.getD_eq_getElem?_getD, List.getElem?_map, List.getElem?_range hi, Option.map_some,
      Option.getD_some, testBit_packByte _ (by omega), List.getD_eq_getElem?_getD,
      List.getElem?_drop, hplace, ← List.getD_eq_getElem?_getD]
  · have hend : bits.length ≤ i := by omega
    rw [List.getD_eq_getElem?_getD, List.getElem?_eq_none (by simpa using hi),
      List.getD_eq_getElem?_getD, List.getElem?_eq_none hend]
    simp

/-- A byte is what its bits pack into. -/
theorem packByte_ofByte (b : UInt8) (rest : List Bool) : packByte (ofByte b ++ rest) = b := by
  apply UInt8.toNat_inj.1
  apply Nat.eq_of_testBit_eq
  intro j
  by_cases hj : j < 8
  · have hback : 7 - (7 - j) = j := by omega
    have htest := testBit_packByte (ofByte b ++ rest) (show 7 - j < 8 by omega)
    rw [hback] at htest
    rw [htest, List.getD_eq_getElem?_getD, List.getElem?_append_left (by simp; omega), ofByte,
      List.getElem?_map, List.getElem?_range (by omega), Option.map_some, Option.getD_some, hback]
  · have hsmall : ∀ c : UInt8, c.toNat < 2 ^ j := fun c =>
      Nat.lt_of_lt_of_le c.toNat_lt (Nat.pow_le_pow_right (by decide) (by omega))
    rw [Nat.testBit_lt_two_pow (hsmall _), Nat.testBit_lt_two_pow (hsmall _)]

/-- Eight more bits are one more byte. -/
theorem pack_ofByte_append (b : UInt8) (rest : List Bool) :
    pack (ofByte b ++ rest) = b :: pack rest := by
  have hcount : ((ofByte b ++ rest).length + 7) / 8 = (rest.length + 7) / 8 + 1 := by
    rw [List.length_append, length_ofByte]
    omega
  have hrest : ∀ j, (ofByte b ++ rest).drop (8 * (j + 1)) = rest.drop (8 * j) := by
    intro j
    have hplace : 8 * (j + 1) = (ofByte b).length + 8 * j := by
      rw [length_ofByte]
      omega
    rw [hplace, List.drop_append]
    simp
  rw [pack, hcount, List.range_succ_eq_map, List.map_cons, List.map_map, Nat.mul_zero,
    List.drop_zero, packByte_ofByte, pack]
  refine congrArg (List.cons b) (List.map_congr_left ?_)
  intro j _
  rw [Function.comp_apply, hrest]

/-- Bytes are what their bits pack into. -/
theorem pack_ofBytes (data : Bytes) : pack (ofBytes data) = data := by
  induction data with
  | nil => rfl
  | cons b rest ih =>
      rw [ofBytes_cons, pack_ofByte_append, ih]

theorem length_ofBytes (data : Bytes) : (ofBytes data).length = 8 * data.length := by
  induction data with
  | nil => rfl
  | cons b rest ih =>
      rw [ofBytes_cons, List.length_append, length_ofByte, ih, List.length_cons]
      omega

end MeterRadio.Bits
