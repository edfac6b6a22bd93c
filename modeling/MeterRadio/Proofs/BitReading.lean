/-
Module: MeterRadio.Proofs.BitReading
Purpose: A number read out of a byte string holds the bits it was read from and nothing else, so
  equal numbers come from equal bits.
Main exports: Bits.toNat_read, Bits.read_lt, Bits.bit_eq_of_read_eq, Bytes.eq_of_toNat_eq
-/
import MeterRadio.Proofs.ErrorPatterns

namespace MeterRadio

namespace Bits

/-! ### Numbers and the bits in them

Reading pushes one bit after the other into a word. So the number read is the one that the bits of
the window are, cut down to the width of the word, and the rest follows from that. -/

/-- The bits from a place on. -/
def window (data : Bytes) (start count : Nat) : List Bool :=
  (List.range count).map fun k => bit data (start + k)

@[simp] theorem length_window (data : Bytes) (start count : Nat) :
    (window data start count).length = count := by
  simp [window]

theorem window_succ (data : Bytes) (start count : Nat) :
    window data start (count + 1) = window data start count ++ [bit data (start + count)] := by
  rw [window, List.range_succ, List.map_append]
  rfl

theorem getD_window {data : Bytes} {start count k : Nat} (h : k < count) :
    (window data start count).getD k false = bit data (start + k) := by
  rw [window, List.getD_eq_getElem?_getD, List.getElem?_map, List.getElem?_range h]
  rfl

/-- A bit taken in from below; the topmost one is lost. -/
theorem toNat_pushBit (value : UInt64) (b : Bool) :
    ((value <<< 1) ||| (if b then 1 else 0)).toNat = (2 * value.toNat + b.toNat) % 2 ^ 64 := by
  have hup : (value <<< 1).toNat = (value.toNat % 2 ^ 63) <<< 1 := by
    rw [UInt64.toNat_shiftLeft, Nat.shiftLeft_eq, Nat.shiftLeft_eq]
    change value.toNat * 2 % 2 ^ 64 = value.toNat % 2 ^ 63 * 2
    omega
  have hbit : (if b then 1 else 0 : UInt64).toNat = b.toNat := by
    cases b <;> rfl
  rw [UInt64.toNat_or, hup, hbit, ← Nat.shiftLeft_add_eq_or_of_lt b.toNat_lt, Nat.shiftLeft_eq]
  have hlast := b.toNat_lt
  omega

/-- The number read is the one its bits are, as far as it has room. -/
theorem toNat_read (data : Bytes) (start count : Nat) :
    (read data start count).toNat = toNat (window data start count) % 2 ^ 64 := by
  induction count with
  | zero => rfl
  | succ count ih =>
      have hnext : read data start (count + 1) =
          (read data start count <<< 1) ||| (if bit data (start + count) then 1 else 0) := by
        rw [read, List.range_succ, List.foldl_append]
        rfl
      rw [hnext, toNat_pushBit, ih, window_succ, toNat_concat]
      omega

theorem toNat_window_lt (data : Bytes) (start width : Nat) :
    toNat (window data start width) < 2 ^ width := by
  have hlt := toNat_lt (window data start width)
  rwa [length_window] at hlt

/-- With room for all its bits nothing is lost. -/
theorem toNat_read_of_le {count : Nat} (h : count ≤ 64) (data : Bytes) (start : Nat) :
    (read data start count).toNat = toNat (window data start count) := by
  rw [toNat_read]
  exact Nat.mod_eq_of_lt (Nat.lt_of_lt_of_le (toNat_window_lt data start count)
    (Nat.pow_le_pow_right (by decide) h))

/-- What is read of so many bits has no more binary digits. -/
theorem read_lt {count : Nat} (h : count ≤ 64) (data : Bytes) (start : Nat) :
    (read data start count).toNat < 2 ^ count := by
  rw [toNat_read_of_le h]
  exact toNat_window_lt data start count

/-! ### Equal numbers come from equal bits -/

theorem eq_of_toNat_eq {a b : List Bool} (hlength : a.length = b.length)
    (h : toNat a = toNat b) : a = b := by
  apply List.ext_getElem hlength
  intro j ha hb
  have htest := testBit_toNat a ha
  rw [h, hlength, testBit_toNat b hb] at htest
  rw [List.getD_eq_getElem?_getD, List.getD_eq_getElem?_getD, List.getElem?_eq_getElem ha,
    List.getElem?_eq_getElem hb] at htest
  exact htest.symm

/-- Up to the width of a word the number read keeps every bit of the window. -/
theorem bit_eq_of_read_eq {a b : Bytes} {start count : Nat} (hcount : count ≤ 64)
    (h : (read a start count).toNat = (read b start count).toNat) {i : Nat} (hstart : start ≤ i)
    (hstop : i < start + count) : bit a i = bit b i := by
  rw [toNat_read_of_le hcount, toNat_read_of_le hcount] at h
  have hwindow := eq_of_toNat_eq (by rw [length_window, length_window]) h
  have hplace : start + (i - start) = i := by omega
  have hbit := congrArg (fun bits => bits.getD (i - start) false) hwindow
  simp only [getD_window (show i - start < count by omega), hplace] at hbit
  exact hbit

/-- A word with room for the bits read keeps them apart. -/
theorem bit_eq_of_narrow {a b : Bytes} {start count width : Nat} (hcount : count ≤ width)
    (hwidth : width ≤ 64)
    (h : (read a start count).toNat % 2 ^ width = (read b start count).toNat % 2 ^ width)
    {i : Nat} (hstart : start ≤ i) (hstop : i < start + count) : bit a i = bit b i := by
  have hroom : ∀ data, (read data start count).toNat < 2 ^ width := fun data =>
    Nat.lt_of_lt_of_le (read_lt (Nat.le_trans hcount hwidth) data start)
      (Nat.pow_le_pow_right (by decide) hcount)
  rw [Nat.mod_eq_of_lt (hroom a), Nat.mod_eq_of_lt (hroom b)] at h
  exact bit_eq_of_read_eq (Nat.le_trans hcount hwidth) h hstart hstop

theorem read_eq_of_bits {a b : Bytes} {start count : Nat}
    (h : ∀ i, start ≤ i → i < start + count → bit a i = bit b i) :
    read a start count = read b start count := by
  apply UInt64.toNat_inj.1
  rw [toNat_read, toNat_read]
  have hwindow : window a start count = window b start count := by
    apply List.map_congr_left
    intro k hk
    have hlt := List.mem_range.1 hk
    exact h (start + k) (Nat.le_add_right start k) (by omega)
  rw [hwindow]

/-! ### Bits and bytes -/

theorem bit_eq_of_getD {a b : Bytes} {i : Nat} (h : a.getD (i / 8) 0 = b.getD (i / 8) 0) :
    bit a i = bit b i := by
  rw [bit, bit, h]

theorem testBit_getD (data : Bytes) (k : Nat) {j : Nat} (hj : j < 8) :
    (data.getD k 0).toNat.testBit j = bit data (8 * k + (7 - j)) := by
  have hbyte : (8 * k + (7 - j)) / 8 = k := by omega
  have hplace : 7 - (8 * k + (7 - j)) % 8 = j := by omega
  rw [bit, hbyte, hplace]

theorem getD_eq_of_bits {a b : Bytes} {k : Nat}
    (h : ∀ i, 8 * k ≤ i → i < 8 * k + 8 → bit a i = bit b i) : a.getD k 0 = b.getD k 0 := by
  apply UInt8.toNat_inj.1
  apply Nat.eq_of_testBit_eq
  intro j
  rcases Nat.lt_or_ge j 8 with hj | hj
  · rw [testBit_getD a k hj, testBit_getD b k hj]
    exact h _ (Nat.le_add_right _ _) (by omega)
  · have hsmall : ∀ c : UInt8, c.toNat < 2 ^ j := fun c =>
      Nat.lt_of_lt_of_le c.toNat_lt (Nat.pow_le_pow_right (by decide) hj)
    rw [Nat.testBit_lt_two_pow (hsmall _), Nat.testBit_lt_two_pow (hsmall _)]

end Bits

/-- Byte strings of one length are equal if they are the same number. -/
theorem Bytes.eq_of_toNat_eq {a b : Bytes} (hlength : a.length = b.length)
    (h : toNat a = toNat b) : a = b := by
  rw [← Bits.toNat_ofBytes, ← Bits.toNat_ofBytes] at h
  have hbits := Bits.eq_of_toNat_eq (by rw [Bits.length_ofBytes, Bits.length_ofBytes, hlength]) h
  rw [← Bits.pack_ofBytes a, ← Bits.pack_ofBytes b, hbits]

theorem Bytes.toNat_lt (data : Bytes) : toNat data < 2 ^ (8 * data.length) := by
  rw [← Bits.toNat_ofBytes, ← Bits.length_ofBytes]
  exact Bits.toNat_lt _

end MeterRadio
