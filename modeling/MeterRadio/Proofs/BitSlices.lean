/-
Module: MeterRadio.Proofs.BitSlices
Purpose: Reading bits is cutting a slice out of one large number. With the whole byte string read as
  that number, the bits after the slice are divided off, those before it taken off by the remainder.
Main exports: Bits.toNat_window_eq, Bits.toNat_window_add, Bits.SliceLaw, Bits.bits_read_as_slice
-/
import MeterRadio.Proofs.BitFields

namespace MeterRadio.Bits

variable {data : Bytes} {start count : Nat}

/-! ### A slice of the whole number

The bits of a byte string fall into those before a window, the window and those behind it. A
division takes off the last part and a remainder the first, wherever the bytes have their limits. -/

/-- The bits of a byte string are those before a window, the window and those after it. -/
theorem ofBytes_split (h : start + count ≤ 8 * data.length) :
    ofBytes data =
      (ofBytes data).take start ++
        (window data start count ++ (ofBytes data).drop (start + count)) := by
  rw [window_eq_slice h, ← List.drop_drop, List.take_append_drop, List.take_append_drop]

/-- A window is a slice of the number that the whole byte string is. -/
theorem toNat_window_eq (h : start + count ≤ 8 * data.length) :
    toNat (window data start count) =
      Bytes.toNat data / 2 ^ (8 * data.length - start - count) % 2 ^ count := by
  have hback : ((ofBytes data).drop (start + count)).length = 8 * data.length - start - count := by
    rw [List.length_drop, length_ofBytes]
    omega
  have hbound := toNat_lt ((ofBytes data).drop (start + count))
  have hwindow := toNat_window_lt data start count
  have hsplit := congrArg toNat (ofBytes_split h)
  rw [toNat_ofBytes, ← List.append_assoc, toNat_append, toNat_append, length_window] at hsplit
  rw [hback] at hsplit hbound
  rw [hsplit, Nat.mul_comm, Nat.mul_add_div (Nat.two_pow_pos _), Nat.div_eq_of_lt hbound,
    Nat.add_zero, Nat.mul_comm, Nat.mul_add_mod, Nat.mod_eq_of_lt hwindow]

/-- Two windows side by side are one. -/
theorem toNat_window_add (data : Bytes) (start first second : Nat) :
    toNat (window data start (first + second)) =
      toNat (window data start first) * 2 ^ second +
        toNat (window data (start + first) second) := by
  rw [window_add, toNat_append, length_window]

/-- Strings with the same slice have the same window there. -/
theorem window_eq_of_slice {other : Bytes} (h : start + count ≤ 8 * data.length)
    (hslice : ((ofBytes other).drop start).take count = ((ofBytes data).drop start).take count) :
    window other start count = window data start count := by
  have hlength := congrArg List.length hslice
  simp only [List.length_take, List.length_drop, length_ofBytes] at hlength
  rcases Nat.eq_zero_or_pos count with rfl | hpos
  · rfl
  · have hroom : start + count ≤ 8 * other.length := by omega
    rw [window_eq_slice h, window_eq_slice hroom, hslice]

/-! ### The reader -/

/-- What the bits read from a place on are, with the whole byte string as one big-endian number. -/
structure SliceLaw (data : Bytes) (start count : Nat) : Prop where
  /-- The number read is a quotient of the whole number; of more than 64 bits the last 64 remain. -/
  number : (read data start count).toNat =
    Bytes.toNat data / 2 ^ (8 * data.length - start - count) % 2 ^ min count 64
  /-- What is read at once is what is read in two parts side by side. -/
  joined : ∀ first second, first + second = count → count ≤ 64 →
    (read data start count).toNat =
      (read data start first).toNat * 2 ^ second + (read data (start + first) second).toNat
  /-- Nothing but the bits in the slice is looked at. -/
  unread : ∀ other : Bytes,
    ((ofBytes other).drop start).take count = ((ofBytes data).drop start).take count →
      read other start count = read data start count

/-- A remainder by a power of two, cut down to 64 bits. -/
theorem mod_two_pow_mod (n count : Nat) : n % 2 ^ count % 2 ^ 64 = n % 2 ^ min count 64 := by
  rcases Nat.le_total count 64 with h | h
  · have hlt : n % 2 ^ count < 2 ^ 64 :=
      Nat.lt_of_lt_of_le (Nat.mod_lt _ (Nat.two_pow_pos _))
        (Nat.pow_le_pow_right Nat.zero_lt_two h)
    rw [Nat.min_eq_left h, Nat.mod_eq_of_lt hlt]
  · rw [Nat.min_eq_right h, Nat.mod_mod_of_dvd _ (Nat.pow_dvd_pow 2 h)]

/-- Wherever the bits lie in the string, and however many they are, reading them is a division and a
remainder. -/
theorem bits_read_as_slice (h : start + count ≤ 8 * data.length) : SliceLaw data start count where
  number := by
    rw [toNat_read, toNat_window_eq h, mod_two_pow_mod]
  joined := by
    intro first second hcount hroom
    have hfirst : first ≤ 64 := by omega
    have hsecond : second ≤ 64 := by omega
    rw [toNat_read_of_le hroom, toNat_read_of_le hfirst, toNat_read_of_le hsecond, ← hcount,
      toNat_window_add]
  unread := by
    intro other hslice
    apply UInt64.toNat_inj.1
    rw [toNat_read, toNat_read, window_eq_of_slice h hslice]

/-- Ten bytes. -/
def tenBytes : Bytes := [0xFF, 0x8D, 0x48, 0x40, 0xD6, 0x01, 0x23, 0x45, 0x67, 0x89]

/-- Seventy bits across nine bytes: the upper six are lost. -/
theorem seventy_bits_read :
    3 + 70 ≤ 8 * tenBytes.length ∧
      (read tenBytes 3 70).toNat = 0xFF8D4840D60123456789 / 2 ^ 7 % 2 ^ 64 := by
  have hroom : 3 + 70 ≤ 8 * tenBytes.length := by decide
  exact ⟨hroom, (bits_read_as_slice hroom).number⟩

end MeterRadio.Bits
