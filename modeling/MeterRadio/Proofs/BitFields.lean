/-
Module: MeterRadio.Proofs.BitFields
Purpose: Fields of bits that lie in a byte string one behind the other: numbers written in them are
  read back, and numbers read from them are written the same way.
Main exports: Bits.toNat_ofNat, Bits.ofNat_toNat, Bytes.toNat_ofNat, Bits.eq_ofNat_iff,
  Bits.window_of_parts, Bits.numbers, Bits.window_eq_flatMap_iff
-/
import MeterRadio.Proofs.BitReading

namespace MeterRadio

namespace Bits

/-! ### Numbers in a field

A field is the digits of a number, the most significant one first. What is written is read back up
to the width of the field, and what is read is written again. -/

/-- The digits of a number that has more of them than the field are lost at the top. -/
theorem toNat_ofNat (width value : Nat) : toNat (ofNat width value) = value % 2 ^ width := by
  apply Nat.eq_of_testBit_eq
  intro j
  rw [Nat.testBit_mod_two_pow]
  rcases Nat.lt_or_ge j width with hj | hj
  · have hlength := length_ofNat width value
    have hplace : width - 1 - j < (ofNat width value).length := by omega
    have hback : (ofNat width value).length - 1 - (width - 1 - j) = j := by omega
    have htest := testBit_toNat (ofNat width value) hplace
    have hrange : width - 1 - j < width := by omega
    have hagain : width - 1 - (width - 1 - j) = j := by omega
    rw [hback] at htest
    rw [htest, decide_eq_true hj, Bool.true_and, ofNat, List.getD_eq_getElem?_getD,
      List.getElem?_map, List.getElem?_range hrange, Option.map_some, Option.getD_some, hagain]
  · have hlt := toNat_lt (ofNat width value)
    rw [length_ofNat] at hlt
    rw [decide_eq_false (Nat.not_lt.2 hj), Bool.false_and]
    exact Nat.testBit_lt_two_pow
      (Nat.lt_of_lt_of_le hlt (Nat.pow_le_pow_right Nat.zero_lt_two hj))

/-- Bits are the digits of the number they make. -/
theorem ofNat_toNat (bits : List Bool) : ofNat bits.length (toNat bits) = bits := by
  apply eq_of_toNat_eq (length_ofNat _ _)
  rw [toNat_ofNat, Nat.mod_eq_of_lt (toNat_lt bits)]

theorem ofNat_eight_toNat (b : UInt8) : ofNat 8 b.toNat = ofByte b := rfl

/-- The digits of a number in two parts. -/
theorem ofNat_add (high low value : Nat) :
    ofNat (high + low) value = ofNat high (value >>> low) ++ ofNat low value := by
  apply eq_of_toNat_eq
  · simp
  · rw [toNat_append, toNat_ofNat, toNat_ofNat, toNat_ofNat, length_ofNat,
      Nat.shiftRight_eq_div_pow, Nat.add_comm high low, Nat.pow_add, Nat.mod_mul,
      Nat.mul_comm, Nat.add_comm]

theorem ofByte_ofNat (value : Nat) : ofByte (UInt8.ofNat value) = ofNat 8 value := by
  apply eq_of_toNat_eq
  · simp
  · rw [toNat_ofByte, toNat_ofNat]
    exact UInt8.toNat_ofNat'

theorem ofBytes_ofNat (count value : Nat) :
    ofBytes (Bytes.ofNat count value) = ofNat (8 * count) value := by
  induction count with
  | zero => rfl
  | succ count ih =>
      have hrest : ∀ k, 8 * (count + 1 - 1 - (k + 1)) = 8 * (count - 1 - k) := by omega
      have hcons : Bytes.ofNat (count + 1) value =
          UInt8.ofNat (value >>> (8 * count)) :: Bytes.ofNat count value := by
        rw [Bytes.ofNat, List.range_succ_eq_map, List.map_cons, List.map_map]
        refine congrArg (List.cons _) (List.map_congr_left fun k _ => ?_)
        rw [Function.comp_apply, Nat.succ_eq_add_one, hrest]
      have hwidth : 8 * (count + 1) = 8 + 8 * count := by omega
      rw [hcons, ofBytes_cons, ih, ofByte_ofNat, hwidth, ofNat_add]

end Bits

/-- What is written of a number in some bytes is read back, up to what does not fit. -/
theorem Bytes.toNat_ofNat (count value : Nat) :
    toNat (ofNat count value) = value % 2 ^ (8 * count) := by
  rw [← Bits.toNat_ofBytes, Bits.ofBytes_ofNat, Bits.toNat_ofNat]

namespace Bits

/-! ### Fields and their places

A byte string put together from fields is only looked at through windows. Each lemma says what the
window over a field shows, so that a packet is never opened as a whole. -/

variable {data : Bytes} {start width : Nat}

/-- Bits are the digits of a number that has room in them if they make that number. -/
theorem eq_ofNat_iff {bits : List Bool} {value : Nat} (hlength : bits.length = width)
    (h : value < 2 ^ width) : bits = ofNat width value ↔ toNat bits = value := by
  constructor
  · rintro rfl
    rw [toNat_ofNat, Nat.mod_eq_of_lt h]
  · rintro rfl
    rw [← hlength, ofNat_toNat]

theorem window_eq_ofNat_iff {value : Nat} (h : value < 2 ^ width) :
    window data start width = ofNat width value ↔
      toNat (window data start width) = value :=
  eq_ofNat_iff (length_window data start width) h

/-- Packed bits that fill all their bytes are the bits of these bytes. -/
theorem ofBytes_pack {bits : List Bool} (h : bits.length % 8 = 0) :
    ofBytes (pack bits) = bits := by
  have hcount : 8 * ((bits.length + 7) / 8) = bits.length := by omega
  apply List.ext_getElem?
  intro i
  rw [ofBytes_eq_map, length_pack, hcount, List.getElem?_map]
  rcases Nat.lt_or_ge i bits.length with hi | hi
  · rw [List.getElem?_range hi, Option.map_some, bit_pack, List.getD_eq_getElem?_getD,
      List.getElem?_eq_getElem hi, Option.getD_some]
  · rw [List.getElem?_eq_none (by rwa [List.length_range]), List.getElem?_eq_none hi,
      Option.map_none]

theorem window_add (data : Bytes) (start first second : Nat) :
    window data start (first + second) =
      window data start first ++ window data (start + first) second := by
  rw [window, List.range_add, List.map_append, List.map_map]
  refine congrArg _ (List.map_congr_left fun k _ => ?_)
  rw [Function.comp_apply, Nat.add_assoc]

theorem window_eq_slice (h : start + width ≤ 8 * data.length) :
    window data start width = ((ofBytes data).drop start).take width := by
  have hkept : 8 * data.length = start + width + (8 * data.length - (start + width)) := by omega
  rw [ofBytes_eq_map, hkept, List.range_add, List.range_add, List.map_append, List.map_append,
    List.append_assoc, List.drop_left' (by simp), List.take_left' (by simp), window, List.map_map]
  rfl

/-- A byte string put together from fields has each of them at the place behind those before it. -/
theorem window_of_parts {parts : List (List Bool)} {lengths : List Nat}
    (h : ofBytes data = parts.flatten) (hlengths : parts.map List.length = lengths) (k : Nat)
    {part : List Bool} (hk : parts[k]? = some part) :
    window data (lengths.take k).sum (lengths.getD k 0) = part := by
  obtain ⟨hlt, rfl⟩ := List.getElem?_eq_some_iff.1 hk
  have hstart : (lengths.take k).sum = (parts.take k).flatten.length := by
    rw [← hlengths, ← List.map_take, List.length_flatten]
  have hwidth : lengths.getD k 0 = parts[k].length := by
    rw [← hlengths, List.getD_eq_getElem?_getD, List.getElem?_map, List.getElem?_eq_getElem hlt]
    rfl
  have hsplit : parts = parts.take k ++ (parts[k] :: parts.drop (k + 1)) := by
    rw [List.getElem_cons_drop, List.take_append_drop]
  have hwhole : ofBytes data =
      (parts.take k).flatten ++ (parts[k] ++ (parts.drop (k + 1)).flatten) := by
    rw [h, ← List.flatten_cons, ← List.flatten_append, ← hsplit]
  have hroom : (parts.take k).flatten.length + parts[k].length ≤ 8 * data.length := by
    rw [← length_ofBytes, hwhole, List.length_append, List.length_append]
    omega
  rw [hstart, hwidth, window_eq_slice hroom, hwhole, List.drop_left, List.take_left]

/-- The bits of some bytes of a byte string. -/
theorem window_eq_ofBytes {first count : Nat} (h : first + count ≤ data.length) :
    window data (8 * first) (8 * count) = ofBytes ((data.drop first).take count) := by
  have hlength : ((data.drop first).take count).length = count := by
    rw [List.length_take, List.length_drop]
    omega
  rw [ofBytes_eq_map, hlength]
  refine List.map_congr_left fun k hk => ?_
  have hk' : k / 8 < count := by
    have := List.mem_range.1 hk
    omega
  rw [← bit_drop, bit, bit, List.getD_eq_getElem?_getD, List.getD_eq_getElem?_getD,
    List.getElem?_take_of_lt hk']

theorem window_eq_ofByte (data : Bytes) (k : Nat) :
    window data (8 * k) 8 = ofByte (data.getD k 0) := by
  refine List.map_congr_left fun j hj => ?_
  have hlt := List.mem_range.1 hj
  rw [testBit_getD data k (by omega)]
  congr 1
  omega

/-! ### Numbers in fields of one width -/

/-- The numbers in `count` fields of one width. -/
def numbers (data : Bytes) (start width count : Nat) : List Nat :=
  (List.range count).map fun k => toNat (window data (start + k * width) width)

/-- The fields are the digits of their numbers. -/
theorem flatMap_numbers (data : Bytes) (start width count : Nat) :
    (numbers data start width count).flatMap (ofNat width) =
      window data start (count * width) := by
  have hdigits : ∀ k, ofNat width (toNat (window data (start + k * width) width)) =
      window data (start + k * width) width := by
    intro k
    have hback := ofNat_toNat (window data (start + k * width) width)
    rwa [length_window] at hback
  induction count with
  | zero =>
      rw [Nat.zero_mul]
      rfl
  | succ count ih =>
      rw [Nat.succ_mul, window_add, ← ih, numbers, List.range_succ, List.map_append,
        List.flatMap_append, List.map_singleton, List.flatMap_singleton, hdigits]
      rfl

theorem length_flatMap_ofNat (width : Nat) (values : List Nat) :
    (values.flatMap (ofNat width)).length = values.length * width := by
  induction values with
  | nil => exact (Nat.zero_mul width).symm
  | cons v rest ih =>
      rw [List.flatMap_cons, List.length_append, length_ofNat, ih, List.length_cons, Nat.succ_mul,
        Nat.add_comm]

/-- Numbers with room in their fields are told apart by the digits. -/
theorem eq_of_flatMap_ofNat {a b : List Nat} (hlength : a.length = b.length)
    (ha : ∀ v ∈ a, v < 2 ^ width) (hb : ∀ v ∈ b, v < 2 ^ width)
    (h : a.flatMap (ofNat width) = b.flatMap (ofNat width)) : a = b := by
  induction a generalizing b with
  | nil => exact (List.length_eq_zero_iff.1 hlength.symm).symm
  | cons v rest ih =>
      match b, hlength with
      | w :: others, hlength =>
          rw [List.flatMap_cons, List.flatMap_cons] at h
          obtain ⟨hdigits, htail⟩ := List.append_inj h (by simp)
          have hsame := congrArg toNat hdigits
          rw [toNat_ofNat, toNat_ofNat, Nat.mod_eq_of_lt (ha v List.mem_cons_self),
            Nat.mod_eq_of_lt (hb w List.mem_cons_self)] at hsame
          rw [hsame, ih (Nat.succ.inj hlength) (fun u hu => ha u (List.mem_cons_of_mem v hu))
            (fun u hu => hb u (List.mem_cons_of_mem w hu)) htail]

/-- A window over fields of one width shows the digits of the numbers that are read there. -/
theorem window_eq_flatMap_iff {values : List Nat} {count : Nat} (hcount : values.length = count)
    (h : ∀ v ∈ values, v < 2 ^ width) :
    window data start (count * width) = values.flatMap (ofNat width) ↔
      numbers data start width count = values := by
  rw [← flatMap_numbers]
  constructor
  · apply eq_of_flatMap_ofNat
    · rw [numbers, List.length_map, List.length_range, hcount]
    · intro v hv
      obtain ⟨k, -, rfl⟩ := List.mem_map.1 hv
      exact toNat_window_lt data _ width
    · exact h
  · rintro rfl
    rfl

end Bits
end MeterRadio
