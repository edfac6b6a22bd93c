/-
Module: MeterRadio.Proofs.SinglePrecision
Purpose: A strength counts units of two to the minus 24, and its single-precision word stands for
  exactly that number: every strength of the tables has at most 24 significant bits.
Main exports: Number.singleValue, Number.IsDouble, Number.Significant, Envelope.value,
  Envelope.significant_magnitude, Envelope.singleValue_word
-/
import Mathlib.Algebra.Order.Field.Rat
import Mathlib.Tactic.Ring
import MeterRadio.Proofs.Strengths

namespace MeterRadio

namespace Number

/-! ### What floating-point numbers stand for -/

/-- The number that a finite single-precision word stands for: a sign, eight bits of exponent and
23 bits of fraction. -/
def singleValue (w : UInt32) : ℚ :=
  let sign : ℚ := if w.toNat < 2 ^ 31 then 1 else -1
  let exponent : Nat := w.toNat / 2 ^ 23 % 2 ^ 8
  let fraction : Nat := w.toNat % 2 ^ 23
  if exponent = 0 then sign * (fraction : ℚ) / 2 ^ 149
  else sign * ((2 ^ 23 + fraction : Nat) : ℚ) * 2 ^ exponent / 2 ^ 150

/-- Whether a number is one of double precision: a significand of 53 bits, and an exponent in
range. -/
def IsDouble (x : ℚ) : Prop :=
  ∃ m e : ℤ, m.natAbs < 2 ^ 53 ∧ -1074 ≤ e ∧ e ≤ 971 ∧ x = m * 2 ^ e

/-! ### Significant bits

Rounding leaves a number with few significant bits: what is cut off is gone, and a significand that
is rounded up to the next power of two has one bit only. -/

/-- A number with at most `p` significant bits. -/
def Significant (p n : Nat) : Prop := ∃ m e, m < 2 ^ p ∧ n = m * 2 ^ e

theorem significant_of_lt {p n : Nat} (h : n < 2 ^ p) : Significant p n :=
  ⟨n, 0, h, (Nat.mul_one n).symm⟩

/-- A significand that was rounded up to the next power of two has one significant bit. -/
theorem significant_of_le {p m e : Nat} (hp : 0 < p) (h : m ≤ 2 ^ p) :
    Significant p (m * 2 ^ e) := by
  rcases Nat.lt_or_eq_of_le h with hlt | rfl
  · exact ⟨m, e, hlt, rfl⟩
  · refine ⟨1, p + e, Nat.one_lt_two_pow (Nat.ne_of_gt hp), ?_⟩
    rw [Nat.one_mul, Nat.pow_add]

theorem roundDiv_le {num den bound : Nat} (h : num < bound * den) : roundDiv num den ≤ bound := by
  have hq : num / den < bound := Nat.div_lt_of_lt_mul (by rwa [Nat.mul_comm])
  unfold roundDiv
  dsimp only
  split <;> omega

theorem lt_two_pow_bitLength (n : Nat) : n < 2 ^ bitLength n := by
  unfold bitLength
  split
  case isTrue h => rw [h, Nat.pow_zero]; exact Nat.one_pos
  case isFalse h => exact (Nat.log2_lt h).1 (Nat.lt_succ_self _)

/-- The leading bits of a number, with the rest cut off. -/
theorem lt_mul_two_pow (p n : Nat) : n < 2 ^ p * 2 ^ (bitLength n - p) := by
  rw [← Nat.pow_add]
  exact Nat.lt_of_lt_of_le (lt_two_pow_bitLength n)
    (Nat.pow_le_pow_right Nat.zero_lt_two (by omega))

theorem roundTo_of_le {p n : Nat} (h : 2 ^ p ≤ n) :
    roundTo p n = roundDiv n (2 ^ (bitLength n - p)) * 2 ^ (bitLength n - p) := by
  rw [roundTo, Nat.shiftLeft_eq, Nat.one_mul, if_neg (Nat.not_lt.2 h)]
  simp only [Nat.shiftLeft_eq, Nat.one_mul]

theorem significant_sqrtTo {p : Nat} (hp : 0 < p) (n : Nat) : Significant p (sqrtTo p n) := by
  have hq : sqrtFloor n / 2 ^ (bitLength (sqrtFloor n) - p) < 2 ^ p :=
    Nat.div_lt_of_lt_mul (by rw [Nat.mul_comm]; exact lt_mul_two_pow p (sqrtFloor n))
  unfold sqrtTo
  simp only [Nat.shiftLeft_eq, Nat.shiftRight_eq_div_pow]
  apply significant_of_le hp
  split <;> omega

/-- Rounding takes off less than a unit of the last of the `p` digits. -/
theorem le_roundTo {p n k : Nat} (h : n < 2 ^ k) : n ≤ roundTo p n + 2 ^ (k - p) := by
  rcases Nat.lt_or_ge n (2 ^ p) with hlt | hge
  · rw [roundTo_of_lt (by rwa [Nat.shiftLeft_eq, Nat.one_mul])]
    exact Nat.le_add_right _ _
  · have hunit : 2 ^ (bitLength n - p) ≤ 2 ^ (k - p) :=
      Nat.pow_le_pow_right Nat.zero_lt_two (Nat.sub_le_sub_right (bitLength_le h) p)
    have hquotient : n / 2 ^ (bitLength n - p) ≤ roundDiv n (2 ^ (bitLength n - p)) := by
      unfold roundDiv
      dsimp only
      split
      · exact Nat.le_succ _
      · exact Nat.le_refl _
    have hkept := Nat.mul_le_mul_right (2 ^ (bitLength n - p)) hquotient
    have hsplit := Nat.div_add_mod' n (2 ^ (bitLength n - p))
    have hrest := Nat.mod_lt n (Nat.two_pow_pos (bitLength n - p))
    rw [roundTo_of_le hge]
    omega

end Number

namespace Envelope

open Number

/-! ### Strengths have 24 significant bits -/

/-- No byte is at the offset. -/
theorem le_distance (b : UInt8) : 52429 ≤ distance b := by
  have hb : b.toNat < 256 := b.toNat_lt
  unfold distance offset
  rw [Nat.shiftLeft_eq]
  omega

/-- What is cut off from an estimate is zero: the estimate is so great that all of its 24 bits lie
before the cut. -/
theorem significant_estimate {a b : Nat} (ha : 52429 ≤ a) (hb : 52429 ≤ b) (ha' : a ≤ 16724787) :
    Significant precision (estimate a b) := by
  have hmin : 52429 ≤ min a b := Nat.le_min.2 ⟨ha, hb⟩
  have hmin' : min a b ≤ 16724787 := Nat.le_trans (Nat.min_le_left a b) ha'
  have hmax : 52429 ≤ max a b := Nat.le_trans ha (Nat.le_max_left a b)
  have hlesser : fastFactor * min a b ≤
      roundTo precision (fastFactor * min a b) + 2 ^ (48 - 24) :=
    le_roundTo (Nat.lt_of_le_of_lt (Nat.mul_le_mul_left _ hmin') (by decide))
  have hgreat : 2 ^ 41 ≤ max a b * 2 ^ 25 + roundTo precision (fastFactor * min a b) := by
    unfold fastFactor at *
    omega
  unfold estimate
  dsimp only
  rw [Nat.shiftRight_eq_div_pow, Nat.shiftLeft_eq]
  generalize max a b * 2 ^ 25 + roundTo precision (fastFactor * min a b) = sum at hgreat ⊢
  have hbits : 42 ≤ bitLength sum := by
    have hsum := lt_two_pow_bitLength sum
    by_contra hshort
    have hpow : 2 ^ bitLength sum ≤ 2 ^ 41 := Nat.pow_le_pow_right Nat.zero_lt_two (by omega)
    omega
  have hunit : 2 ^ (bitLength sum - precision) = 2 ^ (bitLength sum - precision - 18) * 2 ^ 18 := by
    rw [← Nat.pow_add]
    unfold precision
    congr 1
    omega
  rw [roundTo_of_le (Nat.le_trans (by decide) hgreat), hunit, ← Nat.mul_assoc,
    Nat.mul_div_cancel _ (Nat.two_pow_pos 18), ← hunit]
  exact significant_of_le (by decide) (roundDiv_le (lt_mul_two_pow precision sum))

/-- Estimated or exact, every strength has so many significant bits. -/
theorem significant_magnitude (mode : Mode) (i q : UInt8) :
    Significant precision (magnitude mode i q) := by
  cases mode with
  | exact => exact significant_sqrtTo (by decide) _
  | fast =>
      exact significant_estimate (le_distance i) (le_distance q) (distance_le i)

/-! ### Strengths and their words -/

/-- The number that a strength stands for. -/
def value (strength : Nat) : ℚ := strength / 2 ^ 24

/-- The significand of a strength, a bit before the point and 23 after it. -/
def significand (strength : Nat) : Nat :=
  if strength.log2 ≤ 23 then strength * 2 ^ (23 - strength.log2)
  else strength / 2 ^ (strength.log2 - 23)

/-- Nothing is cut off from the significand. -/
theorem significand_mul {m : Nat} (h : Significant precision m) :
    significand m * 2 ^ m.log2 = m * 2 ^ 23 := by
  unfold significand
  split
  case isTrue hsmall =>
    rw [Nat.mul_assoc, ← Nat.pow_add, Nat.sub_add_cancel hsmall]
  case isFalse hgreat =>
    have hcut : 2 ^ (m.log2 - 23) ∣ m := by
      obtain ⟨leading, e, hleading, rfl⟩ := h
      rcases Nat.eq_zero_or_pos leading with rfl | hpos
      · rw [Nat.zero_mul]
        exact Nat.dvd_zero _
      · have hlog : (leading * 2 ^ e).log2 ≤ 23 + e := by
          apply Nat.le_of_lt_succ
          rw [Nat.log2_lt (Nat.mul_ne_zero (Nat.ne_of_gt hpos) (Nat.ne_of_gt (Nat.two_pow_pos e)))]
          have hmul := Nat.mul_lt_mul_of_pos_right hleading (Nat.two_pow_pos e)
          rw [← Nat.pow_add] at hmul
          exact Nat.lt_of_lt_of_eq hmul (by unfold precision; congr 1; omega)
        exact Nat.dvd_mul_left_of_dvd (Nat.pow_dvd_pow 2 (by omega)) leading
    have hpow : 2 ^ m.log2 = 2 ^ (m.log2 - 23) * 2 ^ 23 := by
      rw [← Nat.pow_add]
      congr 1
      omega
    rw [hpow, ← Nat.mul_assoc, Nat.div_mul_cancel hcut]

/-- The first bit of a significand is set, and it has no more than 24 bits. -/
theorem significand_bounds {m : Nat} (hm : m ≠ 0) (h : Significant precision m) :
    2 ^ 23 ≤ significand m ∧ significand m < 2 ^ 24 := by
  have hscaled := significand_mul h
  have hunit : 0 < 2 ^ m.log2 := Nat.two_pow_pos _
  have hlow : 2 ^ m.log2 ≤ m := Nat.log2_self_le hm
  have hhigh : m < 2 ^ (m.log2 + 1) := Nat.lt_log2_self
  constructor
  · apply Nat.le_of_mul_le_mul_right _ hunit
    rw [hscaled, Nat.mul_comm]
    exact Nat.mul_le_mul_right _ hlow
  · apply Nat.lt_of_mul_lt_mul_right (a := 2 ^ m.log2)
    rw [hscaled]
    rw [Nat.pow_succ] at hhigh
    omega

theorem toNat_word {m : Nat} (hm : m ≠ 0) (hlt : m < 2 ^ 32) (h : Significant precision m) :
    (word m).toNat = (103 + m.log2) * 2 ^ 23 + (significand m - 2 ^ 23) := by
  have hlog : m.log2 < 32 := (Nat.log2_lt hm).2 hlt
  have hbounds := significand_bounds hm h
  have hexponent : 127 + m.log2 - 24 = 103 + m.log2 := by omega
  have hword : word m = UInt32.ofNat ((103 + m.log2) * 2 ^ 23 + (significand m - 2 ^ 23)) := by
    rw [word, if_neg hm]
    simp only [Nat.shiftLeft_eq, Nat.shiftRight_eq_div_pow, hexponent]
    rfl
  rw [hword, UInt32.toNat_ofNat_of_lt']
  change _ < 2 ^ 32
  omega

/-- The word of a strength stands for exactly that strength. -/
theorem singleValue_word {m : Nat} (hlt : m < 2 ^ 32) (h : Significant precision m) :
    singleValue (word m) = value m := by
  by_cases hm : m = 0
  · subst hm
    simp [word, singleValue, value]
  · have hlog : m.log2 < 32 := (Nat.log2_lt hm).2 hlt
    have hbounds := significand_bounds hm h
    have hword := toNat_word hm hlt h
    have hsign : (word m).toNat < 2 ^ 31 := by omega
    have hexponent : (word m).toNat / 2 ^ 23 % 2 ^ 8 = 103 + m.log2 := by omega
    have hfraction : 2 ^ 23 + (word m).toNat % 2 ^ 23 = significand m := by omega
    have hscaled : (significand m : ℚ) * 2 ^ m.log2 = m * 2 ^ 23 := by
      exact_mod_cast significand_mul h
    have hnormal : ¬ 103 + m.log2 = 0 := by omega
    unfold singleValue
    dsimp only
    rw [if_pos hsign, hexponent, hfraction, if_neg hnormal, one_mul]
    calc (significand m : ℚ) * 2 ^ (103 + m.log2) / 2 ^ 150
        = (significand m : ℚ) * 2 ^ m.log2 * 2 ^ 103 / 2 ^ 150 := by ring
      _ = (m : ℚ) * 2 ^ 23 * 2 ^ 103 / 2 ^ 150 := by rw [hscaled]
      _ = value m := by
          unfold value
          ring

/-- An exact sum of strengths that has room in 53 bits is a double. -/
theorem isDouble_value {n : Nat} (h : n < 2 ^ 53) : IsDouble (value n) := by
  refine ⟨n, -24, h, by decide, by decide, ?_⟩
  rw [value, div_eq_mul_inv]
  norm_cast

end Envelope
end MeterRadio
