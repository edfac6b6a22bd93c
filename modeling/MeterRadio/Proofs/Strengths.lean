/-
Module: MeterRadio.Proofs.Strengths
Purpose: The strengths of samples as the decoder looks them up: they are the magnitudes of the
  samples, one for each, and all below 256 in units of two to the minus 24.
Main exports: Envelope.magnitude_lt, Envelope.lookupAll_tableOf, Envelope.magnitudes_append,
  Envelope.length_magnitudes
-/
import Mathlib.Algebra.Order.Ring.Nat
import MeterRadio.Envelope

namespace MeterRadio

namespace Number

/-! ### Bounds on rounded numbers -/

theorem bitLength_le {n k : Nat} (h : n < 2 ^ k) : bitLength n ≤ k := by
  unfold bitLength
  by_cases hn : n = 0
  · simp [hn]
  · rw [if_neg hn]
    exact (Nat.log2_lt hn).2 h

/-- Rounding a quotient up adds less than one divisor. -/
theorem roundDiv_mul_le (num den : Nat) : roundDiv num den * den ≤ num + den := by
  have hq : num / den * den ≤ num := Nat.div_mul_le_self num den
  unfold roundDiv
  dsimp only
  split
  · rw [Nat.add_mul, Nat.one_mul]
    omega
  · omega

/-- A number of at most `k` digits moves by less than a unit of the last of its `p` digits. -/
theorem roundTo_le {p n k : Nat} (h : n < 2 ^ k) : roundTo p n ≤ n + 2 ^ (k - p) := by
  have hpow : 2 ^ (bitLength n - p) ≤ 2 ^ (k - p) :=
    Nat.pow_le_pow_right (by decide) (Nat.sub_le_sub_right (bitLength_le h) p)
  unfold roundTo
  split
  · exact Nat.le_add_right _ _
  · dsimp only
    rw [Nat.shiftLeft_eq, Nat.shiftLeft_eq, Nat.one_mul]
    have hround := roundDiv_mul_le n (2 ^ (bitLength n - p))
    omega

/-- The steps to a square root only go down. -/
theorem sqrtFrom_le (n : Nat) : ∀ fuel guess, sqrtFrom fuel n guess ≤ guess := by
  intro fuel
  induction fuel with
  | zero => intro guess; exact Nat.le_refl _
  | succ fuel ih =>
      intro guess
      rw [sqrtFrom]
      split
      · rename_i hless
        exact Nat.le_trans (ih _) (Nat.le_of_lt hless)
      · exact Nat.le_refl _

/-- Below two to the 63 a square root is at most three quarters of two to the 32. The first step is
taken from at most two to the 32, and from there it is enough. -/
theorem sqrtFloor_le {n : Nat} (h : n < 2 ^ 63) : sqrtFloor n ≤ 3 * 2 ^ 30 := by
  unfold sqrtFloor
  by_cases hn : n = 0
  · simp [hn]
  · rw [if_neg hn, Nat.shiftLeft_eq, Nat.one_mul]
    have hlength : bitLength n ≤ 63 := bitLength_le h
    rcases Nat.lt_or_ge ((bitLength n + 1) / 2) 32 with hsmall | hlarge
    · have hpow : 2 ^ ((bitLength n + 1) / 2) ≤ 2 ^ 31 :=
        Nat.pow_le_pow_right (by decide) (by omega)
      exact Nat.le_trans (sqrtFrom_le n _ _) (by omega)
    · have hguess : (bitLength n + 1) / 2 = 32 := by omega
      have hquot : n / 2 ^ 32 < 2 ^ 31 := by omega
      have hnext : (2 ^ 32 + n / 2 ^ 32) / 2 < 2 ^ 32 := by omega
      rw [hguess, sqrtFrom, if_pos hnext]
      exact Nat.le_trans (sqrtFrom_le n _ _) (by omega)

/-- The rounded square root of a number below two to the 63 is below two to the 32. -/
theorem sqrtTo_lt {n : Nat} (h : n < 2 ^ 63) : sqrtTo 24 n < 2 ^ 32 := by
  have hroot := sqrtFloor_le h
  have hlength : bitLength (sqrtFloor n) ≤ 32 := bitLength_le (by omega)
  have hpow : 2 ^ (bitLength (sqrtFloor n) - 24) ≤ 2 ^ 8 :=
    Nat.pow_le_pow_right (by decide) (by omega)
  have hq : sqrtFloor n / 2 ^ (bitLength (sqrtFloor n) - 24) *
      2 ^ (bitLength (sqrtFloor n) - 24) ≤ sqrtFloor n := Nat.div_mul_le_self _ _
  unfold sqrtTo
  simp only [Nat.shiftLeft_eq, Nat.shiftRight_eq_div_pow]
  split
  · rw [Nat.add_mul, Nat.one_mul]
    omega
  · omega

end Number

namespace Envelope

open Number

/-! ### Strengths are below 256 -/

theorem distance_le (b : UInt8) : distance b ≤ 16724787 := by
  have hb : b.toNat < 256 := b.toNat_lt
  unfold distance offset
  rw [Nat.shiftLeft_eq]
  omega

theorem norm_lt {a b : Nat} (ha : a ≤ 16724787) (hb : b ≤ 16724787) : norm a b < 2 ^ 32 := by
  have hsquare : ∀ c, c ≤ 16724787 → c * c ≤ 16724787 * 16724787 := fun c hc =>
    Nat.mul_le_mul hc hc
  have hround : ∀ c, c ≤ 16724787 → roundTo precision (c * c) ≤ c * c + 2 ^ (48 - 24) :=
    fun c hc => roundTo_le (Nat.lt_of_le_of_lt (hsquare c hc) (by decide))
  have hsa := hsquare a ha
  have hsb := hsquare b hb
  have hra := hround a ha
  have hrb := hround b hb
  have hsum := roundTo_le (p := precision) (k := 49)
    (n := roundTo precision (a * a) + roundTo precision (b * b)) (by omega)
  unfold norm
  apply sqrtTo_lt
  rw [Nat.shiftLeft_eq]
  simp only [precision] at *
  omega

theorem estimate_lt {a b : Nat} (ha : a ≤ 16724787) (hb : b ≤ 16724787) :
    estimate a b < 2 ^ 32 := by
  have hmin : min a b ≤ 16724787 := Nat.le_trans (Nat.min_le_left a b) ha
  have hmax : max a b ≤ 16724787 := Nat.max_le.2 ⟨ha, hb⟩
  have hproduct : fastFactor * min a b ≤ fastFactor * 16724787 := Nat.mul_le_mul_left _ hmin
  have hlesser := roundTo_le (p := precision) (k := 48)
    (Nat.lt_of_le_of_lt hproduct (by decide))
  have hsum := roundTo_le (p := precision) (k := 50)
    (n := (max a b <<< 25) + roundTo precision (fastFactor * min a b)) (by
      rw [Nat.shiftLeft_eq]
      simp only [precision, fastFactor] at *
      omega)
  unfold estimate
  dsimp only
  rw [Nat.shiftRight_eq_div_pow]
  rw [Nat.shiftLeft_eq] at hsum ⊢
  simp only [precision, fastFactor] at *
  omega

/-- Every strength is below 256. -/
theorem magnitude_lt (mode : Mode) (i q : UInt8) : magnitude mode i q < 2 ^ 32 := by
  cases mode with
  | exact => exact norm_lt (distance_le i) (distance_le q)
  | fast => exact estimate_lt (distance_le i) (distance_le q)

/-! ### The table -/

theorem lookup_table (mode : Mode) (i q : UInt8) :
    lookup (table mode) i q = magnitude mode i q := by
  have hi : i.toNat < 256 := i.toNat_lt
  have hq : q.toNat < 256 := q.toNat_lt
  have hplace : i.toNat * 256 + q.toNat < 65536 := by omega
  have hdiv : (i.toNat * 256 + q.toNat) / 256 = i.toNat := by omega
  have hmod : (i.toNat * 256 + q.toNat) % 256 = q.toNat := by omega
  simp [lookup, table, hplace, hdiv, hmod]

theorem lookup_tableOf (mode : Mode) (i q : UInt8) :
    lookup (tableOf mode) i q = magnitude mode i q := by
  cases mode with
  | exact => exact lookup_table .exact i q
  | fast => exact lookup_table .fast i q

/-- Looking up the samples of a byte string gives their magnitudes, in order. -/
theorem lookupAll_tableOf (mode : Mode) (bytes : Bytes) :
    ∀ done, lookupAll (tableOf mode) done bytes = done.reverse ++ magnitudes mode bytes := by
  induction bytes using magnitudes.induct with
  | case1 i q rest ih =>
      intro done
      rw [lookupAll, magnitudes, ih, lookup_tableOf, List.reverse_cons, List.append_assoc]
      rfl
  | case2 bytes hshort =>
      intro done
      rw [lookupAll, magnitudes, List.append_nil]
      · exact hshort
      · exact hshort

/-! ### Magnitudes of byte strings -/

@[simp] theorem magnitudes_nil (mode : Mode) : magnitudes mode [] = [] := rfl

@[simp] theorem magnitudes_cons (mode : Mode) (i q : UInt8) (rest : Bytes) :
    magnitudes mode (i :: q :: rest) = magnitude mode i q :: magnitudes mode rest := rfl

/-- There is one magnitude for every two bytes. -/
theorem length_magnitudes (mode : Mode) (bytes : Bytes) :
    (magnitudes mode bytes).length = bytes.length / 2 := by
  induction bytes using magnitudes.induct with
  | case1 i q rest ih =>
      simp only [magnitudes_cons, List.length_cons, ih]
      omega
  | case2 bytes hshort =>
      match bytes, hshort with
      | [], _ => rfl
      | [_], _ => simp [magnitudes]
      | i :: q :: rest, hshort => exact absurd rfl (hshort i q rest)

/-- Samples are not torn: whole samples in front have their own magnitudes. -/
theorem magnitudes_append (mode : Mode) (rest : Bytes) :
    ∀ {bytes : Bytes}, bytes.length % 2 = 0 →
      magnitudes mode (bytes ++ rest) = magnitudes mode bytes ++ magnitudes mode rest := by
  intro bytes
  induction bytes using magnitudes.induct with
  | case1 i q tail ih =>
      intro heven
      have htail : tail.length % 2 = 0 := by
        simp only [List.length_cons] at heven
        omega
      simp [ih htail]
  | case2 bytes hshort =>
      intro heven
      match bytes, hshort, heven with
      | [], _, _ => rfl
      | i :: q :: tail, hshort, _ => exact absurd rfl (hshort i q tail)

theorem magnitudes_drop (mode : Mode) (k : Nat) :
    ∀ bytes : Bytes, magnitudes mode (bytes.drop (2 * k)) = (magnitudes mode bytes).drop k := by
  induction k with
  | zero => intro bytes; rfl
  | succ k ih =>
      intro bytes
      match bytes with
      | [] => simp
      | [_] => simp [magnitudes, Nat.mul_succ]
      | i :: q :: rest => exact ih rest

theorem magnitudes_take (mode : Mode) (k : Nat) :
    ∀ bytes : Bytes, magnitudes mode (bytes.take (2 * k)) = (magnitudes mode bytes).take k := by
  induction k with
  | zero => intro bytes; rfl
  | succ k ih =>
      intro bytes
      match bytes with
      | [] => simp
      | [_] => simp [magnitudes, Nat.mul_succ]
      | i :: q :: rest => exact congrArg (magnitude mode i q :: ·) (ih rest)

/-- Zero bytes are samples like others. -/
theorem magnitudes_replicate (mode : Mode) (a : UInt8) (k : Nat) :
    magnitudes mode (List.replicate (2 * k) a) = List.replicate k (magnitude mode a a) := by
  induction k with
  | zero => rfl
  | succ k ih =>
      rw [Nat.mul_succ, List.replicate_succ, List.replicate_succ, magnitudes_cons, ih,
        List.replicate_succ]

/-- Every magnitude is that of some sample. -/
theorem exists_of_mem_magnitudes {mode : Mode} {bytes : Bytes} {m : Nat}
    (h : m ∈ magnitudes mode bytes) : ∃ i q, m = magnitude mode i q := by
  induction bytes using magnitudes.induct with
  | case1 i q rest ih =>
      rcases List.mem_cons.1 h with rfl | hrest
      · exact ⟨i, q, rfl⟩
      · exact ih hrest
  | case2 bytes hshort =>
      rw [magnitudes] at h
      · cases h
      · exact hshort

/-- All magnitudes are below 256. -/
theorem lt_of_mem_magnitudes {mode : Mode} {bytes : Bytes} {m : Nat}
    (h : m ∈ magnitudes mode bytes) : m < 2 ^ 32 := by
  rcases exists_of_mem_magnitudes h with ⟨i, q, rfl⟩
  exact magnitude_lt mode i q

end Envelope
end MeterRadio
