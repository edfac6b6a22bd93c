/-
Module: MeterRadio.Proofs.Numerals
Purpose: Decimal text is made of digits, as many as asked for where they suffice, and stands for the
  number it was written for.
Main exports: Text.digitsValue_toDigits, Text.takeWhile_isDigit_append, Text.length_zeroPadded,
  Text.digitsValue_zeroPadded
-/
import Mathlib.Algebra.Group.Nat.Defs
import MeterRadio.Text.Blank
import MeterRadio.Text.Numeral

namespace MeterRadio.Text

/-! ### Digits -/

theorem digitsValue_eq (digits : List Char) : digitsValue digits = Nat.ofDigitChars 10 digits 0 :=
  Nat.ofDigitChars_eq_foldl.symm

/-- The digits of a number make that number. -/
theorem digitsValue_toDigits (n : Nat) : digitsValue (Nat.toDigits 10 n) = n := by
  rw [digitsValue_eq]
  exact Nat.ofDigitChars_ten_toDigits

theorem isDigit_of_mem_toDigits (n : Nat) : ∀ c ∈ Nat.toDigits 10 n, c.isDigit = true :=
  fun _ h => Nat.isDigit_of_mem_toDigits (by decide) (by decide) h

/-- Only zero is written with a zero in front. -/
theorem head?_toDigits {n : Nat} (h : 0 < n) : (Nat.toDigits 10 n).head? ≠ some '0' := by
  induction n using Nat.strongRecOn with
  | ind n ih =>
      rcases Nat.lt_or_ge n 10 with hlt | hge
      · have hdigit : ∀ d < 10, 0 < d → [Nat.digitChar d].head? ≠ some '0' := by decide
        rw [Nat.toDigits_of_lt_base hlt]
        exact hdigit n hlt h
      · rw [Nat.toDigits_of_base_le (by decide) hge, List.head?_append,
          List.head?_eq_some_head Nat.toDigits_ne_nil, Option.some_or,
          ← List.head?_eq_some_head Nat.toDigits_ne_nil]
        exact ih (n / 10) (by omega) (by omega)

/-- Decimal text begins with a digit, and with no zero unless it is one. -/
theorem toDigits_eq_cons (n : Nat) :
    ∃ c rest, Nat.toDigits 10 n = c :: rest ∧ c.isDigit = true ∧ (0 < n → c ≠ '0') := by
  cases hchars : Nat.toDigits 10 n with
  | nil => exact absurd hchars Nat.toDigits_ne_nil
  | cons c rest =>
      refine ⟨c, rest, rfl, isDigit_of_mem_toDigits n c ?_, fun hn hzero => ?_⟩
      · rw [hchars]
        exact List.mem_cons_self
      · have hhead := head?_toDigits hn
        rw [hchars, hzero] at hhead
        exact hhead rfl

/-- Decimal text is read as the number it was written for. -/
theorem natural?_toDigits {limit n : Nat} (h : n ≤ limit) :
    natural? limit (Nat.toDigits 10 n) = some n := by
  have hdigits : digits? (Nat.toDigits 10 n) = some n := by
    have hsome : (Nat.toDigits 10 n).isEmpty = false :=
      List.isEmpty_eq_false_iff.2 Nat.toDigits_ne_nil
    have hall : (Nat.toDigits 10 n).all Char.isDigit = true :=
      List.all_eq_true.2 (isDigit_of_mem_toDigits n)
    rw [digits?, hsome, hall, digitsValue_toDigits]
    rfl
  obtain ⟨c, rest, hchars, hdigit, -⟩ := toDigits_eq_cons n
  have hunsigned : natural? limit (Nat.toDigits 10 n) =
      (digits? (Nat.toDigits 10 n)).bind (within limit) := by
    rw [hchars]
    unfold natural?
    split
    · next heq =>
        cases heq
        cases hdigit
    · rfl
  rw [hunsigned, hdigits, Option.bind_some, within, if_pos h]

/-- A digit is no white space. -/
theorem isBlank_of_isDigit {c : Char} (h : c.isDigit = true) : isBlank c = false := by
  rw [Char.isDigit_iff_toNat] at h
  have hlow : 48 ≤ c.toNat := h.1
  have hhigh : c.toNat ≤ 57 := h.2
  simp only [isBlank, Bool.or_eq_false_iff, Bool.and_eq_false_iff, decide_eq_false_iff_not,
    beq_eq_false_iff_ne]
  omega

/-- Digits are taken up to the first other character. -/
theorem takeWhile_isDigit_append {digits rest : List Char} (h : ∀ c ∈ digits, c.isDigit = true)
    (hrest : ∀ c ∈ rest.head?, c.isDigit = false) :
    (digits ++ rest).takeWhile Char.isDigit = digits := by
  rw [List.takeWhile_append_of_pos h]
  cases rest with
  | nil => rw [List.takeWhile_nil, List.append_nil]
  | cons c rest =>
      rw [List.takeWhile_cons_of_neg (by rw [hrest c rfl]; exact Bool.false_ne_true),
        List.append_nil]

/-! ### Digits in a column of zeros -/

section ZeroPadded

variable {width n : Nat}

theorem toList_zeroPadded (width n : Nat) :
    (zeroPadded width n).toList =
      List.replicate (width - (Nat.toDigits 10 n).length) '0' ++ Nat.toDigits 10 n := by
  rw [zeroPadded, padLeft, decimal, String.toList_ofList, String.toList_ofList]
  rfl

theorem isDigit_of_mem_zeroPadded (width n : Nat) :
    ∀ c ∈ (zeroPadded width n).toList, c.isDigit = true := by
  intro c h
  rw [toList_zeroPadded, List.mem_append] at h
  rcases h with hzero | hdigit
  · rw [List.eq_of_mem_replicate hzero]
    rfl
  · exact isDigit_of_mem_toDigits n c hdigit

theorem length_zeroPadded (hwidth : 0 < width) (h : n < 10 ^ width) :
    (zeroPadded width n).toList.length = width := by
  have hlength := (Nat.length_toDigits_le_iff (by decide) hwidth).2 h
  rw [toList_zeroPadded, List.length_append, List.length_replicate]
  omega

theorem digitsValue_zeroPadded (width n : Nat) : digitsValue (zeroPadded width n).toList = n := by
  rw [toList_zeroPadded, digitsValue_eq, Nat.ofDigitChars_append, Nat.ofDigitChars_replicate_zero,
    Nat.mul_zero, ← digitsValue_eq, digitsValue_toDigits]

/-- Padded digits begin with a digit. -/
theorem zeroPadded_eq_cons (width n : Nat) :
    ∃ c rest, (zeroPadded width n).toList = c :: rest ∧ c.isDigit = true := by
  cases hchars : (zeroPadded width n).toList with
  | nil =>
      rw [toList_zeroPadded, List.append_eq_nil_iff] at hchars
      exact absurd hchars.2 Nat.toDigits_ne_nil
  | cons c rest =>
      refine ⟨c, rest, rfl, isDigit_of_mem_zeroPadded width n c ?_⟩
      rw [hchars]
      exact List.mem_cons_self

end ZeroPadded

/-- White space is dropped only where there is some. -/
theorem trimStart_cons {c : Char} (h : isBlank c = false) (rest : List Char) :
    trimStart (c :: rest) = c :: rest := by
  rw [trimStart, List.dropWhile_cons_of_neg]
  rw [h]
  exact Bool.false_ne_true

theorem trimStart_zeroPadded (width n : Nat) (rest : List Char) :
    trimStart ((zeroPadded width n).toList ++ rest) = (zeroPadded width n).toList ++ rest := by
  rcases zeroPadded_eq_cons width n with ⟨c, digits, hchars, hdigit⟩
  rw [hchars]
  exact trimStart_cons (isBlank_of_isDigit hdigit) (digits ++ rest)

end MeterRadio.Text
