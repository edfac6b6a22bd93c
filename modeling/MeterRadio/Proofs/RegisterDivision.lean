/-
Module: MeterRadio.Proofs.RegisterDivision
Purpose: A check register divides. Over the field of two elements the register after a byte string
  is the remainder, by the generator, of the string's bits sixteen places up and the initial
  register in front of them. So the registers of two strings of one length add up to that of their
  sum.
Main exports: Checksum.ofRegister, Checksum.generator, Checksum.feedBit_division,
  Checksum.runBits_division, Checksum.run_xor_run, Checksum.table_divides
-/
import Mathlib.Algebra.Field.ZMod
import Mathlib.Algebra.Polynomial.Div
import MeterRadio.Message.Idm
import MeterRadio.Proofs.ErrorPatterns

namespace MeterRadio

/-! ### Sums of byte strings -/

namespace Bits

theorem ofByte_xor (a b : UInt8) :
    ofByte (a ^^^ b) = List.zipWith (· != ·) (ofByte a) (ofByte b) := by
  rw [ofByte, ofByte, ofByte, List.zipWith_map, List.zipWith_self]
  refine List.map_congr_left fun k _ => ?_
  rw [UInt8.toNat_xor, Nat.testBit_xor]

theorem ofBytes_xor {a b : Bytes} (h : a.length = b.length) :
    ofBytes (List.zipWith (· ^^^ ·) a b) = List.zipWith (· != ·) (ofBytes a) (ofBytes b) := by
  induction a generalizing b with
  | nil => rfl
  | cons x rest ih =>
      cases b with
      | nil => cases h
      | cons y others =>
          have hlength : (ofByte x).length = (ofByte y).length := by simp
          calc
            ofBytes (List.zipWith (· ^^^ ·) (x :: rest) (y :: others))
                = ofByte (x ^^^ y) ++ ofBytes (List.zipWith (· ^^^ ·) rest others) := rfl
            _ = List.zipWith (· != ·) (ofByte x) (ofByte y) ++
                  List.zipWith (· != ·) (ofBytes rest) (ofBytes others) := by
                rw [ofByte_xor, ih (Nat.succ.inj h)]
            _ = List.zipWith (· != ·) (ofBytes (x :: rest)) (ofBytes (y :: others)) :=
                (List.zipWith_append hlength).symm

end Bits

namespace Checksum

open Polynomial

/-- Registers are added as the strings fed into them are. -/
theorem run_xor_run (c : Checksum) {a b : Bytes} (h : a.length = b.length) :
    c.run a ^^^ c.run b = { c with initial := 0 }.run (List.zipWith (· ^^^ ·) a b) := by
  have hbits : (Bits.ofBytes a).length = (Bits.ofBytes b).length := by
    rw [Bits.length_ofBytes, Bits.length_ofBytes, h]
  have hlinear := foldl_feedBit_xor c.poly Prod.fst Prod.snd
    ((Bits.ofBytes a).zip (Bits.ofBytes b)) c.initial c.initial
  rw [List.map_fst_zip (Nat.le_of_eq hbits), List.map_snd_zip (Nat.le_of_eq hbits.symm),
    UInt16.xor_self] at hlinear
  rw [run_eq_runBits, run_eq_runBits, run_eq_runBits, runBits, runBits, runBits, hlinear,
    Bits.ofBytes_xor h, List.zip, List.map_zipWith]

/-! ### Polynomials over the field of two elements -/

/-- A bit as an element of the field. -/
def coefficient (b : Bool) : ZMod 2 := if b then 1 else 0

theorem coefficient_bne (a b : Bool) : coefficient (a != b) = coefficient a + coefficient b := by
  cases a <;> cases b <;> decide

/-- Bits as a polynomial, the first one at the highest power. -/
noncomputable def ofBits (bits : List Bool) : (ZMod 2)[X] :=
  bits.foldl (fun p b => p * X + C (coefficient b)) 0

/-- A register as a polynomial, its lowest bit at the power zero. -/
noncomputable def ofRegister (r : UInt16) : (ZMod 2)[X] :=
  ∑ i ∈ Finset.range 16, monomial i (coefficient (r.toBitVec.getLsbD i))

/-- The divisor of a check: what its polynomial leaves unsaid is the highest power. -/
noncomputable def generator (poly : UInt16) : (ZMod 2)[X] := X ^ 16 + ofRegister poly

theorem coeff_ofRegister (r : UInt16) (i : Nat) :
    (ofRegister r).coeff i = coefficient (r.toBitVec.getLsbD i) := by
  rw [ofRegister, finsetSum_coeff]
  simp only [coeff_monomial, Finset.sum_ite_eq', Finset.mem_range]
  split
  · rfl
  · next h =>
      rw [BitVec.getLsbD_of_ge _ _ (Nat.not_lt.1 h)]
      rfl

theorem degree_ofRegister_lt (r : UInt16) : (ofRegister r).degree < 16 := by
  apply (degree_lt_iff_coeff_zero _ _).2
  intro i hi
  rw [coeff_ofRegister, BitVec.getLsbD_of_ge _ _ hi]
  rfl

theorem generator_monic (poly : UInt16) : (generator poly).Monic :=
  monic_X_pow_add (degree_ofRegister_lt poly)

theorem degree_generator (poly : UInt16) : (generator poly).degree = 16 := by
  have hlow : (ofRegister poly).degree < (X ^ 16 : (ZMod 2)[X]).degree := by
    rw [degree_X_pow]
    exact degree_ofRegister_lt poly
  rw [generator, degree_add_eq_left_of_degree_lt hlow, degree_X_pow]
  rfl

theorem ofRegister_xor (a b : UInt16) : ofRegister (a ^^^ b) = ofRegister a + ofRegister b := by
  ext i
  rw [coeff_add, coeff_ofRegister, coeff_ofRegister, coeff_ofRegister, UInt16.toBitVec_xor,
    BitVec.getLsbD_xor]
  exact coefficient_bne _ _

theorem ofRegister_topBit (b : Bool) : ofRegister (topBit b) = monomial 15 (coefficient b) := by
  ext i
  rw [coeff_ofRegister, coeff_monomial, toBitVec_topBit]
  cases b with
  | false => simp [coefficient]
  | true =>
      rw [if_pos rfl, BitVec.getLsbD_twoPow]
      simp [coefficient]

/-- A bit that is moved out at the top is missing at the sixteenth power. -/
theorem ofRegister_shiftLeft (r : UInt16) :
    ofRegister (r <<< 1) = ofRegister r * X + monomial 16 (coefficient r.toBitVec.msb) := by
  have hup : (r <<< 1).toBitVec = r.toBitVec <<< 1 := by simp
  ext i
  rw [coeff_add, coeff_ofRegister, coeff_monomial, hup, BitVec.getLsbD_shiftLeft]
  cases i with
  | zero =>
      rw [coeff_mul_X_zero]
      simp [coefficient]
  | succ i =>
      rw [coeff_mul_X, coeff_ofRegister]
      rcases Nat.lt_trichotomy i 15 with h | rfl | h
      · simp [show i + 1 < 16 by omega, show ¬ 16 = i + 1 by omega]
      · rw [BitVec.msb_eq_getLsbD_last]
        simp [coefficient, CharTwo.add_self_eq_zero]
      · rw [BitVec.getLsbD_of_ge r.toBitVec i (by omega)]
        simp [coefficient, show ¬ i + 1 < 16 by omega, show ¬ 16 = i + 1 by omega]

/-! ### Division

The invariant of a long division: the bits fed in, sixteen places up and with the initial register
in front of them, are a multiple of the generator and the register. A bit more is one step. -/

/-- The register moved up by one power, with the generator taken off if that reaches its degree. -/
theorem shift_division (poly r : UInt16) :
    ofRegister r * X =
      C (coefficient r.toBitVec.msb) * generator poly + ofRegister (shift poly r) := by
  have hshift : ofRegister (shift poly r) =
      ofRegister (r <<< 1) + C (coefficient r.toBitVec.msb) * ofRegister poly := by
    unfold shift
    simp only [and_top_ne_zero]
    cases r.toBitVec.msb with
    | true => simp [ofRegister_xor, coefficient]
    | false => simp [coefficient]
  rw [hshift, ofRegister_shiftLeft, generator, mul_add, C_mul_X_pow_eq_monomial]
  -- What is taken off twice is not taken off, for one and one are nothing in this field.
  generalize monomial 16 (coefficient r.toBitVec.msb) = top
  generalize C (coefficient r.toBitVec.msb) * ofRegister poly = rest
  calc
    ofRegister r * X = ofRegister r * X + (top + top) + (rest + rest) := by
      rw [CharTwo.add_self_eq_zero, CharTwo.add_self_eq_zero, add_zero, add_zero]
    _ = top + rest + (ofRegister r * X + top + rest) := by ring

/-- One step of the division: a bit comes in at the top and the register moves up. -/
theorem feedBit_division (poly r : UInt16) (b : Bool) :
    ofRegister r * X + C (coefficient b) * X ^ 16 =
      C (coefficient (r ^^^ topBit b).toBitVec.msb) * generator poly +
        ofRegister (feedBit poly r b) := by
  rw [feedBit_eq, ← shift_division, ofRegister_xor, ofRegister_topBit, add_mul, monomial_mul_X,
    C_mul_X_pow_eq_monomial]

theorem ofBits_concat (bits : List Bool) (b : Bool) :
    ofBits (bits ++ [b]) = ofBits bits * X + C (coefficient b) := by
  rw [ofBits, List.foldl_append]
  rfl

/-- All the steps together make a quotient, and the register is what is left. -/
theorem foldl_feedBit_division (poly r : UInt16) (bits : List Bool) :
    ∃ quotient, ofRegister r * X ^ bits.length + ofBits bits * X ^ 16 =
      quotient * generator poly + ofRegister (bits.foldl (feedBit poly) r) := by
  induction bits using List.reverseRecOn with
  | nil => exact ⟨0, by simp [ofBits]⟩
  | append_singleton bits b ih =>
      obtain ⟨quotient, hquotient⟩ := ih
      have hstep := feedBit_division poly (bits.foldl (feedBit poly) r) b
      rw [List.foldl_append, List.length_append, ofBits_concat]
      generalize bits.foldl (feedBit poly) r = s at hquotient hstep
      refine ⟨quotient * X + C (coefficient (s ^^^ topBit b).toBitVec.msb), ?_⟩
      calc
        ofRegister r * X ^ (bits.length + 1) + (ofBits bits * X + C (coefficient b)) * X ^ 16
            = (ofRegister r * X ^ bits.length + ofBits bits * X ^ 16) * X +
                C (coefficient b) * X ^ 16 := by ring
        _ = quotient * X * generator poly +
              (ofRegister s * X + C (coefficient b) * X ^ 16) := by
            rw [hquotient]
            ring
        _ = (quotient * X + C (coefficient (s ^^^ topBit b).toBitVec.msb)) * generator poly +
              ofRegister (feedBit poly s b) := by
            rw [hstep]
            ring

/-- The register after a byte string is the remainder of its division by the generator. -/
theorem runBits_division (c : Checksum) (data : Bytes) :
    ofRegister (c.runBits data) =
      (ofRegister c.initial * X ^ (8 * data.length) + ofBits (Bits.ofBytes data) * X ^ 16) %ₘ
        generator c.poly := by
  obtain ⟨quotient, hquotient⟩ := foldl_feedBit_division c.poly c.initial (Bits.ofBytes data)
  have hdegree : (ofRegister (c.runBits data)).degree < (generator c.poly).degree := by
    rw [degree_generator]
    exact degree_ofRegister_lt _
  rw [Bits.length_ofBytes] at hquotient
  refine (div_modByMonic_unique quotient _ (generator_monic c.poly) ⟨?_, hdegree⟩).2.symm
  rw [hquotient, add_comm, mul_comm]
  rfl

/-- The table does what the bits one by one do, which is to divide: the register is the remainder by
the generator. And the registers of two strings of one length add up to that of the strings' sum,
fed into an empty register. -/
theorem table_divides (c : Checksum) (data : Bytes) :
    c.run data = c.runBits data ∧
      ofRegister (c.run data) =
        (ofRegister c.initial * X ^ (8 * data.length) + ofBits (Bits.ofBytes data) * X ^ 16) %ₘ
          generator c.poly ∧
      ∀ other : Bytes, data.length = other.length →
        c.run data ^^^ c.run other =
          { c with initial := 0 }.run (List.zipWith (· ^^^ ·) data other) := by
  refine ⟨run_eq_runBits c data, ?_, fun other hlength => run_xor_run c hlength⟩
  rw [run_eq_runBits]
  exact runBits_division c data

/-- The nine digits from one upwards, as characters. -/
def nineDigits : Bytes := [0x31, 0x32, 0x33, 0x34, 0x35, 0x36, 0x37, 0x38, 0x39]

/-- The known check value of the nine digits, and its sum with that of the digits downwards. -/
theorem nineDigits_divided :
    nineDigits.length = nineDigits.reverse.length ∧
      Idm.crc.run nineDigits = 0x29B1 ∧
      Idm.crc.run nineDigits ^^^ Idm.crc.run nineDigits.reverse =
        { Idm.crc with initial := 0 }.run
          (List.zipWith (· ^^^ ·) nineDigits nineDigits.reverse) := by
  obtain ⟨hbits, -, hsum⟩ := table_divides Idm.crc nineDigits
  exact ⟨by decide, hbits.trans (by decide +kernel), hsum _ (by decide)⟩

end Checksum
end MeterRadio
