/-
Module: MeterRadio.Proofs.ErrorPatterns
Purpose: What wrong bits leave in the check register. The register is linear, so two byte strings of
  one length end at the same register exactly if the bits in which they differ, fed into an empty
  register, leave it empty. Errors close together, an odd number of them and a few far apart do not.
Main exports: Bits.differing, Bits.errors, Checksum.residual, Checksum.run_drop_eq_iff_residual,
  Checksum.residual_burst, Checksum.residual_odd, Checksum.Separates, Checksum.residual_few
-/
import Mathlib.Data.List.Count
import MeterRadio.Proofs.ShiftRegister

namespace MeterRadio

/-! ### Bits that differ -/

namespace Bits

/-- The bit places from one up to another at which two byte strings differ. -/
def differing (first stop : Nat) (a b : Bytes) : List Nat :=
  (List.range' first (stop - first)).filter fun i => bit a i != bit b i

/-- Whether two byte strings differ, for each bit place from one up to another. -/
def errors (first stop : Nat) (a b : Bytes) : List Bool :=
  (List.range' first (stop - first)).map fun i => bit a i != bit b i

@[simp] theorem length_errors (first stop : Nat) (a b : Bytes) :
    (errors first stop a b).length = stop - first := by
  simp [errors]

theorem count_errors (first stop : Nat) (a b : Bytes) :
    (errors first stop a b).count true = (differing first stop a b).length := by
  rw [errors, differing, List.count_eq_countP, List.countP_map, List.countP_eq_length_filter]
  congr 2
  funext i
  simp

theorem mem_differing {first stop : Nat} {a b : Bytes} {i : Nat} :
    i ∈ differing first stop a b ↔ first ≤ i ∧ i < stop ∧ bit a i ≠ bit b i := by
  rw [differing, List.mem_filter, List.mem_range'_1, bne_iff_ne]
  constructor
  · rintro ⟨⟨hfirst, hstop⟩, hdiffer⟩
    exact ⟨hfirst, by omega, hdiffer⟩
  · rintro ⟨hfirst, hstop, hdiffer⟩
    exact ⟨⟨hfirst, by omega⟩, hdiffer⟩

theorem true_mem_errors {first stop : Nat} {a b : Bytes} :
    true ∈ errors first stop a b ↔ ∃ i, first ≤ i ∧ i < stop ∧ bit a i ≠ bit b i := by
  have hmem : true ∈ errors first stop a b ↔ ∃ i, i ∈ differing first stop a b := by
    simp [errors, differing]
  rw [hmem]
  simp only [mem_differing]

theorem errors_append {first mid stop : Nat} (a b : Bytes) (hfirst : first ≤ mid)
    (hmid : mid ≤ stop) :
    errors first stop a b = errors first mid a b ++ errors mid stop a b := by
  have hcount : stop - first = (mid - first) + (stop - mid) := by omega
  have hstart : first + (mid - first) = mid := by omega
  have hsplit := List.range'_append_1 (s := first) (m := mid - first) (n := stop - mid)
  rw [hstart] at hsplit
  rw [errors, hcount, ← hsplit, List.map_append]
  rfl

/-! ### The bits of a byte string by their places -/

theorem bit_cons_of_lt (b : UInt8) (rest : Bytes) {i : Nat} (h : i < 8) :
    bit (b :: rest) i = b.toNat.testBit (7 - i) := by
  have hbyte : i / 8 = 0 := by omega
  have hplace : i % 8 = i := by omega
  rw [bit, hbyte, hplace]
  rfl

theorem bit_drop (data : Bytes) (k i : Nat) : bit (data.drop k) i = bit data (8 * k + i) := by
  have hbyte : (8 * k + i) / 8 = k + i / 8 := by omega
  have hplace : (8 * k + i) % 8 = i % 8 := by omega
  rw [bit, bit, hbyte, hplace, List.getD_eq_getElem?_getD, List.getD_eq_getElem?_getD,
    List.getElem?_drop]

theorem ofBytes_eq_map (data : Bytes) :
    ofBytes data = (List.range (8 * data.length)).map (bit data) := by
  induction data with
  | nil => rfl
  | cons b rest ih =>
      have hcount : 8 * (b :: rest).length = 8 + 8 * rest.length := by
        rw [List.length_cons]
        omega
      have hrest : ∀ i, bit rest i = bit (b :: rest) (8 + i) := fun i => bit_drop (b :: rest) 1 i
      have hfirst : ofByte b = (List.range 8).map (bit (b :: rest)) := by
        apply List.map_congr_left
        intro i hi
        exact (bit_cons_of_lt b rest (List.mem_range.1 hi)).symm
      rw [ofBytes_cons, hcount, List.range_add, List.map_append, List.map_map, ih, hfirst]
      apply congrArg
      apply List.map_congr_left
      intro i _
      exact hrest i

theorem ofBytes_drop (data : Bytes) (k : Nat) :
    ofBytes (data.drop k) = (List.range' (8 * k) (8 * data.length - 8 * k)).map (bit data) := by
  have hcount : 8 * (data.drop k).length = 8 * data.length - 8 * k := by
    rw [List.length_drop]
    omega
  rw [ofBytes_eq_map, hcount, List.range'_eq_map_range, List.map_map]
  apply List.map_congr_left
  intro i _
  exact bit_drop data k i

/-- Byte strings of one length are equal from a byte on if their bits are. -/
theorem drop_eq_of_bits {a b : Bytes} {k : Nat} (hlength : a.length = b.length)
    (h : ∀ i, 8 * k ≤ i → i < 8 * a.length → bit a i = bit b i) : a.drop k = b.drop k := by
  rw [← pack_ofBytes (a.drop k), ← pack_ofBytes (b.drop k), ofBytes_drop, ofBytes_drop, ← hlength]
  apply congrArg pack
  apply List.map_congr_left
  intro i hi
  rcases List.mem_range'_1.1 hi with ⟨hfirst, hstop⟩
  exact h i hfirst (by omega)

end Bits

namespace Checksum

/-! ### What errors leave in the register

The register is linear, so two strings are compared by what their difference leaves in an empty one.
The sections after this one are about patterns of errors only. -/

/-- What an error pattern, fed in as bits, leaves in an empty register. -/
def residual (poly : UInt16) (errors : List Bool) : UInt16 :=
  errors.foldl (feedBit poly) 0

theorem topBit_bne (a b : Bool) : topBit (a != b) = topBit a ^^^ topBit b := by
  cases a <;> cases b <;> rfl

theorem feedBit_xor (poly r s : UInt16) (a b : Bool) :
    feedBit poly r a ^^^ feedBit poly s b = feedBit poly (r ^^^ s) (a != b) := by
  rw [feedBit_eq, feedBit_eq, feedBit_eq, ← shift_xor, topBit_bne]
  apply congrArg
  ac_rfl

theorem foldl_feedBit_xor {ι : Type} (poly : UInt16) (f g : ι → Bool) (places : List ι) :
    ∀ r s, (places.map f).foldl (feedBit poly) r ^^^ (places.map g).foldl (feedBit poly) s =
      (places.map fun i => f i != g i).foldl (feedBit poly) (r ^^^ s) := by
  induction places with
  | nil => intro r s; rfl
  | cons i rest ih =>
      intro r s
      simp only [List.map_cons, List.foldl_cons]
      rw [ih, feedBit_xor]

/-- Only the errors decide whether two byte strings of one length leave the same register. -/
theorem run_drop_eq_iff_residual (c : Checksum) {a b : Bytes} (k : Nat)
    (h : a.length = b.length) :
    c.run (a.drop k) = c.run (b.drop k) ↔
      residual c.poly (Bits.errors (8 * k) (8 * a.length) a b) = 0 := by
  have hlinear := foldl_feedBit_xor c.poly (Bits.bit a) (Bits.bit b)
    (List.range' (8 * k) (8 * a.length - 8 * k)) c.initial c.initial
  rw [UInt16.xor_self] at hlinear
  rw [run_eq_runBits, run_eq_runBits, ← xor_eq_zero_iff, runBits, runBits, Bits.ofBytes_drop,
    Bits.ofBytes_drop, ← h, hlinear]
  rfl

theorem shift_zero (poly : UInt16) : shift poly 0 = 0 := rfl

theorem iterate_shift_zero (poly : UInt16) (n : Nat) : (shift poly)^[n] 0 = 0 :=
  Function.iterate_fixed (shift_zero poly) n

theorem residual_concat (poly : UInt16) (front : List Bool) (b : Bool) :
    residual poly (front ++ [b]) = shift poly (residual poly front ^^^ topBit b) := by
  rw [residual, List.foldl_append, List.foldl_cons, List.foldl_nil, feedBit_eq]
  rfl

/-- Right bits after the last error only shift. -/
theorem foldl_feedBit_right (poly : UInt16) {back : List Bool} (h : true ∉ back) :
    ∀ r, back.foldl (feedBit poly) r = (shift poly)^[back.length] r := by
  induction back with
  | nil => intro r; rfl
  | cons b rest ih =>
      intro r
      rw [List.mem_cons, not_or] at h
      rcases h with ⟨hb, hrest⟩
      have hright : b = false := Bool.eq_false_of_not_eq_true fun hwrong => hb hwrong.symm
      subst hright
      have hadd : r ^^^ topBit false = r := UInt16.xor_zero
      rw [List.foldl_cons, ih hrest, feedBit_eq, hadd, List.length_cons,
        Function.iterate_succ_apply]

theorem residual_of_right (poly : UInt16) {errors : List Bool} (h : true ∉ errors) :
    residual poly errors = 0 := by
  rw [residual, foldl_feedBit_right poly h, iterate_shift_zero]

/-- Right bits around the errors do not decide whether anything is left. -/
theorem residual_padded {poly : UInt16} (hpoly : poly.toBitVec.getLsbD 0 = true)
    {front back : List Bool} (middle : List Bool) (hfront : true ∉ front) (hback : true ∉ back) :
    residual poly (front ++ middle ++ back) = 0 ↔ residual poly middle = 0 := by
  have hinjective : Function.Injective (shift poly)^[back.length] :=
    (shift_injective hpoly).iterate back.length
  have hempty : front.foldl (feedBit poly) 0 = 0 := residual_of_right poly hfront
  rw [residual, List.foldl_append, List.foldl_append, hempty, foldl_feedBit_right poly hback,
    ← iterate_shift_zero poly back.length, hinjective.eq_iff, iterate_shift_zero]
  rfl

/-! ### Errors close together -/

theorem aligned_eq_zero {bits : List Bool} (hlength : bits.length ≤ 16) (h : aligned bits = 0) :
    true ∉ bits := by
  intro hmem
  rcases List.mem_iff_getElem?.1 hmem with ⟨j, hj⟩
  have hbound : j < bits.length := (List.getElem?_eq_some_iff.1 hj).1
  have hback : 15 - (15 - j) = j := by omega
  have hbit := getLsbD_aligned bits (15 - j) (by omega)
  rw [h, hback, List.getD_eq_getElem?_getD, hj] at hbit
  simp at hbit

/-- As many bits as the register has cannot cancel each other. -/
theorem residual_burst {poly : UInt16} (hpoly : poly.toBitVec.getLsbD 0 = true)
    {front middle back : List Bool} (hfront : true ∉ front) (hback : true ∉ back)
    (hlength : middle.length ≤ 16) (hwrong : true ∈ middle) :
    residual poly (front ++ middle ++ back) ≠ 0 := by
  intro hzero
  have hinjective : Function.Injective (shift poly)^[middle.length] :=
    (shift_injective hpoly).iterate middle.length
  rw [residual_padded hpoly middle hfront hback, residual, foldl_feedBit poly middle 0 hlength,
    UInt16.zero_xor, ← iterate_shift_zero poly middle.length, hinjective.eq_iff] at hzero
  exact aligned_eq_zero hlength hzero hwrong

/-! ### An odd number of errors -/

/-- The sum of the lowest bits of a register. -/
def paritySum (r : BitVec 16) : Nat → Bool
  | 0 => false
  | n + 1 => paritySum r n ^^ r.getLsbD n

/-- Whether the number of bits set in a register is odd. -/
def parity (r : UInt16) : Bool := paritySum r.toBitVec 16

theorem paritySum_xor (r s : BitVec 16) (n : Nat) :
    paritySum (r ^^^ s) n = (paritySum r n ^^ paritySum s n) := by
  induction n with
  | zero => rfl
  | succ n ih =>
      rw [paritySum, paritySum, paritySum, ih, BitVec.getLsbD_xor]
      cases r.getLsbD n <;> simp

theorem paritySum_shiftLeft (r : BitVec 16) {n : Nat} (h : n < 16) :
    paritySum (r <<< 1) (n + 1) = paritySum r n := by
  induction n with
  | zero => simp [paritySum]
  | succ n ih =>
      rw [paritySum, ih (by omega), paritySum, BitVec.getLsbD_shiftLeft]
      simp [h]

theorem parity_xor (r s : UInt16) : parity (r ^^^ s) = (parity r ^^ parity s) := by
  rw [parity, UInt16.toBitVec_xor]
  exact paritySum_xor _ _ 16

/-- With the bit that falls out, the polynomial takes away an even number of bits. -/
theorem parity_shift {poly : UInt16} (hpoly : parity poly = true) (r : UInt16) :
    parity (shift poly r) = parity r := by
  have hup : paritySum (r.toBitVec <<< 1) 16 = paritySum r.toBitVec 15 :=
    paritySum_shiftLeft r.toBitVec (by decide)
  have htop : parity r = (paritySum r.toBitVec 15 ^^ r.toBitVec.msb) := by
    rw [BitVec.msb_eq_getLsbD_last]
    rfl
  rw [htop, parity, toBitVec_shift]
  cases r.toBitVec.msb with
  | false => simpa using hup
  | true =>
      rw [if_pos rfl, paritySum_xor, hup]
      exact congrArg (paritySum r.toBitVec 15 ^^ ·) hpoly

theorem parity_residual {poly : UInt16} (hpoly : parity poly = true) (errors : List Bool) :
    parity (residual poly errors) = decide (errors.count true % 2 = 1) := by
  induction errors using List.reverseRecOn with
  | nil => exact (by decide : parity 0 = false)
  | append_singleton front b ih =>
      have hbit : parity (topBit b) = b := by
        cases b <;> rfl
      rw [residual_concat, parity_shift hpoly, parity_xor, ih, hbit, List.count_append]
      cases b with
      | false => simp
      | true =>
          rw [List.count_singleton_self, Bool.xor_true, ← decide_not, decide_eq_decide]
          omega

/-- With an even number of terms in the polynomial, an odd number of errors leaves something. -/
theorem residual_odd {poly : UInt16} (hpoly : parity poly = true) {errors : List Bool}
    (hodd : errors.count true % 2 = 1) : residual poly errors ≠ 0 := by
  intro hzero
  have hparity := parity_residual hpoly errors
  rw [hzero, decide_eq_true hodd] at hparity
  exact absurd hparity (by decide)

/-! ### A few errors anywhere

Every choice of a few errors is tried by computation. That is possible because the last error can be
taken for the last bit, and one of the others is looked up among marked words. `misses` is this
search, and `residual_few` says what its answer means. -/

/-- A set of words as one number: the empty register, and so many words each a shift after the one
before. -/
def marks (poly : UInt16) : Nat → UInt16 → Nat
  | 0, _ => 1
  | n + 1, word => 1 <<< word.toNat ||| marks poly n (shift poly word)

/-- Whether no sum of at most `budget` of `n` words, each a shift after the one before, comes within
one marked word of the target. -/
def misses (poly : UInt16) (marked : Nat) : Nat → Nat → UInt16 → UInt16 → Bool
  | 0, _, _, target => !marked.testBit target.toNat
  | _ + 1, 0, _, target => !marked.testBit target.toNat
  | budget + 1, n + 1, word, target =>
    misses poly marked (budget + 1) n (shift poly word) target
      && misses poly marked budget n (shift poly word) (target ^^^ word)

/-- What a wrong bit leaves that is the last one fed in. -/
def lastError (poly : UInt16) : UInt16 := shift poly 0x8000

/-- Whether at most `budget + 2` errors among `n + 1` bits always leave something. The last error
can be taken for the last bit; the others would have to come to a single bit at the top. -/
def Separates (poly : UInt16) (budget n : Nat) : Prop :=
  misses poly (marks poly n (lastError poly)) budget n (lastError poly) 0x8000 = true

instance (poly : UInt16) (budget n : Nat) : Decidable (Separates poly budget n) := by
  unfold Separates
  infer_instance

theorem testBit_marks (poly : UInt16) (n : Nat) :
    ∀ word target : UInt16, target = 0 ∨ (∃ j < n, target = (shift poly)^[j] word) →
      (marks poly n word).testBit target.toNat = true := by
  induction n with
  | zero =>
      intro word target h
      rcases h with rfl | ⟨j, hj, -⟩
      · exact (by decide : Nat.testBit 1 0 = true)
      · exact absurd hj (Nat.not_lt_zero j)
  | succ n ih =>
      intro word target h
      rw [marks, Nat.testBit_or, Bool.or_eq_true]
      rcases h with hzero | ⟨j, hj, htarget⟩
      · exact Or.inr (ih _ _ (Or.inl hzero))
      · cases j with
        | zero =>
            refine Or.inl ?_
            rw [htarget, Function.iterate_zero_apply, Nat.testBit_shiftLeft]
            simp
        | succ j =>
            exact Or.inr (ih _ _ (Or.inr ⟨j, by omega, htarget⟩))

/-- The sum of the words at the places of the errors, each word a shift after the one before. -/
def wordSum (poly : UInt16) : UInt16 → List Bool → UInt16
  | _, [] => 0
  | word, b :: rest => (if b then word else 0) ^^^ wordSum poly (shift poly word) rest

theorem shift_wordSum (poly : UInt16) (errors : List Bool) :
    ∀ word, shift poly (wordSum poly word errors) = wordSum poly (shift poly word) errors := by
  induction errors with
  | nil => intro word; exact shift_zero poly
  | cons b rest ih =>
      intro word
      rw [wordSum, shift_xor, ih, wordSum, apply_ite (shift poly), shift_zero]

theorem iterate_shift_wordSum (poly : UInt16) (errors : List Bool) (n : Nat) :
    ∀ word, (shift poly)^[n] (wordSum poly word errors) =
      wordSum poly ((shift poly)^[n] word) errors := by
  induction n with
  | zero => intro word; rfl
  | succ n ih =>
      intro word
      rw [Function.iterate_succ_apply, shift_wordSum, ih]
      rfl

/-- The errors from the last one on: each leaves what it adds at the top, shifted once for every bit
that follows. -/
theorem residual_reverse (poly : UInt16) (errors : List Bool) :
    residual poly errors.reverse = wordSum poly (lastError poly) errors := by
  induction errors with
  | nil => rfl
  | cons b rest ih =>
      have hbit : shift poly (topBit b) = if b then lastError poly else 0 := by
        cases b <;> rfl
      rw [List.reverse_cons, residual_concat, shift_xor, ih, shift_wordSum, hbit, UInt16.xor_comm]
      rfl

theorem wordSum_of_right (poly : UInt16) {errors : List Bool} (h : true ∉ errors) :
    ∀ word, wordSum poly word errors = 0 := by
  induction errors with
  | nil => intro word; rfl
  | cons b rest ih =>
      intro word
      rw [List.mem_cons, not_or] at h
      rcases h with ⟨hb, hrest⟩
      have hright : b = false := Bool.eq_false_of_not_eq_true fun hwrong => hb hwrong.symm
      rw [wordSum, ih hrest, hright, if_neg Bool.false_ne_true, UInt16.xor_zero]

theorem wordSum_single (poly : UInt16) (errors : List Bool) :
    ∀ word, errors.count true ≤ 1 → wordSum poly word errors = 0 ∨
      ∃ j < errors.length, wordSum poly word errors = (shift poly)^[j] word := by
  induction errors with
  | nil => intro word _; exact Or.inl rfl
  | cons b rest ih =>
      intro word hcount
      cases b with
      | false =>
          rw [List.count_cons_of_ne (by decide)] at hcount
          have hskip : wordSum poly word (false :: rest) = wordSum poly (shift poly word) rest :=
            UInt16.zero_xor
          rw [hskip]
          rcases ih (shift poly word) hcount with hzero | ⟨j, hj, hword⟩
          · exact Or.inl hzero
          · exact Or.inr ⟨j + 1, Nat.succ_lt_succ hj, hword⟩
      | true =>
          rw [List.count_cons_self] at hcount
          have hright : true ∉ rest := List.count_eq_zero.1 (by omega)
          refine Or.inr ⟨0, Nat.succ_pos _, ?_⟩
          rw [wordSum, wordSum_of_right poly hright, UInt16.xor_zero]
          rfl

/-- Errors within the budget, and one more, that come to the target are not missed. -/
theorem misses_of_wordSum {poly : UInt16} {marked : Nat} (n : Nat) :
    ∀ (budget : Nat) (errors : List Bool) (word : UInt16),
      (∀ target, target = 0 ∨ (∃ j < n, target = (shift poly)^[j] word) →
        marked.testBit target.toNat = true) →
      errors.length ≤ n → errors.count true ≤ budget + 1 →
      misses poly marked budget n word (wordSum poly word errors) = false := by
  induction n with
  | zero =>
      intro budget errors word hmarked hlength _
      have hnil : errors = [] := List.eq_nil_of_length_eq_zero (Nat.le_zero.1 hlength)
      have htest := hmarked (wordSum poly word errors) (Or.inl (by rw [hnil]; rfl))
      cases budget <;> rw [misses, htest, Bool.not_true]
  | succ n ih =>
      intro budget errors word hmarked hlength hcount
      cases budget with
      | zero =>
          have htest := hmarked (wordSum poly word errors) (by
            rcases wordSum_single poly errors word hcount with hzero | ⟨j, hj, hword⟩
            · exact Or.inl hzero
            · exact Or.inr ⟨j, by omega, hword⟩)
          rw [misses, htest, Bool.not_true]
      | succ budget =>
          have hnext : ∀ target,
              target = 0 ∨ (∃ j < n, target = (shift poly)^[j] (shift poly word)) →
                marked.testBit target.toNat = true := by
            rintro target (hzero | ⟨j, hj, htarget⟩)
            · exact hmarked target (Or.inl hzero)
            · exact hmarked target (Or.inr ⟨j + 1, by omega, htarget⟩)
          rw [misses, Bool.and_eq_false_iff]
          match errors with
          | [] => exact Or.inl (ih (budget + 1) [] _ hnext (Nat.zero_le n) (Nat.zero_le _))
          | false :: rest =>
              rw [List.count_cons_of_ne (by decide)] at hcount
              have hskip : wordSum poly word (false :: rest) =
                  wordSum poly (shift poly word) rest := UInt16.zero_xor
              rw [hskip]
              exact Or.inl (ih (budget + 1) rest _ hnext (Nat.le_of_succ_le_succ hlength) hcount)
          | true :: rest =>
              rw [List.count_cons_self] at hcount
              have htake : wordSum poly word (true :: rest) ^^^ word =
                  wordSum poly (shift poly word) rest := by
                rw [wordSum, if_pos rfl, UInt16.xor_comm, ← UInt16.xor_assoc, UInt16.xor_self,
                  UInt16.zero_xor]
              rw [htake]
              exact Or.inr (ih budget rest _ hnext (Nat.le_of_succ_le_succ hlength) (by omega))

/-- Where the register separates them, a few errors leave something. -/
theorem residual_few {poly : UInt16} (hpoly : poly.toBitVec.getLsbD 0 = true) {budget n : Nat}
    (hseparates : Separates poly budget n) {errors : List Bool} (hlength : errors.length ≤ n + 1)
    (hwrong : true ∈ errors) (hfew : errors.count true ≤ budget + 2) :
    residual poly errors ≠ 0 := by
  induction errors using List.reverseRecOn with
  | nil => exact absurd hwrong List.not_mem_nil
  | append_singleton front b ih =>
      intro hzero
      rw [residual_concat] at hzero
      have hfront := (xor_eq_zero_iff _ _).1 (eq_zero_of_shift hpoly hzero)
      rw [List.length_append, List.length_singleton] at hlength
      rw [List.count_append] at hfew
      cases b with
      | false =>
          have hbefore : true ∈ front := by simpa using hwrong
          exact ih (by omega) hbefore (by omega) hfront
      | true =>
          rw [List.count_singleton_self] at hfew
          have hreverse := residual_reverse poly front.reverse
          rw [List.reverse_reverse, hfront] at hreverse
          have hmissed := misses_of_wordSum n budget front.reverse (lastError poly)
            (testBit_marks poly n (lastError poly)) (by rw [List.length_reverse]; omega)
            (by rw [List.count_reverse]; omega)
          rw [← hreverse] at hmissed
          exact Bool.false_ne_true (hmissed.symm.trans hseparates)

end Checksum
end MeterRadio
