/-
Module: MeterRadio.Proofs.MatchedFilter
Purpose: The matched filter by prefix sums in double precision is the plain comparison of two exact
  sums, as long as the whole window stays below two to the 53.
Main exports: Decoder.sum_lt, Decoder.getD_prefixSums, Decoder.plainDecision,
  Decoder.decision_eq, Decoder.bitAt_decisions
-/
import Mathlib.Algebra.Order.Ring.Nat
import MeterRadio.Decoder

namespace MeterRadio.Decoder

/-- Whether `n` strengths from position `i` on are greater together than the `n` after them. -/
def plainDecision (n : Nat) (signal : List Nat) (i : Nat) : Bool :=
  ((signal.drop (i + n)).take n).sum < ((signal.drop i).take n).sum

/-! ### Exact sums -/

theorem add_of_lt {a b : Nat} (h : a + b < 2 ^ 53) : add a b = a + b :=
  Number.roundTo_of_lt (by simpa [sumPrecision, Nat.shiftLeft_eq] using h)

theorem sub_of_lt {a b : Nat} (h : a < 2 ^ 53) : sub a b = a - b :=
  Number.roundTo_of_lt (by
    have hsub := Nat.sub_le a b
    simp only [sumPrecision, Nat.shiftLeft_eq, Nat.one_mul]
    omega)

/-- Up to two to the 21 strengths below 256 stay below two to the 53 together. -/
theorem sum_lt {signal : List Nat} (hlength : signal.length ≤ 2 ^ 21)
    (hsmall : ∀ m ∈ signal, m < 2 ^ 32) : signal.sum < 2 ^ 53 := by
  have hsum : signal.sum ≤ signal.length * (2 ^ 32 - 1) := by
    clear hlength
    induction signal with
    | nil => simp
    | cons m rest ih =>
        have hm : m < 2 ^ 32 := hsmall m List.mem_cons_self
        have hrest := ih fun k hk => hsmall k (List.mem_cons_of_mem m hk)
        rw [List.sum_cons, List.length_cons, Nat.add_mul]
        omega
  have hbound : signal.length * (2 ^ 32 - 1) ≤ 2 ^ 21 * (2 ^ 32 - 1) :=
    Nat.mul_le_mul_right _ hlength
  omega

theorem sum_take_le (signal : List Nat) (i : Nat) : (signal.take i).sum ≤ signal.sum := by
  have hsplit : (signal.take i).sum + (signal.drop i).sum = signal.sum := by
    rw [← List.sum_append, List.take_append_drop]
  omega

/-- The sum of a stretch is the difference of two initial sums. -/
theorem sum_take_sub (signal : List Nat) (i n : Nat) :
    (signal.take (i + n)).sum - (signal.take i).sum = ((signal.drop i).take n).sum := by
  have hsplit : (signal.take (i + n)).sum =
      (signal.take i).sum + ((signal.drop i).take n).sum := by
    rw [List.take_add, List.sum_append]
  omega

/-! ### Prefix sums

A window is added up from its front. While no sum comes to two to the 53 nothing is rounded, and
then the difference of two prefix sums is the sum of the stretch between them. -/

/-- What the prefix sums are after an initial segment: the sums of its own initial segments, and
its sum beside them. -/
structure Summed (signal : List Nat) (sums : Array Nat × Nat) : Prop where
  total : sums.2 = signal.sum
  size : sums.1.size = signal.length + 1
  getD : ∀ i, i ≤ signal.length → sums.1.getD i 0 = (signal.take i).sum

/-- One more strength is added exactly. -/
theorem Summed.push {signal : List Nat} {sums : Array Nat × Nat} {m : Nat}
    (h : Summed signal sums) (hsum : signal.sum + m < 2 ^ 53) :
    Summed (signal ++ [m]) (sums.1.push (add sums.2 m), add sums.2 m) := by
  have htotal : add sums.2 m = signal.sum + m := by
    rw [h.total, add_of_lt hsum]
  refine ⟨?_, ?_, ?_⟩
  · simp [htotal]
  · simp [h.size]
  · intro i hi
    have hsize := h.size
    rw [List.length_append, List.length_singleton] at hi
    rcases Nat.lt_or_eq_of_le hi with hlt | rfl
    · have hbefore : i < sums.1.size := by omega
      have hget := h.getD i (by omega)
      rw [Array.getD_eq_getD_getElem?] at hget ⊢
      rw [Array.getElem?_push_lt hbefore, ← Array.getElem?_eq_getElem hbefore, hget,
        List.take_append_of_le_length (by omega)]
    · rw [Array.getD_eq_getD_getElem?, ← hsize, Array.getElem?_push_size, Option.getD_some, htotal,
        hsize, List.take_of_length_le (by simp), List.sum_append]
      simp

theorem summed_prefixSums {signal : List Nat} :
    ∀ {before : List Nat} {sums : Array Nat × Nat}, Summed before sums →
      before.sum + signal.sum < 2 ^ 53 →
        Summed (before ++ signal) (signal.foldl (fun (sums : Array Nat × Nat) m =>
          let total := add sums.2 m
          (sums.1.push total, total)) sums) := by
  induction signal with
  | nil =>
      intro before sums h _
      simpa using h
  | cons m rest ih =>
      intro before sums h hsum
      rw [List.sum_cons] at hsum
      have hnext := ih (h.push (by omega : before.sum + m < 2 ^ 53)) (by
        rw [List.sum_append, List.sum_singleton]
        omega)
      rw [List.append_assoc, List.singleton_append] at hnext
      exact hnext

/-- Below two to the 53 no prefix sum is rounded. -/
theorem getD_prefixSums {signal : List Nat} (h : signal.sum < 2 ^ 53) {i : Nat}
    (hi : i ≤ signal.length) : (prefixSums signal).getD i 0 = (signal.take i).sum := by
  have hempty : Summed [] (#[0], 0) := by
    refine ⟨rfl, rfl, ?_⟩
    intro i hi
    obtain rfl : i = 0 := Nat.le_zero.1 hi
    rfl
  have hsummed : Summed ([] ++ signal) _ := summed_prefixSums hempty (by simpa using h)
  exact hsummed.getD i hi

/-! ### Decisions -/

/-- The filter decides by the exact sums of its own two stretches, wherever they lie. -/
theorem decision_eq {signal : List Nat} (h : signal.sum < 2 ^ 53) {n i : Nat}
    (hi : i + 2 * n ≤ signal.length) :
    decision n (prefixSums signal) i = plainDecision n signal i := by
  have hstart := getD_prefixSums h (show i ≤ signal.length by omega)
  have hmiddle := getD_prefixSums h (show i + n ≤ signal.length by omega)
  have hend := getD_prefixSums h hi
  have hlt : ∀ k, (signal.take k).sum < 2 ^ 53 := fun k =>
    Nat.lt_of_le_of_lt (sum_take_le signal k) h
  have htwice : i + 2 * n = i + n + n := by omega
  unfold decision plainDecision
  dsimp only
  rw [hstart, hmiddle, hend, sub_of_lt (hlt _), sub_of_lt (hlt _), htwice, sum_take_sub,
    sum_take_sub]

/-- The decisions of a window, at every position with a whole bit after it. -/
theorem bitAt_decisions {p : Profile} {signal : List Nat}
    (hlength : signal.length = p.bufferLength) (hsum : signal.sum < 2 ^ 53) {i : Nat}
    (hi : i + p.bitLength ≤ p.bufferLength) :
    bitAt (decisions p signal) i = plainDecision p.symbolLength signal i := by
  have hsize : i < p.bufferLength + 1 - p.bitLength := by omega
  have htwice : i + 2 * p.symbolLength ≤ signal.length := by
    rw [hlength]
    exact hi
  rw [← decision_eq hsum htwice]
  simp [bitAt, decisions, hsize]

end MeterRadio.Decoder
