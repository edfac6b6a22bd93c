/-
Module: MeterRadio.Proofs.ExactDecisions
Purpose: The matched filter rounds nothing: every prefix sum of a window and every difference of two
  of them is a number of double precision itself, so a bit is decided by the exact sums of its own
  samples, wherever they lie in the window.
Main exports: Envelope.total, Decoder.Heard, Decoder.ExactFilter, Decoder.heard_after,
  Decoder.decisions_exact
-/
import MeterRadio.Proofs.SinglePrecision
import MeterRadio.Proofs.WindowContents

namespace MeterRadio

/-! ### Sums of strengths -/

namespace Envelope

/-- The exact sum of strengths. -/
def total (strengths : List Nat) : ℚ := (strengths.map value).sum

theorem total_eq_value (strengths : List Nat) : total strengths = value strengths.sum := by
  induction strengths with
  | nil => simp [total, value]
  | cons m rest ih =>
      unfold total at ih ⊢
      rw [List.map_cons, List.sum_cons, List.sum_cons, ih, value, value, value]
      push_cast
      ring

theorem total_lt_total_iff {a b : List Nat} : total a < total b ↔ a.sum < b.sum := by
  have hunit : (0 : ℚ) < 2 ^ 24 := by norm_num
  rw [total_eq_value, total_eq_value, value, value, div_lt_div_iff_of_pos_right hunit]
  exact Nat.cast_lt

theorem mem_tableOf_iff {mode : Mode} {m : Nat} :
    m ∈ tableOf mode ↔ ∃ i q, m = magnitude mode i q := by
  have htable : tableOf mode = table mode := by cases mode <;> rfl
  rw [htable, table, Array.mem_ofFn]
  constructor
  · rintro ⟨k, rfl⟩
    exact ⟨_, _, rfl⟩
  · rintro ⟨i, q, rfl⟩
    have hi : i.toNat < 256 := i.toNat_lt
    have hq : q.toNat < 256 := q.toNat_lt
    refine ⟨⟨i.toNat * 256 + q.toNat, by omega⟩, ?_⟩
    have hdiv : (i.toNat * 256 + q.toNat) / 256 = i.toNat := by omega
    have hmod : (i.toNat * 256 + q.toNat) % 256 = q.toNat := by omega
    rw [hdiv, hmod, UInt8.ofNat_toNat, UInt8.ofNat_toNat]

end Envelope

namespace Decoder

open Envelope (total value)

/-! ### Windows

`Heard` is all that is used of a window, and a decoder has it after any blocks. Strengths are whole
numbers of units, and those of one window have room together in the 53 bits of a double. -/

/-- A window of strengths as a decoder has it: silence in front and entries of the table behind. -/
structure Heard (p : Profile) (mode : Envelope.Mode) (signal : List Nat) : Prop where
  length_eq : signal.length = p.bufferLength
  parts : ∃ silent heard, signal = List.replicate silent 0 ++ heard ∧
    ∀ m ∈ heard, m ∈ Envelope.tableOf mode

/-- What the filter makes of a window: nothing in it is rounded. -/
structure ExactFilter (p : Profile) (signal : List Nat) : Prop where
  /-- Each strength is the number that its single-precision word stands for. -/
  stored : ∀ m ∈ signal, Number.singleValue (Envelope.word m) = value m
  /-- A prefix sum is the exact sum, which is a double. -/
  sum : ∀ i, i ≤ signal.length →
    (prefixSums signal)[i]?.map value = some (total (signal.take i)) ∧
      Number.IsDouble (total (signal.take i))
  /-- A difference of prefix sums is the exact sum of the stretch between, which is a double. -/
  difference : ∀ i n, i + n ≤ signal.length →
    value (sub ((prefixSums signal).getD (i + n) 0) ((prefixSums signal).getD i 0)) =
        total ((signal.drop i).take n) ∧
      Number.IsDouble (total ((signal.drop i).take n))
  /-- A set bit is one whose first half is stronger than its second half. -/
  decision : ∀ i, i + p.bitLength ≤ p.bufferLength →
    (decisions p signal)[i]? =
      some (decide (total ((signal.drop (i + p.symbolLength)).take p.symbolLength) <
        total ((signal.drop i).take p.symbolLength)))

section Window

variable {p : Profile} {mode : Envelope.Mode} {signal : List Nat}

theorem Heard.cases (h : Heard p mode signal) {m : Nat} (hm : m ∈ signal) :
    m = 0 ∨ ∃ i q, m = Envelope.magnitude mode i q := by
  obtain ⟨silent, heard, rfl, hheard⟩ := h.parts
  rcases List.mem_append.1 hm with hsilent | hmem
  · exact .inl (List.eq_of_mem_replicate hsilent)
  · exact .inr (Envelope.mem_tableOf_iff.1 (hheard m hmem))

theorem Heard.lt (h : Heard p mode signal) {m : Nat} (hm : m ∈ signal) : m < 2 ^ 32 := by
  rcases h.cases hm with rfl | ⟨i, q, rfl⟩
  · exact Nat.two_pow_pos 32
  · exact Envelope.magnitude_lt mode i q

theorem Heard.significant (h : Heard p mode signal) {m : Nat} (hm : m ∈ signal) :
    Number.Significant Envelope.precision m := by
  rcases h.cases hm with rfl | ⟨i, q, rfl⟩
  · exact Number.significant_of_lt (Nat.two_pow_pos _)
  · exact Envelope.significant_magnitude mode i q

/-- A decision is about the exact sums of its own two stretches. -/
theorem getElem?_decisions_of_sum (hlength : signal.length = p.bufferLength)
    (hsum : signal.sum < 2 ^ 53) {i : Nat} (hi : i + p.bitLength ≤ p.bufferLength) :
    (decisions p signal)[i]? = some (plainDecision p.symbolLength signal i) := by
  have hsize : i < (decisions p signal).size := by
    rw [decisions, Array.size_ofFn]
    omega
  rw [← bitAt_decisions hlength hsum hi, bitAt, Array.getD_eq_getD_getElem?,
    Array.getElem?_eq_getElem hsize, Option.getD_some]

theorem Heard.exactFilter (h : Heard p mode signal) (hbuffer : p.bufferLength ≤ 2 ^ 21) :
    ExactFilter p signal := by
  have hsum : signal.sum < 2 ^ 53 :=
    sum_lt (by rw [h.length_eq]; exact hbuffer) fun m hm => h.lt hm
  have hpart : ∀ i, (signal.take i).sum < 2 ^ 53 := fun i =>
    Nat.lt_of_le_of_lt (sum_take_le signal i) hsum
  have hstretch : ∀ i n, ((signal.drop i).take n).sum < 2 ^ 53 := by
    intro i n
    rw [← sum_take_sub]
    exact Nat.lt_of_le_of_lt (Nat.sub_le _ _) (hpart (i + n))
  refine ⟨?stored, ?sum, ?difference, ?decision⟩
  case stored =>
    intro m hm
    exact Envelope.singleValue_word (h.lt hm) (h.significant hm)
  case sum =>
    intro i hi
    have hsize : i < (prefixSums signal).size := by
      rw [size_prefixSums]
      exact Nat.lt_succ_of_le hi
    have hget := getD_prefixSums hsum hi
    rw [Array.getD_eq_getD_getElem?, Array.getElem?_eq_getElem hsize, Option.getD_some] at hget
    rw [Array.getElem?_eq_getElem hsize, hget, Envelope.total_eq_value]
    exact ⟨rfl, Envelope.isDouble_value (hpart i)⟩
  case difference =>
    intro i n hi
    rw [getD_prefixSums hsum hi, getD_prefixSums hsum (Nat.le_trans (Nat.le_add_right i n) hi),
      sub_of_lt (hpart (i + n)), sum_take_sub, Envelope.total_eq_value]
    exact ⟨rfl, Envelope.isDouble_value (hstretch i n)⟩
  case decision =>
    intro i hi
    rw [getElem?_decisions_of_sum h.length_eq hsum hi]
    unfold plainDecision
    simp only [Envelope.total_lt_total_iff]

end Window

/-- The strengths of a decoder are such a window, after any number of whole blocks. -/
theorem heard_after (p : Profile) (mode : Envelope.Mode) {blocks : List Bytes}
    (hblocks : ∀ block ∈ blocks, block.length = p.blockBytes) :
    Heard p mode ((fresh p mode).after blocks).signal := by
  have hsignal := signal_after_take mode hblocks blocks.length
  rw [List.take_length] at hsignal
  refine ⟨?length, ?parts⟩
  case length =>
    rw [length_signal_after]
    exact List.length_replicate
  case parts =>
    rw [hsignal, slide, List.drop_append, List.drop_replicate, List.length_replicate]
    refine ⟨_, _, rfl, fun m hm => ?_⟩
    exact Envelope.mem_tableOf_iff.2 (Envelope.exists_of_mem_magnitudes (List.mem_of_mem_drop hm))

/-- The filter of a window with room for the sums in double precision is exact. So a bit depends on
the samples it is decided by, not on their place or on the rest of the window, and a tie is a clear
bit. Among these windows are all that a decoder comes to. -/
theorem decisions_exact (p : Profile) (mode : Envelope.Mode) (signal : List Nat)
    (hbuffer : p.bufferLength ≤ 2 ^ 21) (hsignal : Heard p mode signal) :
    ExactFilter p signal ∧
      (∀ other i j, Heard p mode other → i + p.bitLength ≤ p.bufferLength →
        j + p.bitLength ≤ p.bufferLength →
          (signal.drop i).take p.bitLength = (other.drop j).take p.bitLength →
            (decisions p signal)[i]? = (decisions p other)[j]?) ∧
      (∀ i, i + p.bitLength ≤ p.bufferLength →
        total ((signal.drop i).take p.symbolLength) =
            total ((signal.drop (i + p.symbolLength)).take p.symbolLength) →
          (decisions p signal)[i]? = some false) ∧
      ∀ blocks : List Bytes, (∀ block ∈ blocks, block.length = p.blockBytes) →
        Heard p mode ((fresh p mode).after blocks).signal := by
  have hexact := hsignal.exactFilter hbuffer
  refine ⟨hexact, ?place, ?tie, fun _ hblocks => heard_after p mode hblocks⟩
  case place =>
    intro other i j hother hi hj hsame
    have hhalf : p.bitLength = p.symbolLength + p.symbolLength := Nat.two_mul _
    have hfirst := congrArg (List.take p.symbolLength) hsame
    have hsecond := congrArg (List.drop p.symbolLength) hsame
    rw [hhalf, List.take_take, List.take_take, Nat.min_eq_left (Nat.le_add_right _ _)] at hfirst
    rw [hhalf, List.drop_take, List.drop_take, List.drop_drop, List.drop_drop,
      Nat.add_sub_cancel] at hsecond
    rw [hexact.decision i hi, (hother.exactFilter hbuffer).decision j hj, hfirst, hsecond]
  case tie =>
    intro i hi htie
    rw [hexact.decision i hi, htie, decide_eq_false (lt_irrefl _)]

/-- A strong sample between weak ones, behind some silence. -/
def chirpSignal : List Nat :=
  List.replicate 2 0 ++ Envelope.magnitudes .exact [127, 127, 255, 255, 127, 127, 127, 127]

/-- The same two samples later on, without silence. -/
def movedSignal : List Nat :=
  List.replicate 0 0 ++
    Envelope.magnitudes .exact [127, 127, 255, 255, 127, 127, 127, 127, 127, 127, 127, 127]

theorem heard_of_magnitudes {p : Profile} {mode : Envelope.Mode} {silent : Nat} {samples : Bytes}
    (h : (List.replicate silent 0 ++ Envelope.magnitudes mode samples).length = p.bufferLength) :
    Heard p mode (List.replicate silent 0 ++ Envelope.magnitudes mode samples) where
  length_eq := h
  parts := ⟨silent, _, rfl, fun _ hm =>
    Envelope.mem_tableOf_iff.2 (Envelope.exists_of_mem_magnitudes hm)⟩

/-- The strong sample is a set bit at both places, and the two weak ones behind it are a tie. -/
theorem chirpSignal_decided :
    chirp.bufferLength ≤ 2 ^ 21 ∧ Heard chirp .exact chirpSignal ∧
      Heard chirp .exact movedSignal ∧ ExactFilter chirp chirpSignal ∧
        (decisions chirp chirpSignal)[3]? = some true ∧
          (decisions chirp chirpSignal)[3]? = (decisions chirp movedSignal)[1]? ∧
            (decisions chirp chirpSignal)[4]? = some false := by
  have hbuffer : chirp.bufferLength ≤ 2 ^ 21 := by decide
  have hheard : Heard chirp .exact chirpSignal := heard_of_magnitudes rfl
  have hmoved : Heard chirp .exact movedSignal := heard_of_magnitudes rfl
  obtain ⟨hexact, hplace, htie, -⟩ := decisions_exact chirp .exact chirpSignal hbuffer hheard
  exact ⟨hbuffer, hheard, hmoved, hexact, by decide +kernel,
    hplace movedSignal 3 1 hmoved (by decide) (by decide) rfl, htie 4 (by decide) rfl⟩

end Decoder
end MeterRadio
