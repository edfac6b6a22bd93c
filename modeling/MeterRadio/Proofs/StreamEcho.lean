/-
Module: MeterRadio.Proofs.StreamEcho
Purpose: Strengths that are heard a second time. Where a stretch of a stream returns, its packet
  returns, if the stretch lies in the stream. What lies before the stream returns as something else,
  and then the preamble must begin with a set bit.
Main exports: Decoder.Echoes, Decoder.Echoes.bit_eq, Decoder.Echoes.matching,
  Decoder.Echoes.packet_eq
-/
import Mathlib.Algebra.Order.BigOperators.Group.List
import MeterRadio.Proofs.StreamScan

namespace MeterRadio.Decoder

/-- From a place on, strengths are those of a stream from a position on, as far as a packet reaches.
Where the stream has not begun they are anything. -/
def Echoes (p : Profile) (strengths : Array Nat) (position : Int) (echo : Array Nat)
    (place : Int) : Prop :=
  ∀ j : Nat, j < p.packetLength → 0 ≤ position + j →
    Scan.strengthAt echo (place + j) = Scan.strengthAt strengths (position + j)

/-- A packet returns from a place where it is echoed if it lies in the stream, or if its first bit
is a set one. -/
def Sound (p : Profile) (position : Int) : Prop :=
  0 ≤ position ∨ p.preambleBits.head? = some true

/-! ### Set bits -/

theorem strengthAt_of_neg (strengths : Array Nat) {position : Int} (h : position < 0) :
    Scan.strengthAt strengths position = 0 := if_pos h

section Set

variable {p : Profile} {strengths : Array Nat} {position : Int}

theorem decisionAt_of_matching (hhead : p.preambleBits.head? = some true)
    (hmatch : Scan.Matching p strengths position) :
    Scan.decisionAt p.symbolLength strengths position = true := by
  have hlength : 0 < p.preambleBits.length :=
    List.length_pos_of_mem (List.mem_of_mem_head? hhead)
  have hset := hmatch 0 hlength
  rw [Scan.bit, Nat.zero_mul, Int.natCast_zero, Int.add_zero] at hset
  rw [List.head?_eq_getElem?, List.getElem?_eq_getElem hlength] at hhead
  exact hset.trans (Option.some.inj hhead)

/-- A set bit begins before its first half is over. -/
theorem reaches_of_decisionAt {n : Nat} (h : Scan.decisionAt n strengths position = true) :
    0 < position + n := by
  refine Int.not_le.1 fun hbefore => ?_
  have hsilent : Scan.strengthFrom strengths position n = 0 := by
    rw [Decoder.strengthFrom_eq]
    refine List.sum_eq_zero fun m hm => ?_
    obtain ⟨k, hk, rfl⟩ := List.mem_map.1 hm
    have hk : k < n := List.mem_range.1 hk
    exact strengthAt_of_neg strengths (by omega)
  rw [Scan.decisionAt, hsilent] at h
  exact absurd (of_decide_eq_true h) (Nat.not_lt_zero _)

/-- Over a stretch of one strength, and of silence before it, no bit is set. -/
theorem decisionAt_of_level {level n : Nat} {stop : Int}
    (hlevel : ∀ x : Int, 0 ≤ x → x < stop → Scan.strengthAt strengths x = level)
    (hstop : position + (2 * n : Nat) ≤ stop) :
    Scan.decisionAt n strengths position = false := by
  have hle : Scan.strengthFrom strengths position n ≤
      Scan.strengthFrom strengths (position + n) n := by
    rw [strengthFrom_eq, strengthFrom_eq]
    refine List.sum_le_sum fun k hk => ?_
    have hk : k < n := List.mem_range.1 hk
    rcases Int.lt_or_le (position + k) 0 with hbefore | hstream
    · rw [strengthAt_of_neg strengths hbefore]
      exact Nat.zero_le _
    · rw [hlevel _ hstream (by omega), hlevel _ (by omega) (by omega)]
  exact decide_eq_false (Nat.not_lt.2 hle)

/-- A preamble that begins with a set bit does not stand there. -/
theorem not_matching_of_level {level : Nat} {stop : Int} (hhead : p.preambleBits.head? = some true)
    (hlevel : ∀ x : Int, 0 ≤ x → x < stop → Scan.strengthAt strengths x = level)
    (hstop : position + p.bitLength ≤ stop) : ¬ Scan.Matching p strengths position := by
  intro hmatch
  have hset := decisionAt_of_matching hhead hmatch
  rw [decisionAt_of_level hlevel hstop] at hset
  cases hset

end Set

/-! ### Echoes

Where a packet lies in the stream, its bits return as they were. Where it begins before the stream,
the echo is louder there than the silence was, and a set bit in front stays set. -/

section Echo

variable {p : Profile} {strengths echo : Array Nat} {position place : Int}

/-- Stretches in the stream have the strength of their echo. -/
theorem Echoes.strengthFrom_eq (h : Echoes p strengths position echo place) {j n : Nat}
    (hj : j + n ≤ p.packetLength) (hstream : 0 ≤ position + j) :
    Scan.strengthFrom echo (place + j) n = Scan.strengthFrom strengths (position + j) n := by
  rw [Decoder.strengthFrom_eq, Decoder.strengthFrom_eq]
  congr 1
  refine List.map_congr_left fun k hk => ?_
  have hk : k < n := List.mem_range.1 hk
  have hsame := h (j + k) (by omega) (by omega)
  rwa [Int.natCast_add, ← Int.add_assoc, ← Int.add_assoc] at hsame

/-- Other stretches are not stronger than it. -/
theorem Echoes.strengthFrom_le (h : Echoes p strengths position echo place) {j n : Nat}
    (hj : j + n ≤ p.packetLength) :
    Scan.strengthFrom strengths (position + j) n ≤ Scan.strengthFrom echo (place + j) n := by
  rw [Decoder.strengthFrom_eq, Decoder.strengthFrom_eq]
  refine List.sum_le_sum fun k hk => ?_
  have hk : k < n := List.mem_range.1 hk
  rcases Int.lt_or_le (position + (j + k : Nat)) 0 with hbefore | hstream
  · rw [Int.natCast_add, ← Int.add_assoc] at hbefore
    rw [strengthAt_of_neg strengths hbefore]
    exact Nat.zero_le _
  · have hsame := h (j + k) (by omega) hstream
    rw [Int.natCast_add, ← Int.add_assoc, ← Int.add_assoc] at hsame
    exact Nat.le_of_eq hsame.symm

theorem Echoes.decisionAt_eq (h : Echoes p strengths position echo place) {j n : Nat}
    (hj : j + 2 * n ≤ p.packetLength) (hstream : 0 ≤ position + j) :
    Scan.decisionAt n echo (place + j) = Scan.decisionAt n strengths (position + j) := by
  have hfirst := h.strengthFrom_eq (show j + n ≤ p.packetLength by omega) hstream
  have hsecond := h.strengthFrom_eq (show j + n + n ≤ p.packetLength by omega) (by omega)
  rw [Int.natCast_add, ← Int.add_assoc, ← Int.add_assoc] at hsecond
  rw [Scan.decisionAt, Scan.decisionAt, hfirst, hsecond]

/-- A set bit at the beginning stays set, whatever is heard before the stream. -/
theorem Echoes.first_bit (h : Echoes p strengths position echo place)
    (hfits : 2 * p.symbolLength ≤ p.packetLength)
    (hset : Scan.decisionAt p.symbolLength strengths position = true) :
    Scan.decisionAt p.symbolLength echo place = true := by
  have hreach := reaches_of_decisionAt hset
  have hfirst := h.strengthFrom_le (show 0 + p.symbolLength ≤ p.packetLength by omega)
  have hsecond := h.strengthFrom_eq
    (show p.symbolLength + p.symbolLength ≤ p.packetLength by omega) (Int.le_of_lt hreach)
  rw [Int.natCast_zero, Int.add_zero, Int.add_zero] at hfirst
  rw [Scan.decisionAt, decide_eq_true_iff] at hset ⊢
  rw [hsecond]
  exact Nat.lt_of_lt_of_le hset hfirst

/-- Every bit of a sound packet returns as it was. -/
theorem Echoes.bit_eq (h : Echoes p strengths position echo place) (hsound : Sound p position)
    (hmatch : Scan.Matching p strengths position) {k : Nat} (hk : k < p.packetSymbols) :
    Scan.bit p echo place k = Scan.bit p strengths position k := by
  have hfits : k * p.bitLength + p.bitLength ≤ p.packetLength := by
    rw [← Nat.succ_mul]
    exact Nat.mul_le_mul_right _ hk
  rcases hsound with hstream | hhead
  · exact h.decisionAt_eq hfits (by omega)
  · have hfirst := decisionAt_of_matching hhead hmatch
    have hreach := reaches_of_decisionAt hfirst
    cases k with
    | zero =>
        rw [Nat.zero_mul, Nat.zero_add] at hfits
        simp only [Scan.bit, Nat.zero_mul, Int.natCast_zero, Int.add_zero]
        rw [hfirst]
        exact h.first_bit hfits hfirst
    | succ k =>
        have hbit : p.bitLength = 2 * p.symbolLength := rfl
        have hlater : (k + 1) * p.bitLength = k * p.bitLength + p.bitLength := Nat.succ_mul _ _
        exact h.decisionAt_eq hfits (by omega)

/-- What returns has the preamble in front. -/
theorem Echoes.matching (h : Echoes p strengths position echo place) (hsound : Sound p position)
    (hpreamble : p.preambleSymbols ≤ p.packetSymbols)
    (hmatch : Scan.Matching p strengths position) : Scan.Matching p echo place := by
  intro k hk
  have hbit : k < p.packetSymbols := by
    rw [Profile.length_preambleBits] at hk
    exact Nat.lt_of_lt_of_le hk hpreamble
  rw [h.bit_eq hsound hmatch hbit]
  exact hmatch k hk

/-- It is the same packet. -/
theorem Echoes.packet_eq (h : Echoes p strengths position echo place) (hsound : Sound p position)
    (hmatch : Scan.Matching p strengths position) :
    Scan.packet p echo place = Scan.packet p strengths position := by
  unfold Scan.packet
  congr 1
  exact List.map_congr_left fun k hk => h.bit_eq hsound hmatch (List.mem_range.1 hk)

end Echo
end MeterRadio.Decoder
