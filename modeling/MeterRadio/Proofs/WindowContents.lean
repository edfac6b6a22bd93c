/-
Module: MeterRadio.Proofs.WindowContents
Purpose: What the windows of a decoder hold after any number of blocks, and that the buffers keep
  their lengths. Both windows end with the last block, so a sample and its strength stay side by
  side, and a packet that starts at a searched position is there as a whole.
Main exports: Decoder.moveDown, Decoder.overwriteEnd, Decoder.slide_eq_moveDown,
  Decoder.WindowLaw, Decoder.windows_after_blocks
-/
import Mathlib.Data.List.DropRight
import MeterRadio.Proofs.StreamScan

namespace MeterRadio.Decoder

/-! ### Moving a buffer in place

The items from some place on are copied to the front, and the block is written over the end. If the
block is as long as the move no old item is left over, and the buffer holds the window slid on. -/

section InPlace

variable {α : Type}

/-- A buffer after its items from place `k` on were copied to its front. The last `k` places are
not written to and keep what they had. -/
def moveDown (k : Nat) (buffer : List α) : List α :=
  buffer.drop k ++ buffer.drop (buffer.length - k)

/-- A buffer with a block written over its end. -/
def overwriteEnd (buffer block : List α) : List α :=
  buffer.take (buffer.length - block.length) ++ block

theorem length_moveDown {k : Nat} {buffer : List α} (h : k ≤ buffer.length) :
    (moveDown k buffer).length = buffer.length := by
  rw [moveDown, List.length_append, List.length_drop, List.length_drop, Nat.sub_sub_self h]
  exact Nat.sub_add_cancel h

/-- To slide a window is to move it down and to write the block over its end, if the block fits. -/
theorem slide_eq_moveDown {window block : List α} (h : block.length ≤ window.length) :
    slide window block = overwriteEnd (moveDown block.length window) block := by
  have hkept : (moveDown block.length window).take (window.length - block.length) =
      window.drop block.length :=
    List.take_left' List.length_drop
  rw [overwriteEnd, length_moveDown h, hkept]
  exact List.drop_append_of_le_length h

/-- A window that has slid over a list holds the last of what was in it and of the list. -/
theorem slide_eq_rtake (window later : List α) :
    slide window later = (window ++ later).rtake window.length := by
  rw [List.rtake, List.length_append, Nat.add_sub_cancel_left]
  rfl

/-- A stretch of a window is the same stretch of the whole input, as far behind its start as the
window has moved. -/
theorem take_drop_slide (window later : List α) (place n : Nat) :
    ((slide window later).drop place).take n =
      ((window ++ later).drop (later.length + place)).take n := by
  rw [slide, List.drop_drop]

end InPlace

/-! ### Lengths -/

theorem length_iq_after (d : Decoder) (blocks : List Bytes) :
    (d.after blocks).iq.length = d.iq.length := by
  rw [iq_after, length_slide]

theorem length_signal_after (d : Decoder) (blocks : List Bytes) :
    (d.after blocks).signal.length = d.signal.length := by
  induction blocks generalizing d with
  | nil => rfl
  | cons block rest ih =>
      rw [after_cons, ih]
      exact length_slide _ _

/-- There is a prefix sum for each initial segment of the window. -/
theorem size_prefixSums (signal : List Nat) : (prefixSums signal).size = signal.length + 1 := by
  have hpush : ∀ (todo : List Nat) (sums : Array Nat × Nat),
      (todo.foldl (fun (sums : Array Nat × Nat) m =>
        let total := add sums.2 m
        (sums.1.push total, total)) sums).1.size = todo.length + sums.1.size := by
    intro todo
    induction todo with
    | nil =>
        intro sums
        exact (Nat.zero_add _).symm
    | cons m rest ih =>
        intro sums
        rw [List.foldl_cons, ih, Array.size_push, List.length_cons]
        exact Nat.add_right_comm rest.length sums.1.size 1
  exact hpush signal (#[0], 0)

/-- There is a decision for each position of the window with a whole bit after it. -/
theorem size_decisions {p : Profile} (h : p.bitLength ≤ p.bufferLength) (signal : List Nat) :
    (decisions p signal).size = p.bufferLength - p.bitLength + 1 := by
  rw [decisions, Array.size_ofFn]
  exact Nat.sub_add_comm h

theorem bitLength_le_bufferLength {p : Profile} (h : 1 ≤ p.packetSymbols) :
    p.bitLength ≤ p.bufferLength := by
  have hpacket : p.bitLength ≤ p.packetLength := Nat.le_mul_of_pos_left _ h
  exact Nat.le_trans hpacket (Nat.le_add_right _ _)

/-! ### Windows after blocks -/

/-- The bytes that a fresh decoder starts from. -/
def silence (p : Profile) : Bytes := List.replicate (2 * p.bufferLength) 0

/-- How a decoder stands after whole blocks. -/
structure WindowLaw (p : Profile) (mode : Envelope.Mode) (blocks : List Bytes) (d : Decoder) :
    Prop where
  /-- The bytes are the last ones of zeros and all blocks. -/
  iq_eq : d.iq = (silence p ++ blocks.flatten).rtake (2 * p.bufferLength)
  /-- The strengths are the last ones of zeros and those that the table gives to all samples. -/
  signal_eq : d.signal = (List.replicate p.bufferLength 0 ++
    Envelope.lookupAll (Envelope.tableOf mode) [] blocks.flatten).rtake p.bufferLength
  length_iq : d.iq.length = 2 * p.bufferLength
  length_signal : d.signal.length = p.bufferLength
  size_sums : (prefixSums d.signal).size = p.bufferLength + 1
  size_bits : (decisions p d.signal).size = p.bufferLength - p.bitLength + 1
  /-- A packet that starts at a searched position lies in the window, with all its samples. -/
  complete : ∀ offset, offset < p.blockSize → 2 * offset + 2 * p.packetLength ≤ d.iq.length ∧
    (d.iq.drop (2 * offset)).take (2 * p.packetLength) =
      ((silence p ++ blocks.flatten).drop (2 * (blocks.length * p.blockSize + offset))).take
        (2 * p.packetLength)
  /-- The next block moves both windows in place, the strengths by half as many places. -/
  moves : ∀ block : Bytes, block.length = p.blockBytes →
    (d.decode block).1.iq = overwriteEnd (moveDown p.blockBytes d.iq) block ∧
      (d.decode block).1.signal = overwriteEnd (moveDown p.blockSize d.signal)
        (Envelope.lookupAll (Envelope.tableOf mode) [] block)

/-- A block moves a decoder's windows in place if these have the lengths of the profile. -/
theorem decode_moves {p : Profile} {d : Decoder} {block : Bytes}
    (hblock : block.length = p.blockBytes) (hiq : d.iq.length = 2 * p.bufferLength)
    (hsignal : d.signal.length = p.bufferLength) :
    (d.decode block).1.iq = overwriteEnd (moveDown p.blockBytes d.iq) block ∧
      (d.decode block).1.signal = overwriteEnd (moveDown p.blockSize d.signal)
        (Envelope.lookupAll (Envelope.tableOf d.mode) [] block) := by
  have hfits : p.blockSize ≤ p.bufferLength := Nat.le_add_left _ _
  have hstrengths :
      (Envelope.lookupAll (Envelope.tableOf d.mode) [] block).length = p.blockSize := by
    rw [Envelope.lookupAll_tableOf, List.reverse_nil, List.nil_append,
      Envelope.length_magnitudes, hblock]
    exact Nat.mul_div_cancel_left _ Nat.zero_lt_two
  constructor
  · rw [← hblock]
    apply slide_eq_moveDown
    rw [hblock, hiq]
    exact Nat.mul_le_mul_left 2 hfits
  · rw [← hstrengths]
    apply slide_eq_moveDown
    rw [hstrengths, hsignal]
    exact hfits

/-- After any number of whole blocks the windows of a decoder hold the last of all that it was
given, and all buffers have the lengths that they started with. -/
theorem windows_after_blocks (p : Profile) (mode : Envelope.Mode) (blocks : List Bytes)
    (hpreamble : 1 ≤ p.preambleSymbols) (hpacket : p.preambleSymbols ≤ p.packetSymbols)
    (hblocks : ∀ block ∈ blocks, block.length = p.blockBytes) :
    WindowLaw p mode blocks ((fresh p mode).after blocks) := by
  have hiq : ((fresh p mode).after blocks).iq = slide (silence p) blocks.flatten :=
    iq_after (fresh p mode) blocks
  have hlengthIq : ((fresh p mode).after blocks).iq.length = 2 * p.bufferLength :=
    (length_iq_after (fresh p mode) blocks).trans List.length_replicate
  have hlengthSignal : ((fresh p mode).after blocks).signal.length = p.bufferLength :=
    (length_signal_after (fresh p mode) blocks).trans List.length_replicate
  refine ⟨?iq, ?signal, hlengthIq, hlengthSignal, ?sums, ?bits, ?complete, ?moves⟩
  case iq =>
    rw [hiq, slide_eq_rtake, silence, List.length_replicate]
  case signal =>
    have hsignal := signal_after_take mode hblocks blocks.length
    rw [List.take_length] at hsignal
    rw [hsignal, slide_eq_rtake, List.length_replicate, Envelope.lookupAll_tableOf,
      List.reverse_nil, List.nil_append]
  case sums => rw [size_prefixSums, hlengthSignal]
  case bits =>
    exact size_decisions (bitLength_le_bufferLength (Nat.le_trans hpreamble hpacket)) _
  case complete =>
    intro offset hoffset
    constructor
    · rw [hlengthIq, ← Nat.mul_add]
      apply Nat.mul_le_mul_left
      rw [Profile.bufferLength, Nat.add_comm]
      exact Nat.add_le_add_left (Nat.le_of_lt hoffset) _
    · have hfed : blocks.flatten.length = 2 * (blocks.length * p.blockSize) := by
        have hlength := length_flatten_take hblocks (Nat.le_refl blocks.length)
        rw [List.take_length, Profile.blockBytes, Nat.mul_left_comm] at hlength
        exact hlength
      rw [hiq, take_drop_slide, hfed, ← Nat.mul_add]
  case moves =>
    intro block hblock
    have hmoves := decode_moves hblock hlengthIq hlengthSignal
    rw [mode_after] at hmoves
    exact hmoves

/-- Three blocks of a chirp's decoder, whose windows are as long as three blocks: the zeros have
just left them. -/
theorem windows_after_three_blocks :
    1 ≤ chirp.preambleSymbols ∧ chirp.preambleSymbols ≤ chirp.packetSymbols ∧
      (∀ block ∈ chirpBlocks, block.length = chirp.blockBytes) ∧
        WindowLaw chirp .exact chirpBlocks ((fresh chirp .exact).after chirpBlocks) ∧
          ((fresh chirp .exact).after chirpBlocks).iq = chirpBlocks.flatten := by
  have hpreamble : 1 ≤ chirp.preambleSymbols := by decide
  have hpacket : chirp.preambleSymbols ≤ chirp.packetSymbols := by decide
  have hblocks : ∀ block ∈ chirpBlocks, block.length = chirp.blockBytes := by decide
  have hlaw := windows_after_blocks chirp .exact chirpBlocks hpreamble hpacket hblocks
  refine ⟨hpreamble, hpacket, hblocks, hlaw, hlaw.iq_eq.trans ?_⟩
  decide

end MeterRadio.Decoder
