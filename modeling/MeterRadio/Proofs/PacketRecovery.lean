/-
Module: MeterRadio.Proofs.PacketRecovery
Purpose: A packet that is modulated into a stream is returned by a decoder of its protocol, whatever
  samples stand before and after it and however it lies to the blocks.
Main exports: Modulation.bitStrengths, Modulation.magnitudes_ofBits,
  Decoder.plainDecision_bitStrengths, Decoder.Carries, Decoder.Carries.matching,
  Decoder.Carries.packet_eq
-/
import MeterRadio.Modulation
import MeterRadio.Protocol
import MeterRadio.Proofs.StreamScan

namespace MeterRadio

/-! ### Modulated strengths -/

namespace Modulation

/-- The strengths of a bit at `n` samples per chip, of which the carrier has `high` and its absence
has `low`. -/
def bitStrengths (high low n : Nat) (b : Bool) : List Nat :=
  if b then List.replicate n high ++ List.replicate n low
  else List.replicate n low ++ List.replicate n high

@[simp] theorem length_bitStrengths (high low n : Nat) (b : Bool) :
    (bitStrengths high low n b).length = 2 * n := by
  cases b <;> simp [bitStrengths] <;> omega

theorem length_hold (n : Nat) (s : Sample) : (hold n s).length = 2 * n := by
  simp [hold, Nat.mul_comm]

theorem length_chips (k : Keying) (n : Nat) (b : Bool) :
    ((chips k b).flatMap (hold n)).length = 4 * n := by
  cases b <;> simp [chips, length_hold] <;> omega

theorem length_ofBits (k : Keying) (n : Nat) (bits : List Bool) :
    (ofBits k n bits).length = bits.length * (4 * n) := by
  unfold ofBits
  induction bits with
  | nil => simp
  | cons b rest ih =>
      rw [List.flatMap_cons, List.length_append, length_chips, ih, List.length_cons,
        Nat.succ_mul rest.length, Nat.add_comm]

theorem magnitudes_hold (mode : Envelope.Mode) (n : Nat) (s : Sample) :
    Envelope.magnitudes mode (hold n s) = List.replicate n (Envelope.magnitude mode s.1 s.2) := by
  induction n with
  | zero => rfl
  | succ n ih =>
      have hfirst : hold (n + 1) s = s.1 :: s.2 :: hold n s := by
        simp [hold, List.replicate_succ]
      rw [hfirst, Envelope.magnitudes_cons, ih, List.replicate_succ]

theorem magnitudes_chips (mode : Envelope.Mode) (k : Keying) (n : Nat) (b : Bool) :
    Envelope.magnitudes mode ((chips k b).flatMap (hold n)) =
      bitStrengths (Envelope.magnitude mode k.high.1 k.high.2)
        (Envelope.magnitude mode k.low.1 k.low.2) n b := by
  have hpair : ∀ s t : Sample, Envelope.magnitudes mode ([s, t].flatMap (hold n)) =
      List.replicate n (Envelope.magnitude mode s.1 s.2) ++
        List.replicate n (Envelope.magnitude mode t.1 t.2) := by
    intro s t
    have heven : (hold n s).length % 2 = 0 := by
      rw [length_hold]
      omega
    rw [List.flatMap_cons, List.flatMap_singleton, Envelope.magnitudes_append _ _ heven,
      magnitudes_hold, magnitudes_hold]
  cases b with
  | false => exact hpair k.low k.high
  | true => exact hpair k.high k.low

/-- Modulated bits have the strengths of one after the other. -/
theorem magnitudes_ofBits (mode : Envelope.Mode) (k : Keying) (n : Nat) (bits : List Bool) :
    Envelope.magnitudes mode (ofBits k n bits) =
      bits.flatMap (bitStrengths (Envelope.magnitude mode k.high.1 k.high.2)
        (Envelope.magnitude mode k.low.1 k.low.2) n) := by
  unfold ofBits
  induction bits with
  | nil => rfl
  | cons b rest ih =>
      have heven : ((chips k b).flatMap (hold n)).length % 2 = 0 := by
        rw [length_chips]
        omega
      rw [List.flatMap_cons, List.flatMap_cons, Envelope.magnitudes_append _ _ heven,
        magnitudes_chips, ih]

theorem length_flatMap_bitStrengths (high low n : Nat) (bits : List Bool) :
    (bits.flatMap (bitStrengths high low n)).length = bits.length * (2 * n) := by
  induction bits with
  | nil => simp
  | cons b rest ih =>
      rw [List.flatMap_cons, List.length_append, length_bitStrengths, ih, List.length_cons,
        Nat.succ_mul rest.length, Nat.add_comm]

end Modulation

/-! ### Decisions on modulated bits

Of the two chips of a bit one is louder, and the filter compares these and nothing around them. So
where a stream carries bits they are decided as sent, and a packet there is made of them. -/

namespace Decoder

open Modulation

/-- The filter tells the greater of two chips. -/
theorem plainDecision_append (front first second rest : List Nat)
    (h : first.length = second.length) :
    plainDecision first.length (front ++ (first ++ second) ++ rest) front.length =
      decide (second.sum < first.sum) := by
  have hfirst : ((front ++ (first ++ second) ++ rest).drop front.length).take first.length =
      first := by
    rw [List.append_assoc, List.drop_left, List.append_assoc, List.take_left]
  have hsecond : ((front ++ (first ++ second) ++ rest).drop
      (front.length + first.length)).take first.length = second := by
    rw [← List.drop_drop, List.append_assoc, List.drop_left, List.append_assoc, List.drop_left, h,
      List.take_left]
  unfold plainDecision
  rw [hfirst, hsecond]

/-- Amid any strengths the filter decides for the bit that was sent. -/
theorem plainDecision_bitStrengths {high low n : Nat} (hn : 1 ≤ n) (hlow : low < high)
    (front rest : List Nat) (b : Bool) :
    plainDecision n (front ++ bitStrengths high low n b ++ rest) front.length = b := by
  have hsums : n * low < n * high := Nat.mul_lt_mul_of_pos_left hlow hn
  have hpair : ∀ x y : Nat, plainDecision n
      (front ++ (List.replicate n x ++ List.replicate n y) ++ rest) front.length =
        decide (n * y < n * x) := by
    intro x y
    have hplain := plainDecision_append front (List.replicate n x) (List.replicate n y) rest
      (by simp)
    rwa [List.length_replicate, List.sum_replicate_nat, List.sum_replicate_nat] at hplain
  cases b with
  | false =>
      rw [bitStrengths, if_neg (by decide), hpair]
      simp only [decide_eq_false_iff_not]
      omega
  | true =>
      rw [bitStrengths, if_pos rfl, hpair]
      simpa using hsums

/-- Strengths carry bits from a position on. -/
def Carries (strengths : Array Nat) (high low n start : Nat) (bits : List Bool) : Prop :=
  ∃ front rest : List Nat, front.length = start ∧
    strengths = (front ++ bits.flatMap (bitStrengths high low n) ++ rest).toArray

section Carried

variable {strengths : Array Nat} {high low n start : Nat} {bits : List Bool}

/-- Each carried bit is decided as it was sent. -/
theorem Carries.decisionAt_eq (h : Carries strengths high low n start bits) (hn : 1 ≤ n)
    (hlow : low < high) {k : Nat} (hk : k < bits.length) :
    Scan.decisionAt n strengths ((start : Int) + (k * (2 * n) : Nat)) = bits[k] := by
  rcases h with ⟨front, rest, hfront, hstrengths⟩
  have hbits : bits = bits.take k ++ bits[k] :: bits.drop (k + 1) := by
    rw [← List.drop_eq_getElem_cons hk, List.take_append_drop]
  have hsplit : front ++ bits.flatMap (bitStrengths high low n) ++ rest =
      (front ++ (bits.take k).flatMap (bitStrengths high low n)) ++
        bitStrengths high low n bits[k] ++
          ((bits.drop (k + 1)).flatMap (bitStrengths high low n) ++ rest) := by
    conv => lhs; rw [hbits]
    rw [List.flatMap_append, List.flatMap_cons]
    simp only [List.append_assoc]
  have hplace : (front ++ (bits.take k).flatMap (bitStrengths high low n)).length =
      start + k * (2 * n) := by
    rw [List.length_append, length_flatMap_bitStrengths, hfront, List.length_take,
      Nat.min_eq_left (Nat.le_of_lt hk)]
  have hdecided := plainDecision_bitStrengths hn hlow
    (front ++ (bits.take k).flatMap (bitStrengths high low n))
    ((bits.drop (k + 1)).flatMap (bitStrengths high low n) ++ rest) bits[k]
  have hfits : start + k * (2 * n) + 2 * n ≤
      (front ++ bits.flatMap (bitStrengths high low n) ++ rest).length := by
    rw [hsplit, List.length_append, List.length_append, hplace, length_bitStrengths]
    omega
  rw [← hsplit, hplace, (shows_self _).plainDecision_eq hfits, ← hstrengths] at hdecided
  rw [← hdecided]
  congr 1
  omega

/-- The preamble stands where bits begin that it begins. -/
theorem Carries.matching {p : Profile} (h : Carries strengths high low p.symbolLength start bits)
    (hn : 1 ≤ p.symbolLength) (hlow : low < high) (hpreamble : p.preambleBits <+: bits) :
    Scan.Matching p strengths start := by
  intro k hk
  rcases hpreamble with ⟨rest, rfl⟩
  have hsent : k < (p.preambleBits ++ rest).length := by
    rw [List.length_append]
    omega
  have hdecided := h.decisionAt_eq hn hlow hsent
  rw [List.getElem_append_left hk] at hdecided
  exact hdecided

/-- The packet of a scan at a position where bits are carried is made of these bits. -/
theorem Carries.packet_eq {p : Profile} (h : Carries strengths high low p.symbolLength start bits)
    (hn : 1 ≤ p.symbolLength) (hlow : low < high) (hlength : bits.length = p.packetSymbols) :
    Scan.packet p strengths start = Bits.pack bits := by
  have hbits : (List.range p.packetSymbols).map (Scan.bit p strengths start) = bits := by
    apply List.ext_getElem
    · rw [List.length_map, List.length_range, hlength]
    · intro k _ hk
      rw [List.getElem_map, List.getElem_range]
      exact h.decisionAt_eq hn hlow hk
  rw [Scan.packet, hbits]

end Carried

/-! ### Streams around a packet -/

/-- A stream of bytes carries the bits that were modulated into it. -/
theorem carries_of_flatten (mode : Envelope.Mode) {k : Keying} {n start : Nat} {bits : List Bool}
    {blocks : List Bytes} {before behind : Bytes} (hstart : before.length = 2 * start)
    (hstream : blocks.flatten = before ++ ofBits k n bits ++ behind) :
    Carries (strengthsOf mode blocks) (Envelope.magnitude mode k.high.1 k.high.2)
      (Envelope.magnitude mode k.low.1 k.low.2) n start bits := by
  have hbefore : before.length % 2 = 0 := by omega
  have hsent : (ofBits k n bits).length % 2 = 0 := by
    rw [length_ofBits, Nat.mul_left_comm]
    omega
  refine ⟨Envelope.magnitudes mode before, Envelope.magnitudes mode behind, ?_, ?_⟩
  · rw [Envelope.length_magnitudes]
    omega
  · rw [strengthsOf, hstream, List.append_assoc, Envelope.magnitudes_append _ _ hbefore,
      Envelope.magnitudes_append _ _ hsent, magnitudes_ofBits, List.append_assoc]

/-- Carried bits that begin with the preamble are returned as a packet, if they end before the last
block does. -/
theorem Carries.exists_returns {p : Profile} {mode : Envelope.Mode} {blocks : List Bytes}
    {high low start : Nat} {bits : List Bool}
    (h : Carries (strengthsOf mode blocks) high low p.symbolLength start bits)
    (hadmissible : Admissible p blocks) (hn : 1 ≤ p.symbolLength) (hlow : low < high)
    (hpreamble : p.preambleBits <+: bits) (hlength : bits.length = p.packetSymbols)
    (hroom : start + p.packetLength < blocks.length * p.blockSize) :
    ∃ c, Returns p mode blocks c (Bits.pack bits) := by
  have hsearched : Searched p blocks.length start := by
    constructor <;> omega
  rw [← h.packet_eq hn hlow hlength]
  exact hadmissible.exists_returns hsearched (h.matching hn hlow hpreamble)

/-! ### The two protocols -/

theorem packetSymbols_profile (protocol : Protocol) (n : Nat) :
    (protocol.profile n).packetSymbols = 8 * (protocol.profile n).packetBytes := by
  cases protocol with
  | scm => exact (show Scm.packetBits = 8 * ((Scm.packetBits + 7) / 8) by decide)
  | idm => exact (show Idm.packetBits = 8 * ((Idm.packetBits + 7) / 8) by decide)

theorem preambleSymbols_profile_le (protocol : Protocol) (n : Nat) :
    (protocol.profile n).preambleSymbols ≤ (protocol.profile n).packetSymbols := by
  cases protocol with
  | scm => exact (show Scm.preamble.utf8ByteSize ≤ Scm.packetBits by decide)
  | idm => exact (show Idm.preamble.utf8ByteSize ≤ Idm.packetBits by decide)

theorem symbolLength_profile (protocol : Protocol) (n : Nat) :
    (protocol.profile n).symbolLength = n := by
  cases protocol with
  | scm => rfl
  | idm => rfl

/-- A packet of a protocol, sent amid arbitrary samples and followed by enough of them, is returned
by some call, and never by two calls in a row. -/
theorem modulated_packet_returned (protocol : Protocol) (n : Nat) (mode : Envelope.Mode)
    (k : Keying) (packet before behind : Bytes) (start : Nat) (blocks : List Bytes)
    (hn : 1 ≤ n) (hbuffer : (protocol.profile n).bufferLength ≤ 2 ^ 21)
    (hpacket : packet.length = (protocol.profile n).packetBytes)
    (hpreamble : (protocol.profile n).preambleBits <+: Bits.ofBytes packet)
    (hkeying : Envelope.magnitude mode k.low.1 k.low.2 < Envelope.magnitude mode k.high.1 k.high.2)
    (hblocks : ∀ block ∈ blocks, block.length = (protocol.profile n).blockBytes)
    (hstart : before.length = 2 * start)
    (hstream : blocks.flatten = before ++ ofBits k n (Bits.ofBytes packet) ++ behind)
    (hroom : start + (protocol.profile n).packetLength <
      blocks.length * (protocol.profile n).blockSize) :
    (∃ c, Returns (protocol.profile n) mode blocks c packet) ∧
      ∀ c, Returns (protocol.profile n) mode blocks c packet →
        ¬ Returns (protocol.profile n) mode blocks (c + 1) packet := by
  have hadmissible : Admissible (protocol.profile n) blocks :=
    ⟨preambleSymbols_profile_le protocol n, hbuffer, hblocks⟩
  have hcarries := carries_of_flatten mode hstart hstream
  have hlength : (Bits.ofBytes packet).length = (protocol.profile n).packetSymbols := by
    rw [Bits.length_ofBytes, hpacket, packetSymbols_profile]
  rw [← symbolLength_profile protocol n] at hn hcarries
  constructor
  · have hreturned := hcarries.exists_returns hadmissible hn hkeying hpreamble hlength hroom
    rwa [Bits.pack_ofBytes] at hreturned
  · intro c hreturned
    exact hadmissible.not_returns_succ hreturned

/-- On-off keying of one of the two parts of a sample. -/
def plainKeying : Keying := ⟨(255, 127), (127, 127)⟩

/-- A packet with the preamble of standard consumption messages. -/
def standardPacket : Bytes :=
  [0xf9, 0x53, 0x00, 0x2b, 0x0c, 0x51, 0xa6, 0x00, 0x7f, 0x13, 0xd4, 0x6e]

/-- What is on before the packet and after it. -/
def standardStream : Bytes :=
  hold 10 (255, 3) ++ ofBits plainKeying 1 (Bits.ofBytes standardPacket) ++ hold 54 (90, 127)

/-- The stream cut into four blocks, the packet in all of them. -/
def standardBlocks : List Bytes :=
  (List.range 4).map fun c => (standardStream.drop (128 * c)).take 128

theorem standard_packet_returned :
    (Protocol.scm.profile 1).preambleBits <+: Bits.ofBytes standardPacket ∧
      standardBlocks.flatten = standardStream ∧
        (∃ c, Returns (Protocol.scm.profile 1) .fast standardBlocks c standardPacket) ∧
          ∀ c, Returns (Protocol.scm.profile 1) .fast standardBlocks c standardPacket →
            ¬ Returns (Protocol.scm.profile 1) .fast standardBlocks (c + 1) standardPacket := by
  have hpreamble : (Protocol.scm.profile 1).preambleBits <+: Bits.ofBytes standardPacket := by
    rw [Profile.preambleBits_eq]
    decide
  have hstream : standardBlocks.flatten = standardStream := by
    decide +kernel
  have hreturned := modulated_packet_returned .scm 1 .fast plainKeying standardPacket
    (hold 10 (255, 3)) (hold 54 (90, 127)) 10 standardBlocks (by decide) (by decide) (by decide)
    hpreamble (by decide) (by decide +kernel) (by decide) hstream (by decide)
  exact ⟨hpreamble, hstream, hreturned⟩

end Decoder
end MeterRadio
