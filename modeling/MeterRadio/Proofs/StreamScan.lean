/-
Module: MeterRadio.Proofs.StreamScan
Purpose: The calls of a decoder together return what a plain scan of the whole stream finds, however
  its packets lie to the blocks.
Main exports: Decoder.Covers, Decoder.Searched, Decoder.Returns, Decoder.FoundIn,
  Decoder.Admissible.returns_succ_iff, Decoder.ScanAgreement
-/
import MeterRadio.Proofs.BitPacking
import MeterRadio.Proofs.WindowSearch

namespace MeterRadio.Decoder

/-! ### Positions and calls

The positions that calls look at follow each other without a gap, one block of them for each call.
So every searched position has its call, and only one. -/

/-- Call `c`, counted from one, looks for packets that start at the position. -/
def Covers (p : Profile) (c : Nat) (position : Int) : Prop :=
  ((c * p.blockSize : Nat) : Int) - p.bufferLength ≤ position ∧
    position < (((c + 1) * p.blockSize : Nat) : Int) - p.bufferLength

/-- One of the first `n` calls looks for packets that start at the position. -/
def Searched (p : Profile) (n : Nat) (position : Int) : Prop :=
  -(p.packetLength : Int) ≤ position ∧ position < ((n * p.blockSize : Nat) : Int) - p.packetLength

section Coverage

variable {p : Profile} {c n : Nat} {position : Int}

/-- The call follows from the distance to the start of the zeros before the stream. -/
theorem covers_iff {distance : Nat} (h : (distance : Int) = position + p.bufferLength) :
    Covers p c position ↔ distance / p.blockSize = c := by
  have hpos := p.blockSize_pos
  have hfrom : c ≤ distance / p.blockSize ↔ c * p.blockSize ≤ distance :=
    Nat.le_div_iff_mul_le hpos
  have hto : distance / p.blockSize < c + 1 ↔ distance < (c + 1) * p.blockSize :=
    Nat.div_lt_iff_lt_mul hpos
  unfold Covers
  generalize c * p.blockSize = start at *
  generalize (c + 1) * p.blockSize = stop at *
  omega

/-- Every searched position belongs to one of the calls. -/
theorem exists_covers (h : Searched p n position) :
    ∃ c, (1 ≤ c ∧ c ≤ n) ∧ Covers p c position := by
  obtain ⟨hfrom, hto⟩ := h
  have hbuffer : p.bufferLength = p.packetLength + p.blockSize := rfl
  obtain ⟨distance, hdistance⟩ := Int.eq_ofNat_of_zero_le
    (show 0 ≤ position + p.bufferLength by omega)
  have hfirst : p.blockSize ≤ distance := by omega
  have hlast : distance < (n + 1) * p.blockSize := by
    rw [Nat.succ_mul]
    omega
  refine ⟨distance / p.blockSize, ⟨?_, ?_⟩, (covers_iff hdistance.symm).2 rfl⟩
  · exact Nat.div_pos hfirst p.blockSize_pos
  · exact Nat.le_of_lt_succ ((Nat.div_lt_iff_lt_mul p.blockSize_pos).2 hlast)

/-- No position belongs to two calls. -/
theorem covers_unique {c' : Nat} (h : Covers p c position) (h' : Covers p c' position) :
    c = c' := by
  have hnonneg : 0 ≤ position + p.bufferLength := by
    have hfrom := h.1
    omega
  obtain ⟨distance, hdistance⟩ := Int.eq_ofNat_of_zero_le hnonneg
  rw [covers_iff hdistance.symm] at h h'
  exact h.symm.trans h'

/-- The calls look nowhere else. -/
theorem searched_of_covers (hc : 1 ≤ c) (hn : c ≤ n) (h : Covers p c position) :
    Searched p n position := by
  obtain ⟨hfrom, hto⟩ := h
  have hbuffer : p.bufferLength = p.packetLength + p.blockSize := rfl
  have hfirst : 1 * p.blockSize ≤ c * p.blockSize := Nat.mul_le_mul_right _ hc
  have hlast : (c + 1) * p.blockSize ≤ (n + 1) * p.blockSize :=
    Nat.mul_le_mul_right _ (by omega)
  rw [Nat.succ_mul n] at hlast
  constructor <;> omega

end Coverage

/-! ### Calls of a fresh decoder

What a call hits is what a scan finds at the positions of that call. Since a call leaves out what
the one before it returned, a packet found in two calls is returned by one of the two. -/

/-- Call `c`, counted from one, of a fresh decoder that is given the blocks returns the packet. -/
def Returns (p : Profile) (mode : Envelope.Mode) (blocks : List Bytes) (c : Nat)
    (packet : Bytes) : Prop :=
  1 ≤ c ∧ ∃ call, (decodeAll (fresh p mode) blocks)[c - 1]? = some call ∧
    packet ∈ call.2.map Hit.packet

/-- The strengths of all samples in the blocks. -/
def strengthsOf (mode : Envelope.Mode) (blocks : List Bytes) : Array Nat :=
  (Envelope.magnitudes mode blocks.flatten).toArray

/-- A scan finds the packet at a position that call `c` covers. -/
def FoundIn (p : Profile) (strengths : Array Nat) (c : Nat) (packet : Bytes) : Prop :=
  ∃ position, Covers p c position ∧ Scan.Matching p strengths position ∧
    packet = Scan.packet p strengths position

/-- Packets hold their preamble, the window is short enough for exact sums, and blocks are whole. -/
structure Admissible (p : Profile) (blocks : List Bytes) : Prop where
  preamble_le : p.preambleSymbols ≤ p.packetSymbols
  buffer_le : p.bufferLength ≤ 2 ^ 21
  whole : ∀ block ∈ blocks, block.length = p.blockBytes

section Calls

variable {p : Profile} {mode : Envelope.Mode} {blocks : List Bytes} {c : Nat}

theorem after_take_succ (d : Decoder) (hc : c < blocks.length) :
    d.after (blocks.take (c + 1)) = ((d.after (blocks.take c)).decode blocks[c]).1 := by
  rw [List.take_succ_eq_append_getElem hc, after_concat]

theorem getElem?_decodeAll_of_lt (d : Decoder) (hc : c < blocks.length) :
    (decodeAll d blocks)[c]? = some ((d.after (blocks.take c)).decode blocks[c]) := by
  rw [getElem?_decodeAll, List.getElem?_eq_getElem hc, Option.map_some]

@[simp] theorem profile_fresh (p : Profile) (mode : Envelope.Mode) :
    (fresh p mode).profile = p := rfl

/-- What a call returns is what the decoder remembers after it. -/
theorem returns_iff {packet : Bytes} :
    Returns p mode blocks c packet ↔
      c ≤ blocks.length ∧ packet ∈ ((fresh p mode).after (blocks.take c)).recent := by
  unfold Returns
  cases c with
  | zero => simp [fresh]
  | succ c =>
      rw [Nat.add_sub_cancel]
      by_cases hc : c < blocks.length
      · rw [getElem?_decodeAll_of_lt _ hc, after_take_succ _ hc]
        constructor
        · rintro ⟨_, call, hcall, hpacket⟩
          obtain rfl := Option.some.inj hcall
          exact ⟨hc, mem_recent_decode.2 hpacket⟩
        · rintro ⟨_, hpacket⟩
          exact ⟨Nat.succ_pos c, _, rfl, mem_recent_decode.1 hpacket⟩
      · have hnone : (decodeAll (fresh p mode) blocks)[c]? = none :=
          List.getElem?_eq_none (by simpa using hc)
        rw [hnone]
        constructor
        · rintro ⟨_, call, hcall, _⟩
          cases hcall
        · rintro ⟨hle, _⟩
          exact absurd hle hc

/-- A window of at most two to the 21 strengths is searched exactly. -/
theorem Admissible.exact (h : Admissible p blocks) :
    Exact p ((fresh p mode).after (blocks.take c)).signal := by
  rw [signal_after_take mode h.whole]
  have hlength : (slide (List.replicate p.bufferLength 0)
      (Envelope.magnitudes mode (blocks.take c).flatten)).length = p.bufferLength := by
    simp
  refine ⟨hlength, sum_lt (hlength.trans_le h.buffer_le) ?_⟩
  intro m hm
  rcases List.mem_append.1 (List.mem_of_mem_drop hm) with hsilent | hheard
  · rw [(List.mem_replicate.1 hsilent).2]
    decide
  · exact Envelope.lt_of_mem_magnitudes hheard

/-- The hits of a call, before any is left out, are the packets that a scan finds at the positions
which the call covers. -/
theorem Admissible.mem_hits (h : Admissible p blocks) (hc : c ≤ blocks.length) {hit : Hit} :
    hit ∈ hits p (decisions p ((fresh p mode).after (blocks.take c)).signal) ↔
      ∃ position, Covers p c position ∧ Scan.Matching p (strengthsOf mode blocks) position ∧
        position = ((c * p.blockSize : Nat) : Int) - p.bufferLength + hit.offset ∧
          hit.packet = Scan.packet p (strengthsOf mode blocks) position := by
  rw [(shows_after mode h.whole hc).mem_hits h.exact h.preamble_le]
  have hnext : (c + 1) * p.blockSize = c * p.blockSize + p.blockSize := Nat.succ_mul _ _
  constructor
  · rintro ⟨hoffset, hmatch, hpacket⟩
    refine ⟨_, ⟨?_, ?_⟩, hmatch, rfl, hpacket⟩
    · omega
    · rw [hnext]
      omega
  · rintro ⟨position, ⟨_, hto⟩, hmatch, rfl, hpacket⟩
    rw [hnext] at hto
    exact ⟨by omega, hmatch, hpacket⟩

theorem Admissible.mem_packets_hits (h : Admissible p blocks) (hc : c ≤ blocks.length)
    {packet : Bytes} :
    packet ∈ (hits p (decisions p ((fresh p mode).after (blocks.take c)).signal)).map
      Hit.packet ↔ FoundIn p (strengthsOf mode blocks) c packet := by
  rw [List.mem_map]
  constructor
  · rintro ⟨hit, hhit, rfl⟩
    rcases (h.mem_hits hc).1 hhit with ⟨position, hcovers, hmatch, _, hpacket⟩
    exact ⟨position, hcovers, hmatch, hpacket⟩
  · rintro ⟨position, hcovers, hmatch, rfl⟩
    obtain ⟨offset, hoffset⟩ := Int.eq_ofNat_of_zero_le (Int.sub_nonneg.2 hcovers.1)
    have hplace : position = ((c * p.blockSize : Nat) : Int) - p.bufferLength + offset := by
      omega
    exact ⟨⟨offset, _⟩, (h.mem_hits hc).2 ⟨position, hcovers, hmatch, hplace, rfl⟩, rfl⟩

/-- A call returns the packets at the positions which it covers, except for those that the call
before returned. -/
theorem Admissible.returns_succ_iff (h : Admissible p blocks) (hc : c < blocks.length)
    {packet : Bytes} :
    Returns p mode blocks (c + 1) packet ↔
      FoundIn p (strengthsOf mode blocks) (c + 1) packet ∧ ¬ Returns p mode blocks c packet := by
  rw [returns_iff, returns_iff, after_take_succ _ hc, mem_recent_iff, ← after_take_succ _ hc,
    profile_after, profile_fresh, h.mem_packets_hits hc]
  constructor
  · rintro ⟨_, hfound, hnew⟩
    exact ⟨hfound, fun hreturned => hnew hreturned.2⟩
  · rintro ⟨hfound, hnew⟩
    exact ⟨hc, hfound, fun hremembered => hnew ⟨Nat.le_of_lt hc, hremembered⟩⟩

/-- What is found in a call is returned by it or was just before it. -/
theorem Admissible.returns_of_foundIn (h : Admissible p blocks) (hc : 1 ≤ c)
    (hn : c ≤ blocks.length) {packet : Bytes}
    (hfound : FoundIn p (strengthsOf mode blocks) c packet) :
    Returns p mode blocks c packet ∨ Returns p mode blocks (c - 1) packet := by
  cases c with
  | zero => exact absurd hc (Nat.not_succ_le_zero 0)
  | succ c =>
      rw [Nat.add_sub_cancel]
      by_cases hbefore : Returns p mode blocks c packet
      · exact Or.inr hbefore
      · exact Or.inl ((h.returns_succ_iff hn).2 ⟨hfound, hbefore⟩)

/-- Some call returns the packet at a searched position. -/
theorem Admissible.exists_returns (h : Admissible p blocks) {position : Int}
    (hsearched : Searched p blocks.length position)
    (hmatch : Scan.Matching p (strengthsOf mode blocks) position) :
    ∃ c, Returns p mode blocks c (Scan.packet p (strengthsOf mode blocks) position) := by
  rcases exists_covers hsearched with ⟨c, ⟨hc, hn⟩, hcovers⟩
  rcases h.returns_of_foundIn hc hn ⟨position, hcovers, hmatch, rfl⟩ with hnow | hbefore
  · exact ⟨c, hnow⟩
  · exact ⟨c - 1, hbefore⟩

/-- Only packets found in a call are returned by it. -/
theorem Admissible.foundIn_of_returns (h : Admissible p blocks) {packet : Bytes}
    (hreturns : Returns p mode blocks c packet) :
    FoundIn p (strengthsOf mode blocks) c packet := by
  have hn := (returns_iff.1 hreturns).1
  cases c with
  | zero => exact absurd hreturns.1 (Nat.not_succ_le_zero 0)
  | succ c => exact ((h.returns_succ_iff hn).1 hreturns).1

/-- No packet is returned by two calls in a row. -/
theorem Admissible.not_returns_succ (h : Admissible p blocks) {packet : Bytes}
    (hreturns : Returns p mode blocks c packet) : ¬ Returns p mode blocks (c + 1) packet := by
  intro hagain
  have hc := (returns_iff.1 hagain).1
  exact ((h.returns_succ_iff hc).1 hagain).2 hreturns

end Calls

/-! ### Packets of a scan -/

@[simp] theorem length_packet (p : Profile) (strengths : Array Nat) (position : Int) :
    (Scan.packet p strengths position).length = p.packetBytes := by
  simp [Scan.packet, Profile.packetBytes]

/-- A packet holds its bits from the most significant one on, and clear bits after them. -/
theorem bit_packet (p : Profile) (strengths : Array Nat) (position : Int) (k : Nat) :
    Bits.bit (Scan.packet p strengths position) k =
      (decide (k < p.packetSymbols) && Scan.bit p strengths position k) := by
  unfold Scan.packet
  rw [Bits.bit_pack, List.getD_eq_getElem?_getD, List.getElem?_map]
  by_cases hk : k < p.packetSymbols
  · simp [hk]
  · simp [hk]

/-! ### Calls and scan -/

/-- The calls of a fresh decoder on a stream of blocks and a scan of the stream agree. -/
structure ScanAgreement (p : Profile) (mode : Envelope.Mode) (blocks : List Bytes) : Prop where
  /-- The packets returned are those at the searched positions where the preamble stands. -/
  returned : ∀ packet, (∃ c, Returns p mode blocks c packet) ↔
    ∃ position, Searched p blocks.length position ∧
      Scan.Matching p (strengthsOf mode blocks) position ∧
        packet = Scan.packet p (strengthsOf mode blocks) position
  /-- A packet holds the decisions of the scan, a bit apart, and clear bits after them. -/
  packed : ∀ position, (Scan.packet p (strengthsOf mode blocks) position).length = p.packetBytes ∧
    ∀ k, Bits.bit (Scan.packet p (strengthsOf mode blocks) position) k =
      (decide (k < p.packetSymbols) && Scan.bit p (strengthsOf mode blocks) position k)
  /-- Each searched position is covered by exactly one call, and no other position by any. -/
  covered : ∀ position, Searched p blocks.length position ↔
    ∃ c, ((1 ≤ c ∧ c ≤ blocks.length) ∧ Covers p c position) ∧
      ∀ c', (1 ≤ c' ∧ c' ≤ blocks.length) ∧ Covers p c' position → c' = c
  /-- A call has its hits at the positions that it covers, wherever the preamble stands. -/
  examined : ∀ c call, (decodeAll (fresh p mode) blocks)[c]? = some call →
    ∀ hit, hit ∈ hits p (decisions p call.1.signal) ↔
      ∃ position, Covers p (c + 1) position ∧
        Scan.Matching p (strengthsOf mode blocks) position ∧
          position = (((c + 1) * p.blockSize : Nat) : Int) - p.bufferLength + hit.offset ∧
            hit.packet = Scan.packet p (strengthsOf mode blocks) position
  /-- What stands at a covered position is returned by that call or by the one before. -/
  returned_near : ∀ c position, 1 ≤ c → c ≤ blocks.length → Covers p c position →
    Scan.Matching p (strengthsOf mode blocks) position →
      Returns p mode blocks c (Scan.packet p (strengthsOf mode blocks) position) ∨
        Returns p mode blocks (c - 1) (Scan.packet p (strengthsOf mode blocks) position)

/-- Block by block a decoder returns what a scan of the whole stream finds. -/
theorem calls_agree_with_scan (p : Profile) (mode : Envelope.Mode) (blocks : List Bytes)
    (hpreamble : p.preambleSymbols ≤ p.packetSymbols) (hbuffer : p.bufferLength ≤ 2 ^ 21)
    (hblocks : ∀ block ∈ blocks, block.length = p.blockBytes) :
    ScanAgreement p mode blocks := by
  have h : Admissible p blocks := ⟨hpreamble, hbuffer, hblocks⟩
  refine ⟨?returned, ?packed, ?covered, ?examined, ?returned_near⟩
  case returned =>
    intro packet
    constructor
    · rintro ⟨c, hreturns⟩
      rcases h.foundIn_of_returns hreturns with ⟨position, hcovers, hmatch, hpacket⟩
      have hn := (returns_iff.1 hreturns).1
      exact ⟨position, searched_of_covers hreturns.1 hn hcovers, hmatch, hpacket⟩
    · rintro ⟨position, hsearched, hmatch, rfl⟩
      exact h.exists_returns hsearched hmatch
  case packed =>
    intro position
    exact ⟨length_packet p _ position, bit_packet p _ position⟩
  case covered =>
    intro position
    constructor
    · intro hsearched
      rcases exists_covers hsearched with ⟨c, hc, hcovers⟩
      exact ⟨c, ⟨hc, hcovers⟩, fun c' h' => covers_unique h'.2 hcovers⟩
    · rintro ⟨c, ⟨⟨hc, hn⟩, hcovers⟩, _⟩
      exact searched_of_covers hc hn hcovers
  case examined =>
    intro c call hcall hit
    have hc : c < blocks.length := by
      have hlt := (List.getElem?_eq_some_iff.1 hcall).1
      rwa [length_decodeAll] at hlt
    rw [getElem?_decodeAll_of_lt _ hc] at hcall
    obtain rfl := Option.some.inj hcall
    rw [← after_take_succ _ hc]
    exact h.mem_hits hc
  case returned_near =>
    intro c position hc hn hcovers hmatch
    exact h.returns_of_foundIn hc hn ⟨position, hcovers, hmatch, rfl⟩

/-- Packets of two bits that begin with a set one, at one sample per chip. -/
def chirp : Profile := ⟨"chirp", 1, 1, 2, "1"⟩

/-- A chirp from the second sample on: it ends in the third block of two samples. -/
def chirpBlocks : List Bytes :=
  [[127, 127, 255, 255], [127, 127, 127, 127], [255, 255, 127, 127]]

theorem chirp_agrees :
    chirp.preambleSymbols ≤ chirp.packetSymbols ∧ chirp.bufferLength ≤ 2 ^ 21 ∧
      (∀ block ∈ chirpBlocks, block.length = chirp.blockBytes) ∧
        ScanAgreement chirp .exact chirpBlocks ∧
          ∃ c, Returns chirp .exact chirpBlocks c [0x80] := by
  have hpreamble : chirp.preambleSymbols ≤ chirp.packetSymbols := by decide
  have hbuffer : chirp.bufferLength ≤ 2 ^ 21 := by decide
  have hblocks : ∀ block ∈ chirpBlocks, block.length = chirp.blockBytes := by decide
  have hagree := calls_agree_with_scan chirp .exact chirpBlocks hpreamble hbuffer hblocks
  refine ⟨hpreamble, hbuffer, hblocks, hagree, (hagree.returned _).2 ⟨1, ?_, ?_, ?_⟩⟩
  · unfold Searched
    decide
  · unfold Scan.Matching
    rw [Profile.preambleBits_eq]
    decide
  · decide

end MeterRadio.Decoder
