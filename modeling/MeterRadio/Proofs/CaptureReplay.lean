/-
Module: MeterRadio.Proofs.CaptureReplay
Purpose: Which packets of a capture a replay of its sample file returns. A replay reads whole blocks
  and looks no further than a packet before their end, so in the last window it may stop too early.
Main exports: Capture.Accepted, Capture.ReplayLaw, Capture.replay_law, Capture.replay_of_capture,
  Capture.last_packet_lost
-/
import MeterRadio.Proofs.CapturedWindows
import MeterRadio.Proofs.PacketRecovery
import MeterRadio.Proofs.RunEnds
import MeterRadio.Proofs.StreamEcho

namespace MeterRadio.Capture

open Decoder (Admissible Covers Echoes Returns Searched Sound strengthsOf)

/-- A packet with a message to be logged was found in the block with the given number. -/
def Accepted (setup : Setup Decoder) (ys : List Yield) (i : Nat) (packet : Bytes) : Prop :=
  ∃ y, ys[i]? = some y ∧ packet ∈ y.candidates ∧ ∃ m, setup.message? packet = some m

/-- The blocks that a replay of a sample file reads. -/
def replayBlocks (p : Profile) (samples : Bytes) : List Bytes :=
  (Source.drain p.blockBytes (.ofBytes samples)).1

/-- Where a position lies in the window of block `i`. -/
def offsetIn (p : Profile) (i : Nat) (position : Int) : Int :=
  position - ((((i + 1) * p.blockSize : Nat) : Int) - p.bufferLength)

/-- The position in the sample file of what lies at a position in the window of block `i`. -/
def placeIn (p : Profile) (ys : List Yield) (i : Nat) (position : Int) : Int :=
  (((windows (ys.take i)).length / 2 : Nat) : Int) + offsetIn p i position

/-- Samples behind the last whole block of a sample file. -/
def leftOver (p : Profile) (samples : Bytes) : Nat := samples.length / 2 % p.blockSize

theorem messages_of_mem {σ : Type} {setup : Setup σ} {readings : List Reading} {y : Yield} :
    ∀ {decoder : σ}, y ∈ yields setup decoder readings →
      y.messages = y.candidates.filterMap setup.message? := by
  induction readings with
  | nil =>
      intro decoder h
      cases h
  | cons reading rest ih =>
      intro decoder h
      rcases List.mem_cons.1 h with rfl | hrest
      · rfl
      · exact ih hrest

section Replay

variable {p : Profile} {mode : Envelope.Mode} {setup : Setup Decoder} {readings : List Reading}

theorem blockBytes_pos (p : Profile) : 0 < p.blockBytes :=
  Nat.mul_pos Nat.zero_lt_two p.blockSize_pos

theorem replayBlocks_eq (p : Profile) (samples : Bytes) :
    replayBlocks p samples = Source.blocks p.blockBytes samples := by
  rw [replayBlocks, Source.drain_ofBytes (blockBytes_pos p)]

theorem admissible_replay (hpreamble : p.preambleSymbols ≤ p.packetSymbols)
    (hbuffer : p.bufferLength ≤ 2 ^ 21) (samples : Bytes) :
    Admissible p (replayBlocks p samples) where
  preamble_le := hpreamble
  buffer_le := hbuffer
  whole := by
    intro block hblock
    rw [replayBlocks_eq] at hblock
    exact Source.length_of_mem_blocks (blockBytes_pos p) _ hblock

/-- A block in which a packet was accepted has its window kept. -/
theorem Accepted.exists_match {decoder : Decoder} {i : Nat} {packet : Bytes}
    (h : Accepted setup (yields setup decoder readings) i packet) :
    ∃ y, (yields setup decoder readings)[i]? = some y ∧ packet ∈ y.candidates ∧
      y.isMatch = true := by
  obtain ⟨y, hy, hpacket, m, hm⟩ := h
  refine ⟨y, hy, hpacket, ?_⟩
  have hmem : m ∈ y.messages := by
    rw [messages_of_mem (List.mem_of_getElem? hy)]
    exact List.mem_filterMap.2 ⟨packet, hpacket, hm⟩
  have hne : y.messages ≠ [] := List.ne_nil_of_mem hmem
  simpa [Yield.isMatch] using hne

/-! ### Places in the file

A window is as long as a packet and a block together, so places in the file follow from the number
of windows before them. What a replay does not look at lies behind the last whole block. -/

theorem length_windows_take (h : setup.decoder = .ofProfile p) (i : Nat) :
    (windows ((yields setup (.fresh p mode) readings).take i)).length =
      ((yields setup (.fresh p mode) readings).take i).countP Yield.isMatch *
        (2 * p.bufferLength) :=
  length_windows fun _ hy => length_window h (List.mem_of_mem_take hy)

theorem length_windows_all (h : setup.decoder = .ofProfile p) :
    (windows (yields setup (.fresh p mode) readings)).length =
      (yields setup (.fresh p mode) readings).countP Yield.isMatch * (2 * p.bufferLength) :=
  length_windows fun _ hy => length_window h hy

/-- A replay reads as many blocks as fit into the windows. -/
theorem length_replayBlocks (h : setup.decoder = .ofProfile p) :
    (replayBlocks p (windows (yields setup (.fresh p mode) readings))).length =
      (yields setup (.fresh p mode) readings).countP Yield.isMatch * p.bufferLength /
        p.blockSize := by
  rw [replayBlocks_eq, Source.length_blocks (blockBytes_pos p), length_windows_all h,
    Profile.blockBytes, Nat.mul_left_comm, Nat.mul_div_mul_left _ _ Nat.zero_lt_two]

/-- Windows leave as many samples over as their number makes. -/
theorem leftOver_windows (h : setup.decoder = .ofProfile p) :
    leftOver p (windows (yields setup (.fresh p mode) readings)) =
      (yields setup (.fresh p mode) readings).countP Yield.isMatch * p.bufferLength %
        p.blockSize := by
  rw [leftOver, length_windows_all h, Nat.mul_left_comm,
    Nat.mul_div_cancel_left _ Nat.zero_lt_two]

theorem countP_isMatch {ys : List Yield} {i : Nat} {y : Yield} (hy : ys[i]? = some y)
    (hmatch : y.isMatch = true) :
    ys.countP Yield.isMatch =
      (ys.take i).countP Yield.isMatch + (1 + (ys.drop (i + 1)).countP Yield.isMatch) := by
  have hsplit := congrArg (List.countP Yield.isMatch) (eq_take_append_of_getElem? hy)
  rw [List.countP_append, List.countP_cons_of_pos hmatch, Nat.add_comm _ 1] at hsplit
  exact hsplit

/-- Among `windows` windows, of a packet and a block each, a packet in the window behind `earlier`
others ends before the last whole block does, unless its window is the last one and the samples
that are left over are too many. -/
theorem room_iff {block packet size earlier windows offset : Nat} (hsize : size = packet + block)
    (hoffset : offset < block) (hearlier : earlier < windows) :
    earlier * size + offset + packet < windows * size / block * block ↔
      earlier + 1 < windows ∨ offset + windows * size % block < block := by
  have hdivided := Nat.div_add_mod (windows * size) block
  have hleft := Nat.mod_lt (windows * size) (Nat.zero_lt_of_lt hoffset)
  rw [Nat.mul_comm block] at hdivided
  rcases Nat.lt_or_eq_of_le hearlier with hlater | rfl
  · have hmore : (earlier + 2) * size ≤ windows * size := Nat.mul_le_mul_right _ hlater
    rw [Nat.add_mul] at hmore
    constructor
    · exact fun _ => .inl hlater
    · intro _
      omega
  · have hall : earlier.succ * size = earlier * size + size := Nat.succ_mul _ _
    constructor
    · intro hroom
      exact .inr (by omega)
    · rintro (hlater | hfew)
      · exact absurd hlater (Nat.lt_irrefl _)
      · omega

/-- The offset of a covered position in the window. -/
theorem exists_offset {i : Nat} {position : Int} (hcovers : Covers p (i + 1) position) :
    ∃ offset : Nat, offset < p.blockSize ∧ offsetIn p i position = offset ∧
      position = ((((i + 1) * p.blockSize : Nat) : Int) - p.bufferLength) + offset := by
  obtain ⟨hfrom, hto⟩ := hcovers
  obtain ⟨offset, hoffset⟩ := Int.eq_ofNat_of_zero_le (Int.sub_nonneg.2 hfrom)
  have hnext : (i + 1 + 1) * p.blockSize = (i + 1) * p.blockSize + p.blockSize :=
    Nat.succ_mul _ _
  rw [hnext] at hto
  exact ⟨offset, by omega, hoffset, by omega⟩

/-- The place of a packet is looked at unless its window is the last one and more samples are left
over than follow the packet. -/
theorem searched_place_iff (h : setup.decoder = .ofProfile p) {i : Nat} {y : Yield}
    (hy : (yields setup (.fresh p mode) readings)[i]? = some y) (hmatch : y.isMatch = true)
    {position : Int} (hcovers : Covers p (i + 1) position) :
    let ys := yields setup (.fresh p mode) readings
    Searched p (replayBlocks p (windows ys)).length (placeIn p ys i position) ↔
      (∃ later ∈ ys.drop (i + 1), later.isMatch = true) ∨
        offsetIn p i position + leftOver p (windows ys) < p.blockSize := by
  intro ys
  obtain ⟨offset, hoffset, hin, -⟩ := exists_offset hcovers
  have hcount : ys.countP Yield.isMatch = (ys.take i).countP Yield.isMatch +
      (1 + (ys.drop (i + 1)).countP Yield.isMatch) := countP_isMatch hy hmatch
  have hplace : (windows (ys.take i)).length / 2 =
      (ys.take i).countP Yield.isMatch * p.bufferLength := by
    rw [length_windows_take h i, Nat.mul_left_comm, Nat.mul_div_cancel_left _ Nat.zero_lt_two]
  have hleft : leftOver p (windows ys) =
      ys.countP Yield.isMatch * p.bufferLength % p.blockSize := leftOver_windows h
  have hlater : (∃ later ∈ ys.drop (i + 1), later.isMatch = true) ↔
      (ys.take i).countP Yield.isMatch + 1 < ys.countP Yield.isMatch := by
    rw [← List.countP_pos_iff, hcount]
    omega
  have hearlier : (ys.take i).countP Yield.isMatch < ys.countP Yield.isMatch := by
    rw [hcount]
    omega
  have hblocks : (replayBlocks p (windows ys)).length =
      ys.countP Yield.isMatch * p.bufferLength / p.blockSize := length_replayBlocks h
  have hroom := room_iff (show p.bufferLength = p.packetLength + p.blockSize from rfl) hoffset
    hearlier
  rw [hlater, hleft, placeIn, hplace, hin, hblocks, Searched]
  constructor
  · rintro ⟨-, hto⟩
    rcases hroom.1 (by omega) with hmore | hfew
    · exact .inl hmore
    · exact .inr (by omega)
  · intro hcase
    have hends := hroom.2 (hcase.imp_right fun hfew => by omega)
    constructor <;> omega

/-- At a place that is looked at, the replay echoes the stream from the position on. -/
theorem echoes_place (h : setup.decoder = .ofProfile p)
    (hwhole : ∀ reading ∈ readings, reading.block.length = p.blockBytes) {i : Nat} {y : Yield}
    (hy : (yields setup (.fresh p mode) readings)[i]? = some y) (hmatch : y.isMatch = true)
    {position : Int} (hcovers : Covers p (i + 1) position) :
    let ys := yields setup (.fresh p mode) readings
    Searched p (replayBlocks p (windows ys)).length (placeIn p ys i position) →
      Echoes p (strengthsOf mode (readings.map Reading.block)) position
        (strengthsOf mode (replayBlocks p (windows ys))) (placeIn p ys i position) := by
  intro ys hsearched j hj hstream
  obtain ⟨offset, hoffset, hin, hposition⟩ := exists_offset hcovers
  have hplace : (windows (ys.take i)).length = 2 * ((windows (ys.take i)).length / 2) := by
    rw [length_windows_take h i, Nat.mul_left_comm, Nat.mul_div_cancel_left _ Nat.zero_lt_two]
  have hbuffer : p.bufferLength = p.packetLength + p.blockSize := rfl
  rw [placeIn, hin] at hsearched ⊢
  have hto := hsearched.2
  rw [replayBlocks_eq] at hto ⊢
  have hheard : (windows (ys.take i)).length / 2 + (offset + j) <
      (Source.blocks p.blockBytes (windows ys)).length * p.blockSize := by omega
  have hsame := strengthAt_replay h hwhole hy hmatch hplace (by omega) hheard
  rw [Int.natCast_add, ← Int.add_assoc, ← Int.add_assoc, ← hposition, heardAt,
    if_neg (Int.not_lt.2 hstream)] at hsame
  exact hsame

end Replay

/-! ### The law of replays

A call and the replay hear the same samples of the stream, at other positions. So a packet returns
from its place if that is looked at, which is a matter of counting samples. -/

/-- What a replay of the windows of blocks does with the packets that were accepted in them. -/
structure ReplayLaw (p : Profile) (mode : Envelope.Mode) (setup : Setup Decoder)
    (readings : List Reading) : Prop where
  /-- An accepted packet was found at a position of its block. -/
  found : ∀ i packet, Accepted setup (yields setup (.fresh p mode) readings) i packet →
    ∃ position, Covers p (i + 1) position ∧
      Scan.Matching p (strengthsOf mode (readings.map Reading.block)) position ∧
        packet = Scan.packet p (strengthsOf mode (readings.map Reading.block)) position
  /-- Its place in the sample file is looked at, unless its window is the last one and more samples
  are left over behind the last whole block than follow the packet. -/
  searched_iff : ∀ i packet, Accepted setup (yields setup (.fresh p mode) readings) i packet →
    ∀ position, Covers p (i + 1) position →
      let ys := yields setup (.fresh p mode) readings
      Searched p (replayBlocks p (windows ys)).length (placeIn p ys i position) ↔
        (∃ later ∈ ys.drop (i + 1), later.isMatch = true) ∨
          offsetIn p i position + leftOver p (windows ys) < p.blockSize
  /-- It returns from there, if it lies in the stream or its first bit is a set one. -/
  returned : ∀ i packet, Accepted setup (yields setup (.fresh p mode) readings) i packet →
    ∀ position, Covers p (i + 1) position →
      Scan.Matching p (strengthsOf mode (readings.map Reading.block)) position →
        packet = Scan.packet p (strengthsOf mode (readings.map Reading.block)) position →
          Sound p position →
            let ys := yields setup (.fresh p mode) readings
            Searched p (replayBlocks p (windows ys)).length (placeIn p ys i position) →
              ∃ c, Returns p mode (replayBlocks p (windows ys)) c packet

/-- The windows of any blocks are replayed after the law. -/
theorem replay_law {p : Profile} {setup : Setup Decoder} {readings : List Reading}
    (mode : Envelope.Mode) (h : setup.decoder = .ofProfile p)
    (hpreamble : p.preambleSymbols ≤ p.packetSymbols) (hbuffer : p.bufferLength ≤ 2 ^ 21)
    (hwhole : ∀ reading ∈ readings, reading.block.length = p.blockBytes) :
    ReplayLaw p mode setup readings where
  found := by
    intro i packet haccepted
    obtain ⟨y, hy, hpacket, -⟩ := haccepted.exists_match
    have hadmissible : Admissible p (readings.map Reading.block) :=
      ⟨hpreamble, hbuffer, length_of_mem_blocks hwhole⟩
    exact hadmissible.foundIn_of_returns (((yield_of_getElem? h hy).2.1 packet).1 hpacket)
  searched_iff := by
    intro i packet haccepted position hcovers
    obtain ⟨y, hy, -, hmatch⟩ := haccepted.exists_match
    exact searched_place_iff h hy hmatch hcovers
  returned := by
    intro i packet haccepted position hcovers hmatching hpacket hsound ys hsearched
    obtain ⟨y, hy, -, hmatch⟩ := haccepted.exists_match
    have hecho := echoes_place h hwhole hy hmatch hcovers hsearched
    have hadmissible := admissible_replay hpreamble hbuffer (windows ys)
    rw [hpacket, ← hecho.packet_eq hsound hmatching]
    exact hadmissible.exists_returns hsearched (hecho.matching hsound hpreamble hmatching)

/-! ### Runs -/

/-- A run that keeps samples and ends for a reason leaves the windows of its blocks. -/
theorem exists_file_of_ok {σ : Type} (setup : Setup σ) (ending : TransportError)
    (signals : Signals) (decoder : σ) (format : Log.Format) (withOffset : Bool)
    (readings : List Reading) {reason : ExitReason}
    (hok : (run setup ending signals (.fresh decoder (.fresh format withOffset .empty)
      (some .fresh)) readings).result = .ok reason) :
    let o := run setup ending signals
      (.fresh decoder (.fresh format withOffset .empty) (some .fresh)) readings
    ∃ file, o.state.samples = some file ∧ file.sink.contents =
      windows (yields setup decoder (readings.take o.state.tally.blocks)) := by
  intro o
  obtain ⟨k, -, hblocks, -, hbalanced⟩ := run_balanced readings signals _ [] reason
    (Balanced.fresh decoder format withOffset true) hok
  have hcount : o.state.tally.blocks = k := hblocks.trans (Nat.zero_add k)
  rw [List.nil_append, ← hcount] at hbalanced
  exact hbalanced.exists_file

theorem leftOver_eq_zero {p : Profile} {mode : Envelope.Mode} {setup : Setup Decoder}
    {readings : List Reading} (h : setup.decoder = .ofProfile p)
    (haligned : p.blockSize ∣ p.packetLength) :
    leftOver p (windows (yields setup (.fresh p mode) readings)) = 0 := by
  have hbuffer : p.blockSize ∣ p.bufferLength := (Nat.dvd_add_self_right).2 haligned
  rw [leftOver_windows h]
  exact Nat.mod_eq_zero_of_dvd (Nat.dvd_mul_left_of_dvd hbuffer _)

/-- The preamble of standard consumption messages begins with a set bit. -/
theorem head?_preambleBits_scm (n : Nat) :
    (Protocol.scm.profile n).preambleBits.head? = some true := by
  rw [Profile.preambleBits_eq]
  exact (show (Scm.preamble.toUTF8.data.toList.map (· == '1'.toNat.toUInt8)).head? = some true by
    decide)

/-- A run that keeps samples and ends for a reason leaves a sample file that is replayed after the
law. If blocks divide packets, all standard consumption messages return. -/
theorem replay_of_capture (protocol : Protocol) (n : Nat) (mode : Envelope.Mode)
    (setup : Setup Decoder) (ending : TransportError) (signals : Signals) (format : Log.Format)
    (withOffset : Bool) (readings : List Reading) {reason : ExitReason}
    (hsetup : setup.decoder = .ofProfile (protocol.profile n))
    (hbuffer : (protocol.profile n).bufferLength ≤ 2 ^ 21)
    (hwhole : ∀ reading ∈ readings, reading.block.length = (protocol.profile n).blockBytes)
    (hok : (run setup ending signals (.fresh (.fresh (protocol.profile n) mode)
      (.fresh format withOffset .empty) (some .fresh)) readings).result = .ok reason) :
    let p := protocol.profile n
    let o := run setup ending signals
      (.fresh (.fresh p mode) (.fresh format withOffset .empty) (some .fresh)) readings
    let taken := readings.take o.state.tally.blocks
    let ys := yields setup (.fresh p mode) taken
    ∃ file, o.state.samples = some file ∧ file.sink.contents = windows ys ∧
      ReplayLaw p mode setup taken ∧
      (protocol = .scm → ∀ position, Sound p position) ∧
      (protocol = .scm → p.blockSize ∣ p.packetLength →
        ∀ i packet, Accepted setup ys i packet →
          ∃ c, Returns p mode (replayBlocks p file.sink.contents) c packet) := by
  intro p o taken ys
  obtain ⟨file, hfile, hfile_eq⟩ :=
    exists_file_of_ok setup ending signals (.fresh p mode) format withOffset readings hok
  have hlaw : ReplayLaw p mode setup taken := replay_law mode hsetup
    (Decoder.preambleSymbols_profile_le protocol n) hbuffer
    fun reading hreading => hwhole reading (List.mem_of_mem_take hreading)
  have hsound : protocol = .scm → ∀ position, Sound p position := by
    rintro rfl position
    exact .inr (head?_preambleBits_scm n)
  refine ⟨file, hfile, hfile_eq, hlaw, hsound, ?_⟩
  intro hscm haligned i packet haccepted
  obtain ⟨position, hcovers, hmatching, hpacket⟩ := hlaw.found i packet haccepted
  rw [hfile_eq]
  refine hlaw.returned i packet haccepted position hcovers hmatching hpacket
    (hsound hscm position) ((hlaw.searched_iff i packet haccepted position hcovers).2 (.inr ?_))
  obtain ⟨offset, hoffset, hin, -⟩ := exists_offset hcovers
  rw [leftOver_eq_zero hsetup haligned, hin]
  omega

/-! ### A packet in the last window

A stream of six blocks has one packet in it, which only the last call can find. It lies in the
window of that call as far from its front as it was delayed, less half a block. -/

open Modulation (hold ofBits)
open Decoder (plainKeying)

/-- At three samples per chip a packet is four and a half blocks long. -/
def delayedProfile : Profile := Protocol.scm.profile 3

/-- A standard consumption message with its check. -/
def validPacket : Bytes :=
  [0xf9, 0x53, 0x00, 0x2b, 0x0c, 0x51, 0xa6, 0x00, 0x7f, 0x13, 0x6b, 0xc3]

/-- The packet after `k` quiet samples, with more of them behind it. -/
def delayedStream (k : Nat) : Bytes :=
  hold k plainKeying.low ++ ofBits plainKeying 3 (Bits.ofBytes validPacket) ++
    hold (192 - k) plainKeying.low

def delayedReadings (k : Nat) : List Reading :=
  (Source.blocks delayedProfile.blockBytes (delayedStream k)).map relayReading

/-- Everything is logged, and the sinks work. -/
def delayedSetup : Setup Decoder where
  decoder := .ofProfile delayedProfile
  reader := Protocol.scm.read
  filter := ⟨[], []⟩
  single := false
  logFaults _ := .none
  sampleFaults _ := .none

/-- The yields of a fresh decoder for that stream. -/
abbrev delayedYields (k : Nat) : List Yield :=
  yields delayedSetup (.fresh delayedProfile .exact) (delayedReadings k)

/-- The blocks of a replay of its capture. -/
abbrev delayedReplay (k : Nat) : List Bytes :=
  replayBlocks delayedProfile (windows (delayedYields k))

theorem message?_validPacket : delayedSetup.message? validPacket =
    some (.scm ⟨32531, 10, 0, 3, 807334, 0x6bc3⟩) := by
  decide +kernel

section Delayed

variable {k : Nat} (hk : k ≤ 192)

theorem map_block_delayedReadings (k : Nat) : (delayedReadings k).map Reading.block =
    Source.blocks delayedProfile.blockBytes (delayedStream k) := by
  rw [delayedReadings, List.map_map]
  exact List.map_id _

theorem whole_delayedReadings (k : Nat) :
    ∀ reading ∈ delayedReadings k, reading.block.length = delayedProfile.blockBytes := by
  intro reading hreading
  obtain ⟨block, hblock, rfl⟩ := List.mem_map.1 hreading
  exact Source.length_of_mem_blocks (blockBytes_pos _) _ hblock

theorem admissible_delayed (k : Nat) :
    Admissible delayedProfile ((delayedReadings k).map Reading.block) where
  preamble_le := Decoder.preambleSymbols_profile_le .scm 3
  buffer_le := by decide
  whole := length_of_mem_blocks (whole_delayedReadings k)

include hk

theorem length_delayedStream : (delayedStream k).length = 6 * delayedProfile.blockBytes := by
  rw [delayedStream, List.length_append, List.length_append, Modulation.length_hold,
    Modulation.length_hold, Modulation.length_ofBits, Bits.length_ofBytes]
  change 2 * k + 8 * 12 * (4 * 3) + 2 * (192 - k) = 6 * 256
  omega

theorem length_delayedReadings : (delayedReadings k).length = 6 := by
  rw [delayedReadings, List.length_map, Source.length_blocks (blockBytes_pos _),
    length_delayedStream hk, Nat.mul_div_cancel _ (blockBytes_pos _)]

theorem flatten_delayedReadings :
    ((delayedReadings k).map Reading.block).flatten = delayedStream k := by
  rw [map_block_delayedReadings, Source.flatten_blocks (blockBytes_pos _),
    length_delayedStream hk, Nat.mul_div_cancel _ (blockBytes_pos _), ← length_delayedStream hk,
    List.take_length]

/-- Before the packet all is of one strength. -/
theorem strengthAt_delayed {x : Int} (hx : 0 ≤ x) (hbefore : x < k) :
    Scan.strengthAt (strengthsOf .exact ((delayedReadings k).map Reading.block)) x =
      Envelope.magnitude .exact 127 127 := by
  have heven : (hold k plainKeying.low).length % 2 = 0 := by
    rw [Modulation.length_hold]
    exact Nat.mul_mod_right 2 k
  have hplace : x.toNat < k := by omega
  rw [Scan.strengthAt, if_neg (Int.not_lt.2 hx), strengthsOf, flatten_delayedReadings hk,
    delayedStream, List.append_assoc, Envelope.magnitudes_append _ _ heven,
    Modulation.magnitudes_hold, Array.getD_eq_getD_getElem?, List.getElem?_toArray,
    List.getElem?_append_left (by simpa using hplace), List.getElem?_replicate, if_pos hplace]
  rfl

/-- What a call finds reaches into the packet. -/
theorem lt_of_matching_delayed {position : Int} (hmatching : Scan.Matching delayedProfile
      (strengthsOf .exact ((delayedReadings k).map Reading.block)) position) :
    (k : Int) < position + 6 := by
  refine Int.not_le.1 fun hquiet => ?_
  exact Decoder.not_matching_of_level (head?_preambleBits_scm 3)
    (fun x => strengthAt_delayed hk) hquiet hmatching

/-- So does what a block is kept for. -/
theorem lt_of_returns_delayed {c : Nat} {packet : Bytes}
    (hreturns : Returns delayedProfile .exact ((delayedReadings k).map Reading.block) c packet) :
    k + 704 < (c + 1) * 128 + 6 := by
  obtain ⟨position, ⟨-, hto⟩, hmatching, -⟩ :=
    (admissible_delayed k).foundIn_of_returns hreturns
  have hreach := lt_of_matching_delayed hk hmatching
  change position < (((c + 1) * 128 : Nat) : Int) - (704 : Nat) at hto
  omega

end Delayed

/-- The packet is found where it was sent. -/
theorem found_delayed {k : Nat} (hfrom : 64 ≤ k) (hto : k < 192) :
    let strengths := strengthsOf .exact ((delayedReadings k).map Reading.block)
    Covers delayedProfile 6 k ∧ Scan.Matching delayedProfile strengths k ∧
      validPacket = Scan.packet delayedProfile strengths k := by
  have hcarries := Decoder.carries_of_flatten .exact (Modulation.length_hold k plainKeying.low)
    (flatten_delayedReadings (Nat.le_of_lt hto))
  have hlow : Envelope.magnitude .exact plainKeying.low.1 plainKeying.low.2 <
      Envelope.magnitude .exact plainKeying.high.1 plainKeying.high.2 := by decide
  have hpreamble : delayedProfile.preambleBits <+: Bits.ofBytes validPacket := by
    rw [Profile.preambleBits_eq]
    decide
  refine ⟨?_, hcarries.matching (p := delayedProfile) (by decide) hlow hpreamble, ?_⟩
  · change ((6 * 128 : Nat) : Int) - (704 : Nat) ≤ k ∧
      (k : Int) < ((7 * 128 : Nat) : Int) - (704 : Nat)
    omega
  · rw [hcarries.packet_eq (p := delayedProfile) (by decide) hlow (by decide),
      Bits.pack_ofBytes]

/-- The last call returns it, and its message is logged for the last block. -/
theorem accepted_delayed {k : Nat} (hfrom : 70 ≤ k) (hto : k < 192) :
    Accepted delayedSetup (delayedYields k) 5 validPacket := by
  have hk : k ≤ 192 := Nat.le_of_lt hto
  have hlength : 5 < (delayedYields k).length := by
    rw [length_yields, length_delayedReadings hk]
    decide
  have hcalls : 6 ≤ ((delayedReadings k).map Reading.block).length := by
    rw [List.length_map, length_delayedReadings hk]
  have hy := List.getElem?_eq_getElem hlength
  refine ⟨_, hy, ((yield_of_getElem? rfl hy).2.1 validPacket).2 ?_, _, message?_validPacket⟩
  rcases (admissible_delayed k).returns_of_foundIn (by decide) hcalls
    ⟨k, found_delayed (by omega) hto⟩ with hlast | hbefore
  · exact hlast
  · have hreach := lt_of_returns_delayed hk hbefore
    omega

/-- No other block is kept. -/
theorem countP_delayed {k : Nat} (hfrom : 70 ≤ k) (hto : k < 192) :
    ((delayedYields k).take 5).countP Yield.isMatch = 0 ∧
      (delayedYields k).countP Yield.isMatch = 1 := by
  have hk : k ≤ 192 := Nat.le_of_lt hto
  have hearlier : ((delayedYields k).take 5).countP Yield.isMatch = 0 := by
    refine List.countP_eq_zero.2 fun y hy hmatch => ?_
    obtain ⟨i, hi⟩ := List.getElem?_of_mem hy
    obtain ⟨hlt, -⟩ := List.getElem?_eq_some_iff.1 hi
    have hbefore : i < 5 := Nat.lt_of_lt_of_le hlt (List.length_take_le _ _)
    rw [List.getElem?_take_of_lt hbefore] at hi
    have hmessages := messages_of_mem (List.mem_of_getElem? hi)
    have hne : y.messages ≠ [] := by simpa [Yield.isMatch] using hmatch
    obtain ⟨m, hm⟩ := List.exists_mem_of_ne_nil _ hne
    rw [hmessages] at hm
    obtain ⟨packet, hpacket, -⟩ := List.mem_filterMap.1 hm
    have hreach := lt_of_returns_delayed hk (((yield_of_getElem? rfl hi).2.1 packet).1 hpacket)
    omega
  obtain ⟨y, hy, -, hmatch⟩ := (accepted_delayed hfrom hto).exists_match
  have hnone : (delayedYields k).drop 6 = [] := by
    refine List.drop_eq_nil_of_le ?_
    rw [length_yields, length_delayedReadings hk]
  refine ⟨hearlier, ?_⟩
  rw [countP_isMatch hy hmatch, hearlier, hnone]
  rfl

/-- Half a block is left over, so there is room for a packet in the first half of the window. -/
theorem room_delayed {k : Nat} (hfrom : 70 ≤ k) (hto : k < 128) :
    offsetIn delayedProfile 5 k + leftOver delayedProfile (windows (delayedYields k)) <
      delayedProfile.blockSize := by
  rw [leftOver_windows rfl, (countP_delayed hfrom (by omega)).2]
  change (k : Int) - (((6 * 128 : Nat) : Int) - (704 : Nat)) + (64 : Nat) < (128 : Nat)
  omega

/-- The capture is one window, and a replay reads five blocks of it. -/
theorem length_replayBlocks_delayed {k : Nat} (hfrom : 70 ≤ k) (hto : k < 192) :
    (delayedReplay k).length = 5 := by
  rw [length_replayBlocks rfl, (countP_delayed hfrom hto).2]
  rfl

/-- The replay hears what lies before the packet in that window. -/
theorem strengthAt_replay_delayed {k j : Nat} (hfrom : 70 ≤ k) (hto : k < 192)
    (hbefore : j + 64 < k) :
    Scan.strengthAt (strengthsOf .exact (delayedReplay k)) j =
      Envelope.magnitude .exact 127 127 := by
  obtain ⟨y, hy, -, hmatch⟩ := (accepted_delayed hfrom hto).exists_match
  have hfirst : (windows ((delayedYields k).take 5)).length = 2 * 0 := by
    rw [length_windows_take rfl, (countP_delayed hfrom hto).1, Nat.zero_mul]
  have hblocks := length_replayBlocks_delayed hfrom hto
  rw [delayedReplay, replayBlocks_eq] at hblocks ⊢
  have hheard : 0 + j < (Source.blocks delayedProfile.blockBytes
      (windows (delayedYields k))).length * delayedProfile.blockSize := by
    rw [hblocks]
    change 0 + j < 5 * 128
    omega
  have hsame := strengthAt_replay rfl (whole_delayedReadings k) hy hmatch hfirst
    (show j < 704 by omega) hheard
  rw [Int.natCast_zero, Int.zero_add] at hsame
  rw [hsame, heardAt, show (((5 + 1) * delayedProfile.blockSize : Nat) : Int) -
    delayedProfile.bufferLength = 64 from rfl, if_neg (by omega)]
  exact strengthAt_delayed (Nat.le_of_lt hto) (by omega) (by omega)

/-- A packet in the second half of the last window does not return. The replay ends before it has
seen enough of the packet. -/
theorem not_returns_delayed {k c : Nat} {packet : Bytes} (hfrom : 134 ≤ k) (hto : k < 192) :
    ¬ Returns delayedProfile .exact (delayedReplay k) c packet := by
  intro hreturns
  have hkept : 70 ≤ k := Nat.le_trans (by decide) hfrom
  have hcalls := (Decoder.returns_iff.1 hreturns).1
  rw [length_replayBlocks_delayed hkept hto] at hcalls
  obtain ⟨position, ⟨-, hcovered⟩, hmatching, -⟩ :=
    (admissible_replay (Decoder.preambleSymbols_profile_le .scm 3) (by decide)
      _).foundIn_of_returns hreturns
  have hlevel : ∀ x : Int, 0 ≤ x → x < 70 →
      Scan.strengthAt (strengthsOf .exact (delayedReplay k)) x =
        Envelope.magnitude .exact 127 127 := by
    intro x hx hbefore
    obtain ⟨j, rfl⟩ := Int.eq_ofNat_of_zero_le hx
    exact strengthAt_replay_delayed hkept hto (by omega)
  refine Decoder.not_matching_of_level (head?_preambleBits_scm 3) hlevel ?_ hmatching
  change position < (((c + 1) * 128 : Nat) : Int) - (704 : Nat) at hcovered
  change position + (6 : Nat) ≤ 70
  omega

/-- The capture of that stream. -/
def delayedRun (k : Nat) : Outcome Decoder :=
  run delayedSetup .endOfStream .quiet (.fresh (.fresh (Protocol.scm.profile 3) .exact)
    (.fresh .json true .empty) (some .fresh)) (delayedReadings k)

/-- It goes on to the end of the stream. -/
theorem result_delayedRun (k : Nat) : (delayedRun k).result = .ok .endOfStream ∧
    (delayedReadings k).take (delayedRun k).state.tally.blocks = delayedReadings k := by
  have hquiet : ∀ reading ∈ delayedReadings k, reading.arrivals = [] := by
    intro reading hreading
    obtain ⟨block, -, rfl⟩ := List.mem_map.1 hreading
    rfl
  obtain ⟨hstate, hresult⟩ : _ ∧ (delayedRun k).result = _ :=
    run_of_working .endOfStream (fun _ => rfl) (fun _ => rfl) rfl rfl hquiet
  refine ⟨hresult, ?_⟩
  have hblocks : (delayedRun k).state.tally.blocks = 0 + (delayedReadings k).length := by
    rw [show (delayedRun k).state = _ from hstate]
    exact blocks_through delayedSetup (delayedReadings k) _
  rw [hblocks, Nat.zero_add, List.take_length]

/-- A packet in the first half of the last window returns. -/
theorem early_packet_returns :
    (delayedRun 100).result = .ok .endOfStream ∧
      ∃ file, (delayedRun 100).state.samples = some file ∧
        ∃ c, Returns delayedProfile .exact (replayBlocks delayedProfile file.sink.contents) c
          validPacket := by
  -- Over a variable the run is not unfolded.
  generalize hdelay : 100 = k
  have hfrom : 70 ≤ k := by omega
  have hto : k < 192 := by omega
  obtain ⟨hresult, htaken⟩ := result_delayedRun k
  obtain ⟨file, hfile, hcontents, hlaw, hsound, -⟩ :=
    replay_of_capture .scm 3 .exact delayedSetup .endOfStream .quiet .json true
      (delayedReadings k) rfl (by decide) (whole_delayedReadings k) hresult
  rw [← delayedRun, htaken] at hcontents hlaw
  obtain ⟨hcovers, hmatching, hpacket⟩ := found_delayed (Nat.le_trans (by decide) hfrom) hto
  refine ⟨hresult, file, hfile, ?_⟩
  rw [hcontents]
  refine hlaw.returned 5 validPacket (accepted_delayed hfrom hto) k hcovers hmatching hpacket
    (hsound rfl k) ((hlaw.searched_iff 5 validPacket (accepted_delayed hfrom hto) k hcovers).2
      (.inr (room_delayed hfrom (by omega))))

/-- The same packet later in the window is accepted as well, and lost. -/
theorem last_packet_lost :
    (delayedRun 191).result = .ok .endOfStream ∧ delayedProfile.bufferLength ≤ 2 ^ 21 ∧
      Accepted delayedSetup (delayedYields 191) 5 validPacket ∧
      ∃ file, (delayedRun 191).state.samples = some file ∧
        ¬ ∃ c, Returns delayedProfile .exact (replayBlocks delayedProfile file.sink.contents) c
          validPacket := by
  generalize hdelay : 191 = k
  have hfrom : 134 ≤ k := by omega
  have hto : k < 192 := by omega
  obtain ⟨hresult, htaken⟩ := result_delayedRun k
  obtain ⟨file, hfile, hcontents⟩ := exists_file_of_ok delayedSetup .endOfStream .quiet
    (.fresh (Protocol.scm.profile 3) .exact) .json true (delayedReadings k) hresult
  rw [← delayedRun, htaken] at hcontents
  refine ⟨hresult, by decide, accepted_delayed (Nat.le_trans (by decide) hfrom) hto, file, hfile,
    ?_⟩
  rintro ⟨c, hreturns⟩
  rw [hcontents] at hreturns
  exact not_returns_delayed hfrom hto hreturns

end MeterRadio.Capture
