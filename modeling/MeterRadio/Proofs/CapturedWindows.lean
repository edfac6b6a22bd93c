/-
Module: MeterRadio.Proofs.CapturedWindows
Purpose: What a capture with a decoder of a profile keeps. The window of a block holds the last
  samples of the stream, with zero bytes before the first one, and stands as a whole in the sample
  file.
Main exports: Capture.yield_of_getElem?, Capture.length_windows, Capture.magnitudes_window,
  Capture.strengthAt_replay
-/
import MeterRadio.Capture.Ledger
import MeterRadio.Proofs.BlockAccounts
import MeterRadio.Proofs.SourceBlocks
import MeterRadio.Proofs.StreamScan

namespace MeterRadio.Capture

open Decoder (Returns strengthsOf)

variable {p : Profile} {mode : Envelope.Mode} {setup : Setup Decoder}

/-! ### The yields of a decoder -/

theorem yield_ofProfile (h : setup.decoder = .ofProfile p) (d : Decoder) (reading : Reading) :
    (yield setup d reading).1 = (d.decode reading.block).1 ∧
      (yield setup d reading).2.candidates =
        (d.decode reading.block).2.map Decoder.Hit.packet ∧
      (yield setup d reading).2.window = (d.decode reading.block).1.iq := by
  unfold yield
  rw [h]
  exact ⟨rfl, rfl, rfl⟩

theorem getElem?_yields (h : setup.decoder = .ofProfile p) (readings : List Reading) :
    ∀ (d : Decoder) (i : Nat), (yields setup d readings)[i]? =
      readings[i]?.map fun reading =>
        (yield setup (d.after ((readings.take i).map Reading.block)) reading).2 := by
  induction readings with
  | nil => intro d i; rfl
  | cons reading rest ih =>
      intro d i
      cases i with
      | zero => rfl
      | succ i =>
          rw [yields, List.getElem?_cons_succ, ih, (yield_ofProfile h d reading).1]
          rfl

/-- The candidates of a block are what the call of the decoder returns, and its window is what the
decoder holds after the call. -/
theorem yield_of_getElem? (h : setup.decoder = .ofProfile p) {readings : List Reading} {i : Nat}
    {y : Yield} (hy : (yields setup (.fresh p mode) readings)[i]? = some y) :
    i < readings.length ∧
      (∀ packet, packet ∈ y.candidates ↔
        Returns p mode (readings.map Reading.block) (i + 1) packet) ∧
      y.window = ((Decoder.fresh p mode).after
        ((readings.map Reading.block).take (i + 1))).iq := by
  rw [getElem?_yields h] at hy
  obtain ⟨reading, hreading, rfl⟩ := Option.map_eq_some_iff.1 hy
  have hi := (List.getElem?_eq_some_iff.1 hreading).1
  have hblock : i < (readings.map Reading.block).length := by rwa [List.length_map]
  have hsame : (readings.map Reading.block)[i] = reading.block := by
    rw [List.getElem_map, (List.getElem?_eq_some_iff.1 hreading).2]
  rw [List.map_take]
  obtain ⟨-, hcandidates, hwindow⟩ := yield_ofProfile h
    ((Decoder.fresh p mode).after ((readings.map Reading.block).take i)) reading
  refine ⟨hi, fun packet => ?_, ?_⟩
  · rw [hcandidates, Returns, Nat.add_sub_cancel, Decoder.getElem?_decodeAll_of_lt _ hblock, hsame]
    constructor
    · exact fun hmem => ⟨Nat.succ_pos i, _, rfl, hmem⟩
    · rintro ⟨-, call, hcall, hmem⟩
      cases hcall
      exact hmem
  · rw [hwindow, Decoder.after_take_succ _ hblock, hsame]

theorem length_of_mem_blocks {readings : List Reading}
    (hwhole : ∀ reading ∈ readings, reading.block.length = p.blockBytes) :
    ∀ block ∈ readings.map Reading.block, block.length = p.blockBytes := by
  intro block hblock
  obtain ⟨reading, hreading, rfl⟩ := List.mem_map.1 hblock
  exact hwhole reading hreading

/-! ### Windows in the sample file -/

theorem length_iq (p : Profile) (mode : Envelope.Mode) (blocks : List Bytes) :
    ((Decoder.fresh p mode).after blocks).iq.length = 2 * p.bufferLength := by
  rw [Decoder.iq_after, Decoder.length_slide]
  exact List.length_replicate

theorem length_window (h : setup.decoder = .ofProfile p) {readings : List Reading} {y : Yield}
    (hy : y ∈ yields setup (.fresh p mode) readings) : y.window.length = 2 * p.bufferLength := by
  obtain ⟨i, hi⟩ := List.getElem?_of_mem hy
  rw [(yield_of_getElem? h hi).2.2, length_iq]

/-- The sample file holds a window for each block with a message. -/
theorem length_windows {size : Nat} {ys : List Yield} (h : ∀ y ∈ ys, y.window.length = size) :
    (windows ys).length = ys.countP Yield.isMatch * size := by
  induction ys with
  | nil => simp
  | cons y rest ih =>
      have hrest := ih fun z hz => h z (List.mem_cons_of_mem y hz)
      rw [windows_cons, List.length_append, hrest]
      cases hmatch : y.isMatch with
      | true =>
          rw [windows_of_isMatch hmatch, h y List.mem_cons_self, List.countP_cons_of_pos hmatch,
            Nat.succ_mul, Nat.add_comm]
      | false =>
          rw [windows_of_not_isMatch hmatch, List.countP_cons_of_neg (by simp [hmatch]),
            List.length_nil, Nat.zero_add]

/-- The windows of the blocks before one with a message, its own, and those of the blocks after. -/
theorem windows_split {ys : List Yield} {i : Nat} {y : Yield} (hy : ys[i]? = some y)
    (hmatch : y.isMatch = true) :
    windows ys = windows (ys.take i) ++ (y.window ++ windows (ys.drop (i + 1))) := by
  have hsplit := congrArg windows (eq_take_append_of_getElem? hy)
  rw [windows_append, windows_cons, windows_of_isMatch hmatch] at hsplit
  exact hsplit

/-! ### Strengths of a window

Before a stream a decoder hears silence, but its window has zero bytes there, and those are strong
samples to whoever replays them. `heardAt` has the strengths with these samples. -/

/-- Strength of a sample in a window of bytes: before the stream there are zero bytes. -/
def heardAt (mode : Envelope.Mode) (strengths : Array Nat) (position : Int) : Nat :=
  if position < 0 then Envelope.magnitude mode 0 0 else Scan.strengthAt strengths position

theorem getElem?_slide_replicate (a n : Nat) (front rest : List Nat) {j : Nat} (hj : j < n) :
    (Decoder.slide (List.replicate n a) front)[j]? =
      some (if (front.length : Int) - n + j < 0 then a
        else Scan.strengthAt (front ++ rest).toArray ((front.length : Int) - n + j)) := by
  by_cases hbefore : front.length + j < n
  · have hneg : (front.length : Int) - n + j < 0 := by omega
    rw [Decoder.getElem?_slide, if_pos hneg,
      List.getElem?_append_left (by simpa using hbefore), List.getElem?_replicate,
      if_pos hbefore]
  · have hpos : ¬ (front.length : Int) - n + j < 0 := by omega
    have hlength : j < (Decoder.slide (List.replicate n 0) front).length := by simpa using hj
    -- Behind the zeros it does not matter what stood in their place.
    rw [if_neg hpos, ← Decoder.shows_slide n front rest j hlength, Decoder.getElem?_slide,
      Decoder.getElem?_slide, List.getElem?_append_right (by simpa using hbefore),
      List.getElem?_append_right (by simpa using hbefore), List.length_replicate,
      List.length_replicate]

theorem magnitudes_slide {window block : Bytes} (hwindow : window.length % 2 = 0)
    (hblock : block.length % 2 = 0) :
    Envelope.magnitudes mode (Decoder.slide window block) =
      Decoder.slide (Envelope.magnitudes mode window) (Envelope.magnitudes mode block) := by
  have hhalf : block.length = 2 * (Envelope.magnitudes mode block).length := by
    rw [Envelope.length_magnitudes]
    omega
  rw [Decoder.slide, hhalf, Envelope.magnitudes_drop, Envelope.magnitudes_append _ _ hwindow]
  rfl

/-- The window of block `i` has the strengths of the samples up to the end of that block. -/
theorem magnitudes_window (h : setup.decoder = .ofProfile p) {readings : List Reading}
    (hwhole : ∀ reading ∈ readings, reading.block.length = p.blockBytes) {i : Nat} {y : Yield}
    (hy : (yields setup (.fresh p mode) readings)[i]? = some y) {j : Nat}
    (hj : j < p.bufferLength) :
    (Envelope.magnitudes mode y.window)[j]? =
      some (heardAt mode (strengthsOf mode (readings.map Reading.block))
        ((((i + 1) * p.blockSize : Nat) : Int) - p.bufferLength + j)) := by
  obtain ⟨hi, -, hwindow⟩ := yield_of_getElem? h hy
  have hblocks := length_of_mem_blocks hwhole
  have hc : i + 1 ≤ (readings.map Reading.block).length := by rwa [List.length_map]
  obtain ⟨hlength, hsplit⟩ := Decoder.magnitudes_flatten_take mode hblocks hc
  generalize readings.map Reading.block = blocks at *
  have hslide : Envelope.magnitudes mode y.window =
      Decoder.slide (List.replicate p.bufferLength (Envelope.magnitude mode 0 0))
        (Envelope.magnitudes mode (blocks.take (i + 1)).flatten) := by
    rw [hwindow, Decoder.iq_after, magnitudes_slide, ← Envelope.magnitudes_replicate]
    · rfl
    · exact (congrArg (· % 2) List.length_replicate).trans (Nat.mul_mod_right 2 _)
    · rw [Decoder.length_flatten_take hblocks hc, Profile.blockBytes, Nat.mul_left_comm]
      exact Nat.mul_mod_right 2 _
  rw [hslide, strengthsOf, hsplit, ← hlength]
  exact getElem?_slide_replicate _ _ _ _ hj

/-! ### Strengths of a replay -/

/-- The replay of a sample file hears at the place of a window what the window holds. -/
theorem strengthAt_replay (h : setup.decoder = .ofProfile p) {readings : List Reading}
    (hwhole : ∀ reading ∈ readings, reading.block.length = p.blockBytes) {i : Nat} {y : Yield}
    (hy : (yields setup (.fresh p mode) readings)[i]? = some y) (hmatch : y.isMatch = true)
    {place j : Nat} (hplace : (windows ((yields setup (.fresh p mode) readings).take i)).length =
      2 * place) (hj : j < p.bufferLength)
    (hheard : place + j <
      (Source.blocks p.blockBytes (windows (yields setup (.fresh p mode) readings))).length *
        p.blockSize) :
    Scan.strengthAt (strengthsOf mode
        (Source.blocks p.blockBytes (windows (yields setup (.fresh p mode) readings))))
      ((place : Int) + j) =
        heardAt mode (strengthsOf mode (readings.map Reading.block))
          ((((i + 1) * p.blockSize : Nat) : Int) - p.bufferLength + j) := by
  have hwindow := magnitudes_window h hwhole hy hj
  have hsplit := windows_split hy hmatch
  have hsize : y.window.length = 2 * p.bufferLength :=
    length_window h (List.mem_of_getElem? hy)
  generalize yields setup (.fresh p mode) readings = ys at *
  have hpos : 0 < p.blockBytes := Nat.mul_pos Nat.zero_lt_two p.blockSize_pos
  have hbytes : ∀ k, k * p.blockBytes = 2 * (k * p.blockSize) := fun k => by
    rw [Profile.blockBytes, Nat.mul_left_comm]
  have hbefore : (windows (ys.take i)).length % 2 = 0 := by omega
  have hlength : (Envelope.magnitudes mode (windows (ys.take i))).length = place := by
    rw [Envelope.length_magnitudes]
    omega
  have heven : y.window.length % 2 = 0 := by omega
  have hinside : j < (Envelope.magnitudes mode y.window).length := by
    rw [Envelope.length_magnitudes]
    omega
  rw [Source.length_blocks hpos] at hheard
  have hnonneg : ¬ (place : Int) + j < 0 := by omega
  have hnat : ((place : Int) + j).toNat = place + j := by omega
  rw [Scan.strengthAt, if_neg hnonneg, hnat, strengthsOf, Source.flatten_blocks hpos, hbytes,
    Envelope.magnitudes_take, Array.getD_eq_getD_getElem?, List.getElem?_toArray,
    List.getElem?_take_of_lt hheard, hsplit, Envelope.magnitudes_append _ _ hbefore,
    List.getElem?_append_right (by omega), hlength, Nat.add_sub_cancel_left,
    Envelope.magnitudes_append _ _ heven, List.getElem?_append_left hinside, hwindow,
    Option.getD_some]

end MeterRadio.Capture
