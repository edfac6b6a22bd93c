/-
Module: MeterRadio.Proofs.DecoderWindow
Purpose: What the windows of a decoder hold after any number of blocks: the last samples of all that
  it was given, with zeros before the first one. So a window shows a stretch of the stream, and its
  decisions are those of the stream.
Main exports: Decoder.slide_slide, Decoder.after, Decoder.getElem?_decodeAll, Decoder.Shows,
  Decoder.shows_after, Decoder.Shows.plainDecision_eq
-/
import MeterRadio.Decoder.Scan
import MeterRadio.Proofs.MatchedFilter
import MeterRadio.Proofs.Strengths

namespace MeterRadio.Decoder

/-! ### Sliding -/

section Sliding

variable {α : Type}

@[simp] theorem length_slide (window block : List α) :
    (slide window block).length = window.length := by
  simp [slide]

/-- To slide by two blocks is to slide by both at once. -/
theorem slide_slide (window a b : List α) : slide (slide window a) b = slide window (a ++ b) := by
  have hdrop : ((window ++ a).drop a.length ++ b).drop b.length =
      ((window ++ a) ++ b).drop (a.length + b.length) := by
    have hfirst : ((window ++ a) ++ b).drop a.length = (window ++ a).drop a.length ++ b :=
      List.drop_append_of_le_length (by simp)
    rw [← List.drop_drop, hfirst]
  unfold slide
  rw [hdrop, List.append_assoc, List.length_append]

@[simp] theorem slide_nil (window : List α) : slide window [] = window := by
  simp [slide]

theorem getElem?_slide (window block : List α) (j : Nat) :
    (slide window block)[j]? = (window ++ block)[block.length + j]? := by
  rw [slide, List.getElem?_drop]

end Sliding

/-! ### A decoder after blocks -/

/-- The decoder after blocks were taken in. -/
def after (d : Decoder) (blocks : List Bytes) : Decoder :=
  blocks.foldl (fun d block => (d.decode block).1) d

@[simp] theorem after_nil (d : Decoder) : d.after [] = d := rfl

@[simp] theorem after_cons (d : Decoder) (block : Bytes) (rest : List Bytes) :
    d.after (block :: rest) = (d.decode block).1.after rest := rfl

theorem after_concat (d : Decoder) (blocks : List Bytes) (block : Bytes) :
    d.after (blocks ++ [block]) = ((d.after blocks).decode block).1 := by
  simp [after]

@[simp] theorem profile_after (d : Decoder) (blocks : List Bytes) :
    (d.after blocks).profile = d.profile := by
  induction blocks generalizing d with
  | nil => rfl
  | cons block rest ih => exact ih _

@[simp] theorem mode_after (d : Decoder) (blocks : List Bytes) :
    (d.after blocks).mode = d.mode := by
  induction blocks generalizing d with
  | nil => rfl
  | cons block rest ih => exact ih _

/-- The byte window is moved on by all blocks together. -/
theorem iq_after (d : Decoder) (blocks : List Bytes) :
    (d.after blocks).iq = slide d.iq blocks.flatten := by
  induction blocks generalizing d with
  | nil => simp
  | cons block rest ih =>
      rw [after_cons, ih, List.flatten_cons, ← slide_slide]
      rfl

/-- So is the window of strengths, if blocks consist of whole samples. -/
theorem signal_after (d : Decoder) {blocks : List Bytes}
    (heven : ∀ block ∈ blocks, block.length % 2 = 0) :
    (d.after blocks).signal =
      slide d.signal (Envelope.magnitudes d.mode blocks.flatten) := by
  induction blocks generalizing d with
  | nil => simp
  | cons block rest ih =>
      have hblock : block.length % 2 = 0 := heven block List.mem_cons_self
      have hrest : ∀ b ∈ rest, b.length % 2 = 0 := fun b hb =>
        heven b (List.mem_cons_of_mem block hb)
      rw [after_cons, ih _ hrest, List.flatten_cons, Envelope.magnitudes_append _ _ hblock,
        ← slide_slide]
      simp only [decode]
      rw [Envelope.lookupAll_tableOf]
      rfl

/-- Call by call: each block is decoded by the decoder that the blocks before it leave. -/
theorem getElem?_decodeAll (blocks : List Bytes) :
    ∀ (d : Decoder) (k : Nat),
      (decodeAll d blocks)[k]? =
        blocks[k]?.map fun block => (d.after (blocks.take k)).decode block := by
  induction blocks with
  | nil => intro d k; rfl
  | cons block rest ih =>
      intro d k
      cases k with
      | zero => rfl
      | succ k =>
          rw [decodeAll, List.getElem?_cons_succ, ih]
          rfl

@[simp] theorem length_decodeAll (blocks : List Bytes) :
    ∀ d : Decoder, (decodeAll d blocks).length = blocks.length := by
  induction blocks with
  | nil => intro d; rfl
  | cons block rest ih =>
      intro d
      rw [decodeAll, List.length_cons, List.length_cons, ih]

/-! ### Windows on a stream

From here on a window is known by what it shows: a stretch of the stream, at a distance from its
start. Decisions are about sums of stretches, so they are those of the stream. -/

/-- A window shows the strengths of a stream from a position on. -/
def Shows (window : List Nat) (strengths : Array Nat) (base : Int) : Prop :=
  ∀ j : Nat, j < window.length → window[j]? = some (Scan.strengthAt strengths (base + j))

/-- A stream shows itself from its first position on. -/
theorem shows_self (strengths : List Nat) : Shows strengths strengths.toArray 0 := by
  intro j hj
  have hpos : ¬ (0 + (j : Int)) < 0 := by omega
  have hplace : (0 + (j : Int)).toNat = j := by omega
  rw [Scan.strengthAt, if_neg hpos, hplace, Array.getD_eq_getD_getElem?, List.getElem?_toArray,
    List.getElem?_eq_getElem hj, Option.getD_some]

/-- A window of zeros moved on by the front of a stream shows the last strengths of that front, with
silence before the first one. -/
theorem shows_slide (n : Nat) (front rest : List Nat) :
    Shows (slide (List.replicate n 0) front) (front ++ rest).toArray
      ((front.length : Int) - n) := by
  intro j hj
  rw [length_slide, List.length_replicate] at hj
  rw [getElem?_slide, Scan.strengthAt]
  by_cases hbefore : front.length + j < n
  · have hneg : (front.length : Int) - n + j < 0 := by omega
    rw [if_pos hneg, List.getElem?_append_left (by simpa using hbefore),
      List.getElem?_replicate, if_pos hbefore]
  · have hpos : ¬ (front.length : Int) - n + j < 0 := by omega
    have hplace : ((front.length : Int) - n + j).toNat = front.length + j - n := by omega
    have hinside : front.length + j - n < front.length := by omega
    rw [if_neg hpos, hplace, List.getElem?_append_right (by simpa using hbefore),
      List.length_replicate, Array.getD_eq_getD_getElem?, List.getElem?_toArray,
      List.getElem?_append_left hinside, List.getElem?_eq_getElem hinside, Option.getD_some]

/-- The strength of a stretch is the sum over its positions. -/
theorem strengthFrom_eq (strengths : Array Nat) (position : Int) (n : Nat) :
    Scan.strengthFrom strengths position n =
      ((List.range n).map fun k : Nat => Scan.strengthAt strengths (position + k)).sum := by
  unfold Scan.strengthFrom
  rw [List.sum_eq_foldl, List.foldl_map]

/-- A stretch of a window has the strength of the stretch that it shows. -/
theorem Shows.sum_eq {window : List Nat} {strengths : Array Nat} {base : Int}
    (h : Shows window strengths base) {j n : Nat} (hj : j + n ≤ window.length) :
    ((window.drop j).take n).sum = Scan.strengthFrom strengths (base + j) n := by
  have hstretch : (window.drop j).take n =
      (List.range n).map fun k : Nat => Scan.strengthAt strengths (base + j + k) := by
    apply List.ext_getElem?
    intro k
    by_cases hk : k < n
    · have hshown := h (j + k) (by omega)
      rw [List.getElem?_take_of_lt hk, List.getElem?_drop, hshown, List.getElem?_map,
        List.getElem?_range hk, Option.map_some]
      congr 2
      omega
    · rw [List.getElem?_eq_none (by simp; omega), List.getElem?_eq_none (by simp; omega)]
  rw [hstretch, strengthFrom_eq]

/-- The plain filter decides in a window as in the stream. -/
theorem Shows.plainDecision_eq {window : List Nat} {strengths : Array Nat} {base : Int}
    (h : Shows window strengths base) {n j : Nat} (hj : j + 2 * n ≤ window.length) :
    plainDecision n window j = Scan.decisionAt n strengths (base + j) := by
  have hfirst := h.sum_eq (show j + n ≤ window.length by omega)
  have hsecond := h.sum_eq (show j + n + n ≤ window.length by omega)
  have hplace : base + ((j + n : Nat) : Int) = base + j + n := by omega
  unfold plainDecision Scan.decisionAt
  rw [hfirst, hsecond, hplace]

/-! ### Blocks of one size -/

theorem length_flatten_take {blocks : List Bytes} {size : Nat}
    (h : ∀ block ∈ blocks, block.length = size) {c : Nat} (hc : c ≤ blocks.length) :
    (blocks.take c).flatten.length = c * size := by
  have hlengths : (blocks.take c).map List.length = List.replicate c size := by
    apply List.eq_replicate_iff.2
    refine ⟨by simp [hc], ?_⟩
    intro l hl
    obtain ⟨block, hblock, rfl⟩ := List.mem_map.1 hl
    exact h block (List.mem_of_mem_take hblock)
  rw [List.length_flatten, hlengths, List.sum_replicate_nat]

/-- The window of a fresh decoder after `c` blocks: zeros, and the strengths of these blocks. -/
theorem signal_after_take {p : Profile} (mode : Envelope.Mode) {blocks : List Bytes}
    (h : ∀ block ∈ blocks, block.length = p.blockBytes) (c : Nat) :
    ((fresh p mode).after (blocks.take c)).signal =
      slide (List.replicate p.bufferLength 0)
        (Envelope.magnitudes mode (blocks.take c).flatten) := by
  apply signal_after
  intro block hblock
  rw [h block (List.mem_of_mem_take hblock), Profile.blockBytes]
  omega

/-- The strengths of a stream in two parts, of which the first are those of `c` blocks. -/
theorem magnitudes_flatten_take {p : Profile} (mode : Envelope.Mode) {blocks : List Bytes}
    (h : ∀ block ∈ blocks, block.length = p.blockBytes) {c : Nat} (hc : c ≤ blocks.length) :
    (Envelope.magnitudes mode (blocks.take c).flatten).length = c * p.blockSize ∧
      Envelope.magnitudes mode blocks.flatten =
        Envelope.magnitudes mode (blocks.take c).flatten ++
          Envelope.magnitudes mode (blocks.drop c).flatten := by
  have hlength : (blocks.take c).flatten.length = 2 * (c * p.blockSize) := by
    rw [length_flatten_take h hc, Profile.blockBytes, Nat.mul_left_comm]
  constructor
  · rw [Envelope.length_magnitudes, hlength]
    omega
  · rw [← Envelope.magnitudes_append, ← List.flatten_append, List.take_append_drop]
    omega

/-- After `c` blocks the window of a decoder shows the stream up to the end of them. -/
theorem shows_after {p : Profile} (mode : Envelope.Mode) {blocks : List Bytes}
    (h : ∀ block ∈ blocks, block.length = p.blockBytes) {c : Nat} (hc : c ≤ blocks.length) :
    Shows ((fresh p mode).after (blocks.take c)).signal
      (Envelope.magnitudes mode blocks.flatten).toArray
      ((c * p.blockSize : Nat) - (p.bufferLength : Int)) := by
  obtain ⟨hfront, hsplit⟩ := magnitudes_flatten_take mode h hc
  rw [signal_after_take mode h, hsplit, ← hfront]
  exact shows_slide p.bufferLength _ _

end MeterRadio.Decoder
