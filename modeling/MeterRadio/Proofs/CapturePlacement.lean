/-
Module: MeterRadio.Proofs.CapturePlacement
Purpose: Log and sample file agree at the end of every run that is not given up: each entry names
  the place and the length of the window that its message was found in.
Main exports: Capture.Placement, Capture.placed, Capture.Agreement, Capture.log_agrees_with_samples
-/
import MeterRadio.Proofs.RunAccounts

namespace MeterRadio.Capture

variable {σ : Type}

/-- A block with the place that its window has, or would have, in the sample file. -/
structure Placement where
  place : Nat
  yield : Yield

/-- The entries of a block at its place. -/
def Placement.entries (b : Placement) : List Log.Entry := b.yield.entries b.place

/-- Blocks with their places in a sample file, the first of them at an offset. -/
def placed : Nat → List Yield → List Placement
  | _, [] => []
  | offset, y :: rest => ⟨offset, y⟩ :: placed (nextOffset true offset y) rest

/-! ### Places in the sample file

Blocks are put beside the places of their windows. What is said of entries can then be said of one
block at its place, without the offsets that a run carries along. -/

/-- The ledger's entries are those of the blocks at their places. -/
theorem entriesFrom_eq (ys : List Yield) :
    ∀ offset, entriesFrom true offset ys = (placed offset ys).flatMap Placement.entries := by
  induction ys with
  | nil => intro offset; rfl
  | cons y rest ih =>
      intro offset
      rw [entriesFrom, placed, List.flatMap_cons, ih]
      rfl

theorem le_nextOffset (offset : Nat) (y : Yield) : offset ≤ nextOffset true offset y := by
  rw [nextOffset_eq]
  exact Nat.le_add_right _ _

/-- No block has its place before that of the first one. -/
theorem le_place (ys : List Yield) :
    ∀ offset, ∀ b ∈ placed offset ys, offset ≤ b.place := by
  induction ys with
  | nil =>
      intro offset b hb
      cases hb
  | cons y rest ih =>
      intro offset b hb
      rcases List.mem_cons.1 hb with rfl | hrest
      · exact Nat.le_refl _
      · exact Nat.le_trans (le_nextOffset offset y) (ih _ b hrest)

/-- Places go up along the blocks. -/
theorem place_pairwise (ys : List Yield) :
    ∀ offset, (placed offset ys).Pairwise fun a b => a.place ≤ b.place := by
  induction ys with
  | nil => intro offset; exact .nil
  | cons y rest ih =>
      intro offset
      refine List.pairwise_cons.2 ⟨fun b hb => ?_, ih _⟩
      exact Nat.le_trans (le_nextOffset offset y) (le_place rest _ b hb)

/-- A block with a message finds its window at its place, behind whatever was stored before. -/
theorem window_at_place (ys : List Yield) :
    ∀ before : Bytes, ∀ b ∈ placed before.length ys, b.yield.isMatch = true →
      ((before ++ windows ys).drop b.place).take b.yield.window.length = b.yield.window := by
  induction ys with
  | nil =>
      intro before b hb
      cases hb
  | cons y rest ih =>
      intro before b hb hmatch
      have hwindows : windows (y :: rest) = windows [y] ++ windows rest := windows_append [y] rest
      rw [hwindows]
      rcases List.mem_cons.1 hb with rfl | hrest
      · rw [windows_of_isMatch hmatch, List.drop_left, List.take_left]
      · have hplace : nextOffset true before.length y = (before ++ windows [y]).length := by
          rw [nextOffset_eq, List.length_append]
          rfl
        rw [hplace] at hrest
        rw [← List.append_assoc]
        exact ih _ b hrest hmatch

/-! ### Agreement -/

/-- How log and sample file agree about blocks with the given yields. -/
structure Agreement (format : Log.Format) (withOffset : Bool) (ys : List Yield)
    (log : List Char) (samples : Bytes) : Prop where
  /-- The log consists of the entries of the blocks at their places, in order. -/
  log_eq : log = Log.rendered format withOffset ((placed 0 ys).flatMap Placement.entries)
  /-- The sample file consists of the windows of the blocks with a message, in order. -/
  samples_eq : samples = (ys.filter Yield.isMatch).flatMap Yield.window
  /-- All entries of a block have its place. -/
  offset_eq : ∀ b ∈ placed 0 ys, ∀ e ∈ b.entries, e.offset = b.place
  /-- What an entry points at is the window of its block. -/
  points_at : ∀ b ∈ placed 0 ys, ∀ e ∈ b.entries,
    e.length = b.yield.window.length ∧ (samples.drop e.offset).take e.length = b.yield.window
  /-- Offsets do not go down along the log. -/
  ordered : ((placed 0 ys).flatMap Placement.entries).Pairwise fun d e => d.offset ≤ e.offset

/-- An entry of a block has the block's place and the length of its window, and shows that the
block has a message. -/
theorem mem_entries {b : Placement} {e : Log.Entry} (h : e ∈ b.entries) :
    e.offset = b.place ∧ e.length = b.yield.window.length ∧ b.yield.isMatch = true := by
  obtain ⟨m, hm, rfl⟩ := List.mem_map.1 h
  refine ⟨rfl, rfl, ?_⟩
  have hne : b.yield.messages ≠ [] := List.ne_nil_of_mem hm
  simpa [Yield.isMatch] using hne

/-- What the ledger tells is in agreement. -/
theorem agreement (format : Log.Format) (withOffset : Bool) (ys : List Yield) :
    Agreement format withOffset ys (Log.rendered format withOffset (entries true ys))
      (windows ys) where
  log_eq := by rw [entries, entriesFrom_eq]
  samples_eq := rfl
  offset_eq := fun b _ e he => (mem_entries he).1
  points_at := by
    intro b hb e he
    obtain ⟨hoffset, hlength, hmatch⟩ := mem_entries he
    refine ⟨hlength, ?_⟩
    rw [hoffset, hlength]
    exact window_at_place ys [] b hb hmatch
  ordered := by
    refine List.pairwise_flatMap.2 ⟨?_, ?_⟩
    · intro b _
      refine List.pairwise_of_forall_mem_list fun d hd e he => ?_
      have hsame : d.offset = e.offset := (mem_entries hd).1.trans (mem_entries he).1.symm
      exact Nat.le_of_eq hsame
    · refine (place_pairwise ys 0).imp fun {a b} hab d hd e he => ?_
      rw [(mem_entries hd).1, (mem_entries he).1]
      exact hab

/-- Every run that keeps samples and ends for a reason leaves a log and a sample file that agree
about the blocks it processed. These are the first ones of the reads, as many as it counted; it
attempted one read for each of them, and one more if that brought the end of the stream. -/
theorem log_agrees_with_samples (setup : Setup σ) (ending : TransportError) (signals : Signals)
    (decoder : σ) (format : Log.Format) (withOffset : Bool) (readings : List Reading)
    {reason : ExitReason}
    (h : (run setup ending signals
      (.fresh decoder (.fresh format withOffset .empty) (some .fresh)) readings).result =
        .ok reason) :
    let o := run setup ending signals
      (.fresh decoder (.fresh format withOffset .empty) (some .fresh)) readings
    ∃ file, o.state.samples = some file ∧
      o.state.tally.blocks ≤ readings.length ∧
      o.attempts.length = o.state.tally.blocks + (if reason = .endOfStream then 1 else 0) ∧
      Agreement format withOffset (yields setup decoder (readings.take o.state.tally.blocks))
        o.state.log.sink.contents file.sink.contents := by
  intro o
  have hstart : Balanced format withOffset true []
      (State.fresh decoder (.fresh format withOffset .empty) (some .fresh)) :=
    Balanced.fresh decoder format withOffset true
  obtain ⟨n, hn, hblocks, hattempts, hbalanced⟩ :=
    run_balanced readings signals _ [] reason hstart h
  have hcount : o.state.tally.blocks = n := hblocks.trans (Nat.zero_add n)
  rw [List.nil_append] at hbalanced
  have hlog : o.state.log.sink.contents = _ := hbalanced.log
  have hsamples : o.state.samples.map (fun f => (f.sink.contents, f.offset)) = _ :=
    hbalanced.samples
  rw [hcount]
  cases hfile : o.state.samples with
  | none =>
      rw [hfile] at hsamples
      cases hsamples
  | some file =>
      rw [hfile] at hsamples
      simp only [Option.map_some, if_true, Option.some.injEq, Prod.mk.injEq] at hsamples
      refine ⟨file, rfl, hn, hattempts, ?_⟩
      rw [hlog, hsamples.1]
      exact agreement format withOffset _

/-- The second window of this run, of four bytes, stands behind the first one, of two. -/
theorem relay_log_agrees :
    (relayRun .json).result = .ok .endOfStream ∧
      ∃ file, (relayRun .json).state.samples = some file ∧
        file.sink.contents = [5, 7, 6, 8, 6, 7] ∧
        Agreement .json true (yields relaySetup ([], []) relayReadings)
          (relayRun .json).state.log.sink.contents file.sink.contents := by
  -- Nothing here depends on the format, and over a variable no run is unfolded.
  generalize Log.Format.json = format
  obtain ⟨hlength, hresult⟩ := relayRun_ends format
  obtain ⟨file, hfile, -, hattempts, hagree⟩ :
      ∃ file, (relayRun format).state.samples = some file ∧
        (relayRun format).state.tally.blocks ≤ relayReadings.length ∧
        (relayRun format).attempts.length = (relayRun format).state.tally.blocks +
          (if ExitReason.endOfStream = .endOfStream then 1 else 0) ∧
        Agreement format true
          (yields relaySetup ([], []) (relayReadings.take (relayRun format).state.tally.blocks))
          (relayRun format).state.log.sink.contents file.sink.contents :=
    log_agrees_with_samples relaySetup .endOfStream .quiet ([], []) format true relayReadings
      hresult
  have hcount : (relayRun format).state.tally.blocks = 4 := by
    rw [hlength, if_pos rfl] at hattempts
    omega
  rw [hcount] at hagree
  exact ⟨hresult, file, hfile, hagree.samples_eq.trans (by decide), hagree⟩

end MeterRadio.Capture
