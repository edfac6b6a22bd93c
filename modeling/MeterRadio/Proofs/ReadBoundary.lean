/-
Module: MeterRadio.Proofs.ReadBoundary
Purpose: What stands in the log and in the sample file at the moment a read is attempted: all that
  the blocks before it have to leave there, and nothing else.
Main exports: Capture.sinks_at_read
-/
import MeterRadio.Proofs.RunAccounts

namespace MeterRadio.Capture

variable {σ : Type}

/-- An empty list of an inclusion filter lets everything through. -/
theorem isEmpty_or_contains_iff {α : Type} [BEq α] [LawfulBEq α] (included : List α) (a : α) :
    (included.isEmpty || included.contains a) = true ↔ included = [] ∨ a ∈ included := by
  simp

theorem accepts_iff (f : MeterFilter) (m : Message) :
    f.accepts m = true ↔
      (f.includedIds = [] ∨ m.meterId ∈ f.includedIds) ∧
        (f.includedTypes = [] ∨ m.meterType ∈ f.includedTypes) := by
  unfold MeterFilter.accepts MeterFilter.includes
  rw [Bool.and_eq_true, isEmpty_or_contains_iff, isEmpty_or_contains_iff]

/-- A candidate without a message to be logged touches neither the log nor the sample file. -/
theorem candidate_untouched {setup : Setup σ} {packet : Bytes}
    (h : setup.message? packet = none) (time : Time.Timestamp) (offset length : Nat)
    (s : State σ) :
    (s.candidate setup time offset length packet).1.log = s.log ∧
      (s.candidate setup time offset length packet).1.samples = s.samples := by
  obtain ⟨tally, trace, hcandidate, -⟩ := State.candidate_of_none time offset length s h
  rw [hcandidate]
  exact ⟨rfl, rfl⟩

/-- Neither does a block none of whose candidates has such a message. -/
theorem process_untouched {setup : Setup σ} {s : State σ} {reading : Reading}
    (h : (yield setup s.decoder reading).2.messages = []) :
    (s.process setup reading.time reading.block).1.log = s.log ∧
      (s.process setup reading.time reading.block).1.samples = s.samples := by
  obtain ⟨-, -, hlog, hend⟩ := State.process_end setup s reading
  have hentries : (yield setup s.decoder reading).2.entries s.offset = [] := by
    simp [Yield.entries, h]
  have hmatch : (yield setup s.decoder reading).2.isMatch = false := by
    simp [Yield.isMatch, h]
  rw [hentries] at hlog hend
  refine ⟨hlog, ?_⟩
  cases hend with
  | refused e hrefused => cases hrefused
  | quiet _ _ hsamples => exact hsamples
  | unkept _ hsome =>
      rw [hmatch] at hsome
      cases hsome
  | kept _ _ hsome =>
      rw [hmatch] at hsome
      cases hsome
  | lost _ _ _ hsome =>
      rw [hmatch] at hsome
      cases hsome

/-- When the read after `k` blocks is attempted, the log holds the entries of the messages in those
blocks, in order and nothing else, and the sample file the windows of the blocks that have one. A
message is one that a candidate carries and that both inclusion lists pass. What is not such a
message touches neither, and where the sinks work, no signal comes and no single message was asked
for, there is a read after every block. -/
theorem sinks_at_read (setup : Setup σ) (ending : TransportError) (signals : Signals)
    (decoder : σ) (format : Log.Format) (withOffset kept : Bool) (readings : List Reading) :
    let start := State.fresh decoder (.fresh format withOffset .empty)
      (if kept then some .fresh else none)
    let o := run setup ending signals start readings
    (∀ (k : Nat) (now : State σ), o.attempts[k]? = some now →
      let ys := yields setup decoder (readings.take k)
      now.log.sink.contents = Log.rendered format withOffset (entries kept ys) ∧
        now.samples.map (fun f => f.sink.contents) = if kept then some (windows ys) else none) ∧
    (∀ (packet : Bytes) (m : Message), setup.message? packet = some m ↔
      setup.reader packet = .ok m ∧
        (setup.filter.includedIds = [] ∨ m.meterId ∈ setup.filter.includedIds) ∧
        (setup.filter.includedTypes = [] ∨ m.meterType ∈ setup.filter.includedTypes)) ∧
    (∀ (s : State σ) (time : Time.Timestamp) (offset length : Nat) (packet : Bytes),
      setup.message? packet = none →
        (s.candidate setup time offset length packet).1.log = s.log ∧
          (s.candidate setup time offset length packet).1.samples = s.samples) ∧
    (∀ (s : State σ) (reading : Reading), (yield setup s.decoder reading).2.messages = [] →
      (s.process setup reading.time reading.block).1.log = s.log ∧
        (s.process setup reading.time reading.block).1.samples = s.samples) ∧
    ((∀ sink, setup.logFaults sink = .none) → (∀ sink, setup.sampleFaults sink = .none) →
      setup.single = false → signals.poll = none →
      (∀ reading ∈ readings, reading.arrivals = []) →
        o.attempts.length = readings.length + 1) := by
  intro start o
  refine ⟨?_, ?_, ?_, ?_, ?_⟩
  · intro k now hnow ys
    have hbalanced := attempts_balanced readings signals start []
      (Balanced.fresh decoder format withOffset kept) k now hnow
    rw [List.nil_append] at hbalanced
    refine ⟨hbalanced.log, ?_⟩
    have hsamples := congrArg (Option.map Prod.fst) hbalanced.samples
    rw [Option.map_map] at hsamples
    refine hsamples.trans ?_
    cases kept <;> rfl
  · intro packet m
    rw [message?_eq_some_iff, accepts_iff]
  · intro s time offset length packet h
    exact candidate_untouched h time offset length s
  · intro s reading h
    exact process_untouched h
  · intro hlog hsamples hsingle hpoll hquiet
    exact (length_attempts_of_working hlog hsamples hsingle readings signals start hpoll hquiet).1

/-- At the fifth read of this run two windows are there, and two entries for each of them. -/
theorem relay_sinks_at_read :
    ∃ now, (relayRun .csv).attempts[4]? = some now ∧
      now.log.sink.contents =
        Log.rendered .csv true (entries true (yields relaySetup ([], []) relayReadings)) ∧
      (entries true (yields relaySetup ([], []) relayReadings)).map
        (fun e => (e.message.meterId, e.offset, e.length)) =
          [(5, 0, 2), (5, 0, 2), (6, 2, 4), (6, 2, 4)] ∧
      now.samples.map (fun f => f.sink.contents) = some [5, 7, 6, 8, 6, 7] := by
  have hentries : (entries true (yields relaySetup ([], []) relayReadings)).map
      (fun e => (e.message.meterId, e.offset, e.length)) =
        [(5, 0, 2), (5, 0, 2), (6, 2, 4), (6, 2, 4)] := by decide
  -- Nothing else depends on the format, and over a variable no run is unfolded.
  generalize Log.Format.csv = format
  obtain ⟨hsinks, -⟩ :=
    sinks_at_read relaySetup .endOfStream .quiet ([], []) format true true relayReadings
  obtain ⟨hlength, -⟩ := relayRun_ends format
  have hlast : 4 < (relayRun format).attempts.length := by omega
  have hsome := List.getElem?_eq_getElem hlast
  obtain ⟨hlog, hsamples⟩ := hsinks 4 _ hsome
  exact ⟨_, hsome, hlog, hentries, hsamples.trans (by decide)⟩

end MeterRadio.Capture
