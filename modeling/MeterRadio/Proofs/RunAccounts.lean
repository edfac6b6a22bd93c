/-
Module: MeterRadio.Proofs.RunAccounts
Purpose: The accounts of whole runs. Each block keeps them balanced, so they are balanced whenever
  the next read is attempted, and at the end of every run that is not given up.
Main exports: Capture.attempts_induction, Capture.attempts_balanced, Capture.run_balanced,
  Capture.length_attempts_of_working, Capture.relaySetup
-/
import MeterRadio.Proofs.BlockAccounts

namespace MeterRadio.Capture

variable {σ : Type} {setup : Setup σ} {ending : TransportError} {signals : Signals} {s : State σ}

/-! ### One turn of the loop

What a read comes to: a signal ends the run before it, its block ends the run, or the run goes on in
the state after the block. Later proofs use these lemmas and do not open the loop. -/

theorem run_of_signal {reason : ExitReason} (h : signals.poll = some reason)
    (readings : List Reading) :
    run setup ending signals s readings = ⟨s, .ok reason, []⟩ := by
  cases readings <;> simp [run, h]

theorem run_nil (h : signals.poll = none) :
    run setup ending signals s [] = ⟨s, afterError ending, [s]⟩ := by
  simp [run, h]

theorem run_stop {reading : Reading} {result : Result} (h : signals.poll = none)
    (hturn : (turn setup reading.time s reading.block).2 = some result) (rest : List Reading) :
    run setup ending signals s (reading :: rest) =
      ⟨(turn setup reading.time s reading.block).1, result, [s]⟩ := by
  simp only [run, h]
  rw [← Prod.eta (turn setup reading.time s reading.block), hturn]

theorem run_go {reading : Reading} (h : signals.poll = none)
    (hturn : (turn setup reading.time s reading.block).2 = none) (rest : List Reading) :
    run setup ending signals s (reading :: rest) =
      (run setup ending (reading.arrivals.foldl Signals.receive signals)
        (turn setup reading.time s reading.block).1 rest).after s := by
  simp only [run, h]
  rw [← Prod.eta (turn setup reading.time s reading.block), hturn]

/-- A block after which the run goes on was processed without a failure. -/
theorem process_of_turn_none {reading : Reading}
    (h : (turn setup reading.time s reading.block).2 = none) :
    ∃ logged, (s.process setup reading.time reading.block).2 = .ok logged := by
  change afterBlock setup (s.process setup reading.time reading.block).2 = none at h
  cases hresult : (s.process setup reading.time reading.block).2 with
  | ok logged => exact ⟨logged, rfl⟩
  | error failure =>
      rw [hresult] at h
      cases h

/-- So was a block after which the run ends for a reason, and the reason is that one block with a
message was asked for. -/
theorem process_of_turn_ok {reading : Reading} {reason : ExitReason}
    (h : (turn setup reading.time s reading.block).2 = some (.ok reason)) :
    reason = .singleShot ∧
      ∃ logged, (s.process setup reading.time reading.block).2 = .ok logged := by
  change afterBlock setup (s.process setup reading.time reading.block).2 = some (.ok reason) at h
  cases hresult : (s.process setup reading.time reading.block).2 with
  | ok logged =>
      rw [hresult] at h
      simp only [afterBlock] at h
      split at h
      · cases h
        exact ⟨rfl, logged, rfl⟩
      · cases h
  | error failure =>
      rw [hresult] at h
      cases h

/-- A block after which the run is given up failed itself. -/
theorem process_of_turn_error {reading : Reading} {failure : Failure}
    (h : (turn setup reading.time s reading.block).2 = some (.error failure)) :
    (s.process setup reading.time reading.block).2 = .error failure := by
  change afterBlock setup (s.process setup reading.time reading.block).2 = _ at h
  cases hresult : (s.process setup reading.time reading.block).2 with
  | error found =>
      rw [hresult] at h
      cases h
      rfl
  | ok logged =>
      rw [hresult] at h
      simp only [afterBlock] at h
      split at h <;> cases h

/-- A signal is never the end of the stream. -/
theorem ne_endOfStream_of_poll {reason : ExitReason} (h : signals.poll = some reason) :
    reason ≠ .endOfStream := by
  rintro rfl
  unfold Signals.poll at h
  split at h
  · cases h
  · cases hdeadline : signals.deadline <;> simp [hdeadline] at h

/-- Without a signal or a block, only the end of the stream is a reason to end. -/
theorem eq_endOfStream_of_afterError {reason : ExitReason} (h : afterError ending = .ok reason) :
    reason = .endOfStream := by
  cases ending with
  | endOfStream =>
      cases h
      rfl
  | io fault => cases h
  | badMagic bytes => cases h

theorem decoder_turn (setup : Setup σ) (s : State σ) (reading : Reading) :
    (turn setup reading.time s reading.block).1.decoder = (yield setup s.decoder reading).1 :=
  (State.process_end setup s reading).1

theorem blocks_turn (setup : Setup σ) (s : State σ) (reading : Reading) :
    (turn setup reading.time s reading.block).1.tally.blocks = s.tally.blocks + 1 :=
  (State.process_end setup s reading).2.1

theorem yields_cons (setup : Setup σ) (decoder : σ) (reading : Reading) (rest : List Reading) :
    yields setup decoder (reading :: rest) =
      (yield setup decoder reading).2 :: yields setup (yield setup decoder reading).1 rest := rfl

/-! ### Runs

Both inductions are on the reads, for accounts that are already balanced for earlier blocks: the
yields of a block move from the reads still to come to the blocks already told. -/

variable {format : Log.Format} {withOffset kept : Bool}

theorem eq_of_only_attempt {now : State σ} {k : Nat} (h : [s][k]? = some now) :
    k = 0 ∧ s = now := by
  cases k with
  | zero => exact ⟨rfl, Option.some.inj h⟩
  | succ k => cases h

/-- What a block that is processed without a failure preserves holds whenever a read is attempted.
The yield of each block is told after those before it. -/
theorem attempts_induction {P : List Yield → State σ → Prop}
    (hblock : ∀ {told : List Yield} {s : State σ} {reading : Reading} {logged : Nat},
      P told s → (s.process setup reading.time reading.block).2 = .ok logged →
        P (told ++ [(yield setup s.decoder reading).2])
          (s.process setup reading.time reading.block).1)
    (readings : List Reading) :
    ∀ (signals : Signals) (s : State σ) (told : List Yield), P told s →
      ∀ (k : Nat) (now : State σ),
        (run setup ending signals s readings).attempts[k]? = some now →
          P (told ++ yields setup s.decoder (readings.take k)) now := by
  induction readings with
  | nil =>
      intro signals s told hs k now hnow
      cases hpoll : signals.poll with
      | some reason =>
          rw [run_of_signal hpoll] at hnow
          cases hnow
      | none =>
          rw [run_nil hpoll] at hnow
          obtain ⟨-, rfl⟩ := eq_of_only_attempt hnow
          simpa [yields] using hs
  | cons reading rest ih =>
      intro signals s told hs k now hnow
      cases hpoll : signals.poll with
      | some reason =>
          rw [run_of_signal hpoll] at hnow
          cases hnow
      | none =>
          cases hturn : (turn setup reading.time s reading.block).2 with
          | some result =>
              rw [run_stop hpoll hturn] at hnow
              obtain ⟨rfl, rfl⟩ := eq_of_only_attempt hnow
              simpa [yields] using hs
          | none =>
              rw [run_go hpoll hturn] at hnow
              obtain ⟨logged, hok⟩ := process_of_turn_none hturn
              cases k with
              | zero =>
                  obtain rfl : s = now := Option.some.inj hnow
                  simpa [yields] using hs
              | succ k =>
                  have hnext := ih _ _ _ (hblock hs hok) k now hnow
                  rw [List.take_succ_cons, yields_cons, ← decoder_turn]
                  rw [List.append_assoc, List.singleton_append] at hnext
                  exact hnext

/-- Whenever a read is attempted, the accounts are balanced for the blocks read before. -/
theorem attempts_balanced (readings : List Reading) (signals : Signals) (s : State σ)
    (told : List Yield) (hs : Balanced format withOffset kept told s) (k : Nat) (now : State σ)
    (hnow : (run setup ending signals s readings).attempts[k]? = some now) :
    Balanced format withOffset kept (told ++ yields setup s.decoder (readings.take k)) now :=
  attempts_induction (fun h hok => h.process hok) readings signals s told hs k now hnow

/-- At the end of a run that is not given up, the accounts are balanced for the blocks that were
counted. A read that brought no block is one attempt more than there are blocks. -/
theorem run_balanced (readings : List Reading) :
    ∀ (signals : Signals) (s : State σ) (told : List Yield) (reason : ExitReason),
      Balanced format withOffset kept told s →
        (run setup ending signals s readings).result = .ok reason →
          ∃ n, n ≤ readings.length ∧
            (run setup ending signals s readings).state.tally.blocks = s.tally.blocks + n ∧
            (run setup ending signals s readings).attempts.length =
              n + (if reason = .endOfStream then 1 else 0) ∧
            Balanced format withOffset kept (told ++ yields setup s.decoder (readings.take n))
              (run setup ending signals s readings).state := by
  induction readings with
  | nil =>
      intro signals s told reason hs hok
      cases hpoll : signals.poll with
      | some found =>
          rw [run_of_signal hpoll] at hok ⊢
          cases hok
          refine ⟨0, Nat.le_refl 0, rfl, ?_, by simpa [yields] using hs⟩
          simp [ne_endOfStream_of_poll hpoll]
      | none =>
          rw [run_nil hpoll] at hok ⊢
          refine ⟨0, Nat.le_refl 0, rfl, ?_, by simpa [yields] using hs⟩
          simp [eq_endOfStream_of_afterError hok]
  | cons reading rest ih =>
      intro signals s told reason hs hok
      cases hpoll : signals.poll with
      | some found =>
          rw [run_of_signal hpoll] at hok ⊢
          cases hok
          refine ⟨0, Nat.zero_le _, rfl, ?_, by simpa [yields] using hs⟩
          simp [ne_endOfStream_of_poll hpoll]
      | none =>
          cases hturn : (turn setup reading.time s reading.block).2 with
          | some result =>
              rw [run_stop hpoll hturn] at hok ⊢
              obtain rfl : result = .ok reason := hok
              obtain ⟨rfl, logged, hprocess⟩ := process_of_turn_ok hturn
              refine ⟨1, by simp, blocks_turn setup s reading, by simp, ?_⟩
              exact hs.process hprocess
          | none =>
              rw [run_go hpoll hturn] at hok ⊢
              obtain ⟨logged, hprocess⟩ := process_of_turn_none hturn
              obtain ⟨n, hn, hblocks, hattempts, hbalanced⟩ :=
                ih _ _ _ reason (hs.process hprocess) hok
              refine ⟨n + 1, Nat.succ_le_succ hn, ?_, ?_, ?_⟩
              · have hstep := blocks_turn setup s reading
                change _ = (turn setup reading.time s reading.block).1.tally.blocks + n at hblocks
                rw [hstep] at hblocks
                exact hblocks.trans (by omega)
              · simp only [Outcome.after, List.length_cons]
                exact (congrArg Nat.succ hattempts).trans (by omega)
              · rw [List.take_succ_cons, yields_cons, ← decoder_turn]
                rw [List.append_assoc, List.singleton_append] at hbalanced
                exact hbalanced

/-! ### Runs that nothing stops -/

/-- In front of working sinks every block is processed. -/
theorem process_ok_of_working (hlog : ∀ sink, setup.logFaults sink = .none)
    (hsamples : ∀ sink, setup.sampleFaults sink = .none) (s : State σ) (reading : Reading) :
    ∃ logged, (s.process setup reading.time reading.block).2 = .ok logged := by
  obtain ⟨-, -, -, hend⟩ := State.process_end setup s reading
  have hwritten := Log.Writer.writeAll_none hlog
    ((yield setup s.decoder reading).2.entries s.offset) s.log
  cases hend with
  | refused e hrefused =>
      rw [hwritten] at hrefused
      cases hrefused
  | quiet _ _ _ hresult => exact ⟨0, hresult⟩
  | unkept _ _ _ _ hresult => exact ⟨_, hresult⟩
  | kept _ _ _ _ _ _ hresult => exact ⟨_, hresult⟩
  | lost file fault _ _ _ happend =>
      rw [hsamples, SampleFile.append_none] at happend
      cases happend

/-- A run that no signal reaches, that is not to stop at a message and whose sinks work attempts one
read after each block. -/
theorem length_attempts_of_working (hlog : ∀ sink, setup.logFaults sink = .none)
    (hsamples : ∀ sink, setup.sampleFaults sink = .none) (hsingle : setup.single = false)
    (readings : List Reading) :
    ∀ (signals : Signals) (s : State σ), signals.poll = none →
      (∀ reading ∈ readings, reading.arrivals = []) →
        (run setup ending signals s readings).attempts.length = readings.length + 1 ∧
          (run setup ending signals s readings).result = afterError ending := by
  induction readings with
  | nil =>
      intro signals s hpoll _
      rw [run_nil hpoll]
      exact ⟨rfl, rfl⟩
  | cons reading rest ih =>
      intro signals s hpoll hquiet
      obtain ⟨logged, hok⟩ := process_ok_of_working hlog hsamples s reading
      have hturn : (turn setup reading.time s reading.block).2 = none := by
        change afterBlock setup (s.process setup reading.time reading.block).2 = none
        rw [hok]
        simp [afterBlock, hsingle]
      have harrivals : reading.arrivals = [] := hquiet reading List.mem_cons_self
      have hrest : ∀ r ∈ rest, r.arrivals = [] := fun r hr =>
        hquiet r (List.mem_cons_of_mem reading hr)
      obtain ⟨hlength, hresult⟩ :=
        ih signals (turn setup reading.time s reading.block).1 hpoll hrest
      rw [run_go hpoll hturn, harrivals]
      refine ⟨?_, hresult⟩
      simp only [Outcome.after, List.length_cons, List.foldl_nil]
      rw [hlength]

/-! ### A small decoder

It takes every block for one candidate packet, and the block before with it for the window. Runs
over it stand for the general theorems where these need an instance. -/

/-- The window is the block before and the last block. -/
def relayDecoder : BlockDecoder (Bytes × Bytes) where
  blockBytes := 2
  decode d block := ((d.2, block), [block, block], [])
  window d := d.1 ++ d.2

/-- A packet of two bytes is a message of the meter and the type that they name, unless it begins
with a zero. -/
def relayReader : PacketReader
  | [0, _] => .error (.checksum 0)
  | [id, type] =>
    .ok (.scm { id := id.toUInt32, ertType := type, tamperPhy := 0, tamperEnc := 0,
                consumption := 0, checksum := 0 })
  | packet => .error (.length packet.length)

/-- Meters of type 7 are logged, and the sinks work. -/
def relaySetup : Setup (Bytes × Bytes) where
  decoder := relayDecoder
  reader := relayReader
  filter := ⟨[], [7]⟩
  single := false
  logFaults _ := .none
  sampleFaults _ := .none

/-- A read at a fixed time, during which nothing arrives. -/
def relayReading (block : Bytes) : Reading := ⟨block, .epoch, []⟩

/-- Reads of four blocks, of which the first and the last have a message. The second cannot be read,
and the third is of another type. -/
def relayReadings : List Reading := [[5, 7], [0, 7], [6, 8], [6, 7]].map relayReading

/-- A run over these reads that keeps samples. -/
def relayRun (format : Log.Format) : Outcome (Bytes × Bytes) :=
  run relaySetup .endOfStream .quiet
    (.fresh ([], []) (.fresh format true .empty) (some .fresh)) relayReadings

/-- It goes on to the end of the stream. -/
theorem relayRun_ends (format : Log.Format) :
    (relayRun format).attempts.length = 5 ∧ (relayRun format).result = .ok .endOfStream :=
  length_attempts_of_working (fun _ => rfl) (fun _ => rfl) rfl relayReadings .quiet _ rfl
    (by decide)

end MeterRadio.Capture
