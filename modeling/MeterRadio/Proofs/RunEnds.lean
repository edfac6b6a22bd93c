/-
Module: MeterRadio.Proofs.RunEnds
Purpose: Where a run ends. It passes over blocks before which no signal is seen and after which
  nothing ends it; then a signal, a block or the read that brings none decides the result.
Main exports: Capture.through, Capture.Unsignalled, Capture.Uneventful, Capture.run_append,
  Capture.run_ends, Capture.through_induction, Capture.Balanced.through
-/
import MeterRadio.Proofs.RunAccounts

namespace MeterRadio.Capture

variable {σ : Type} {setup : Setup σ} {signals : Signals} {s : State σ}

/-! ### Passing over blocks

A run falls into reads before which no signal is seen and whose blocks do not end it, and what comes
after these. On the first part it is one block after the other, and nothing else happens. -/

/-- The signals after reads. -/
def received (signals : Signals) (readings : List Reading) : Signals :=
  (readings.flatMap Reading.arrivals).foldl Signals.receive signals

/-- The state after blocks that were processed one after the other. -/
def through (setup : Setup σ) (s : State σ) (readings : List Reading) : State σ :=
  readings.foldl (fun s reading => (turn setup reading.time s reading.block).1) s

/-- No signal is seen before any of the reads. -/
def Unsignalled : Signals → List Reading → Prop
  | _, [] => True
  | signals, reading :: rest =>
    signals.poll = none ∧ Unsignalled (reading.arrivals.foldl Signals.receive signals) rest

/-- None of the blocks ends the run. -/
def Uneventful (setup : Setup σ) : State σ → List Reading → Prop
  | _, [] => True
  | s, reading :: rest =>
    (turn setup reading.time s reading.block).2 = none ∧
      Uneventful setup (turn setup reading.time s reading.block).1 rest

@[simp] theorem received_nil (signals : Signals) : received signals [] = signals := rfl

@[simp] theorem received_cons (signals : Signals) (reading : Reading) (rest : List Reading) :
    received signals (reading :: rest) =
      received (reading.arrivals.foldl Signals.receive signals) rest := by
  simp [received]

@[simp] theorem through_nil (setup : Setup σ) (s : State σ) : through setup s [] = s := rfl

@[simp] theorem through_cons (setup : Setup σ) (s : State σ) (reading : Reading)
    (rest : List Reading) :
    through setup s (reading :: rest) =
      through setup (turn setup reading.time s reading.block).1 rest := rfl

theorem unsignalled_iff (first : List Reading) :
    ∀ signals, Unsignalled signals first ↔
      ∀ k < first.length, (received signals (first.take k)).poll = none := by
  induction first with
  | nil =>
      intro signals
      simp [Unsignalled]
  | cons reading rest ih =>
      intro signals
      rw [Unsignalled, ih]
      constructor
      · rintro ⟨hpoll, hrest⟩ k hk
        cases k with
        | zero => exact hpoll
        | succ k =>
            rw [List.take_succ_cons, received_cons]
            exact hrest k (Nat.lt_of_succ_lt_succ hk)
      · intro h
        refine ⟨h 0 (Nat.zero_lt_succ _), fun k hk => ?_⟩
        have hnext := h (k + 1) (Nat.succ_lt_succ hk)
        rwa [List.take_succ_cons, received_cons] at hnext

theorem received_of_quiet (signals : Signals) {readings : List Reading}
    (hquiet : ∀ reading ∈ readings, reading.arrivals = []) :
    received signals readings = signals := by
  rw [received, List.flatMap_eq_nil_iff.2 hquiet, List.foldl_nil]

theorem unsignalled_of_quiet {readings : List Reading} (hpoll : signals.poll = none)
    (hquiet : ∀ reading ∈ readings, reading.arrivals = []) : Unsignalled signals readings := by
  refine (unsignalled_iff readings signals).2 fun k _ => ?_
  rw [received_of_quiet signals fun reading hreading =>
    hquiet reading (List.mem_of_mem_take hreading)]
  exact hpoll

/-- The run over reads that it passes over and others goes on with the others. -/
theorem run_append (ending : TransportError) (first : List Reading) :
    ∀ (signals : Signals) (s : State σ), Unsignalled signals first → Uneventful setup s first →
      ∀ rest : List Reading,
        let o := run setup ending signals s (first ++ rest)
        let later := run setup ending (received signals first) (through setup s first) rest
        o.state = later.state ∧ o.result = later.result ∧
          o.attempts.length = first.length + later.attempts.length := by
  induction first with
  | nil =>
      intro signals s _ _ rest
      exact ⟨rfl, rfl, (Nat.zero_add _).symm⟩
  | cons reading first ih =>
      intro signals s hquiet hgoes rest
      obtain ⟨hpoll, hquiet⟩ := hquiet
      obtain ⟨hturn, hgoes⟩ := hgoes
      obtain ⟨hstate, hresult, hattempts⟩ := ih _ _ hquiet hgoes rest
      rw [List.cons_append, run_go hpoll hturn, received_cons, through_cons]
      refine ⟨hstate, hresult, ?_⟩
      simp only [Outcome.after, List.length_cons]
      omega

/-! ### What decides

Each lemma gives the end of a run that has passed over its first reads. -/

section Decided

variable (ending : TransportError) {first : List Reading} (hquiet : Unsignalled signals first)
  (hgoes : Uneventful setup s first)

include hquiet hgoes

/-- A signal ends the run without another read. -/
theorem run_signalled {reason : ExitReason} (h : (received signals first).poll = some reason)
    (rest : List Reading) :
    let o := run setup ending signals s (first ++ rest)
    o.state = through setup s first ∧ o.result = .ok reason ∧
      o.attempts.length = first.length := by
  intro o
  obtain ⟨hstate, hresult, hattempts⟩ :=
    run_append ending first signals s hquiet hgoes rest
  rw [run_of_signal h rest] at hstate hresult hattempts
  exact ⟨hstate, hresult, hattempts⟩

/-- The block that decides is processed, and its read is the last one attempted. -/
theorem run_decided {reading : Reading} {result : Result}
    (h : (received signals first).poll = none)
    (hturn : (turn setup reading.time (through setup s first) reading.block).2 = some result)
    (rest : List Reading) :
    let o := run setup ending signals s (first ++ reading :: rest)
    o.state = (turn setup reading.time (through setup s first) reading.block).1 ∧
      o.result = result ∧ o.attempts.length = first.length + 1 := by
  intro o
  obtain ⟨hstate, hresult, hattempts⟩ :=
    run_append ending first signals s hquiet hgoes (reading :: rest)
  rw [run_stop h hturn rest] at hstate hresult hattempts
  exact ⟨hstate, hresult, hattempts⟩

theorem run_exhausted (h : (received signals first).poll = none) :
    let o := run setup ending signals s first
    o.state = through setup s first ∧ o.result = afterError ending ∧
      o.attempts.length = first.length + 1 := by
  intro o
  obtain ⟨hstate, hresult, hattempts⟩ :=
    run_append ending first signals s hquiet hgoes []
  rw [run_nil h] at hstate hresult hattempts
  rw [List.append_nil] at hstate hresult hattempts
  exact ⟨hstate, hresult, hattempts⟩

end Decided

/-- What decides a run that has passed over `first`, when the other reads are `rest`. -/
inductive Decision (setup : Setup σ) (signals : Signals) (s : State σ) (first : List Reading) :
    List Reading → Prop
  | signal (reason : ExitReason) (rest : List Reading)
      (h : (received signals first).poll = some reason) : Decision setup signals s first rest
  | block (reading : Reading) (rest : List Reading) (result : Result)
      (h : (received signals first).poll = none)
      (hturn : (turn setup reading.time (through setup s first) reading.block).2 =
        some result) : Decision setup signals s first (reading :: rest)
  | read (h : (received signals first).poll = none) : Decision setup signals s first []

/-- Every run passes over its first reads, and then something decides it. -/
theorem run_ends (setup : Setup σ) (readings : List Reading) :
    ∀ (signals : Signals) (s : State σ), ∃ first rest, readings = first ++ rest ∧
      Unsignalled signals first ∧ Uneventful setup s first ∧
        Decision setup signals s first rest := by
  induction readings with
  | nil =>
      intro signals s
      refine ⟨[], [], rfl, trivial, trivial, ?_⟩
      cases hpoll : signals.poll with
      | some reason => exact .signal reason [] hpoll
      | none => exact .read hpoll
  | cons reading rest ih =>
      intro signals s
      cases hpoll : signals.poll with
      | some reason => exact ⟨[], _, rfl, trivial, trivial, .signal reason _ hpoll⟩
      | none =>
          cases hturn : (turn setup reading.time s reading.block).2 with
          | some result =>
              exact ⟨[], _, rfl, trivial, trivial, .block reading rest result hpoll hturn⟩
          | none =>
              obtain ⟨first, later, rfl, hquiet, hgoes, hdecision⟩ :=
                ih (reading.arrivals.foldl Signals.receive signals)
                  (turn setup reading.time s reading.block).1
              refine ⟨reading :: first, later, rfl, ⟨hpoll, hquiet⟩, ⟨hturn, hgoes⟩, ?_⟩
              cases hdecision with
              | signal reason _ h => exact .signal reason _ (by rwa [received_cons])
              | block next _ result h hnext =>
                  exact .block next _ result (by rwa [received_cons]) hnext
              | read h => exact .read (by rwa [received_cons])

/-- In front of working sinks no block ends a run that is not to stop at a message. -/
theorem uneventful_of_working (setup : Setup σ) (hlog : ∀ sink, setup.logFaults sink = .none)
    (hsamples : ∀ sink, setup.sampleFaults sink = .none) (hsingle : setup.single = false)
    (readings : List Reading) : ∀ s : State σ, Uneventful setup s readings := by
  induction readings with
  | nil => intro s; trivial
  | cons reading rest ih =>
      intro s
      obtain ⟨logged, hok⟩ := process_ok_of_working hlog hsamples s reading
      refine ⟨?_, ih _⟩
      change afterBlock setup (s.process setup reading.time reading.block).2 = none
      rw [hok]
      simp [afterBlock, hsingle]

/-- Such a run processes every block, if no signal comes. -/
theorem run_of_working (ending : TransportError) (hlog : ∀ sink, setup.logFaults sink = .none)
    (hsamples : ∀ sink, setup.sampleFaults sink = .none) (hsingle : setup.single = false)
    {readings : List Reading} (hpoll : signals.poll = none)
    (hquiet : ∀ reading ∈ readings, reading.arrivals = []) :
    let o := run setup ending signals s readings
    o.state = through setup s readings ∧ o.result = afterError ending := by
  obtain ⟨hstate, hresult, -⟩ := run_exhausted ending (unsignalled_of_quiet hpoll hquiet)
    (uneventful_of_working setup hlog hsamples hsingle readings s)
    (by rw [received_of_quiet signals hquiet]; exact hpoll)
  exact ⟨hstate, hresult⟩

/-! ### The accounts on the way -/

theorem blocks_through (setup : Setup σ) (readings : List Reading) :
    ∀ s : State σ, (through setup s readings).tally.blocks = s.tally.blocks + readings.length := by
  induction readings with
  | nil => intro s; rfl
  | cons reading rest ih =>
      intro s
      rw [through_cons, ih, blocks_turn, List.length_cons]
      omega

theorem yields_through (setup : Setup σ) (first rest : List Reading) :
    ∀ s : State σ, yields setup s.decoder (first ++ rest) =
      yields setup s.decoder first ++ yields setup (through setup s first).decoder rest := by
  induction first with
  | nil => intro s; rfl
  | cons reading first ih =>
      intro s
      rw [List.cons_append, yields_cons, ← decoder_turn, ih, yields_cons, ← decoder_turn,
        through_cons, List.cons_append]

@[simp] theorem length_yields (setup : Setup σ) (readings : List Reading) :
    ∀ decoder : σ, (yields setup decoder readings).length = readings.length := by
  induction readings with
  | nil => intro decoder; rfl
  | cons reading rest ih =>
      intro decoder
      rw [yields_cons, List.length_cons, List.length_cons, ih]

theorem take_yields (setup : Setup σ) (readings : List Reading) :
    ∀ (decoder : σ) (k : Nat),
      (yields setup decoder readings).take k = yields setup decoder (readings.take k) := by
  induction readings with
  | nil =>
      intro decoder k
      rw [List.take_nil]
      exact List.take_nil
  | cons reading rest ih =>
      intro decoder k
      cases k with
      | zero => rfl
      | succ k => rw [yields_cons, List.take_succ_cons, List.take_succ_cons, yields_cons, ih]

/-- What a block that is processed without a failure preserves holds after all blocks that do not
end a run. The yield of each block is told after those before it. -/
theorem through_induction {P : List Yield → State σ → Prop}
    (hblock : ∀ {told : List Yield} {s : State σ} {reading : Reading} {logged : Nat},
      P told s → (s.process setup reading.time reading.block).2 = .ok logged →
        P (told ++ [(yield setup s.decoder reading).2])
          (s.process setup reading.time reading.block).1)
    (readings : List Reading) :
    ∀ {s : State σ} {told : List Yield}, P told s → Uneventful setup s readings →
      P (told ++ yields setup s.decoder readings) (through setup s readings) := by
  induction readings with
  | nil =>
      intro s told hs _
      simpa [yields] using hs
  | cons reading rest ih =>
      intro s told hs hgoes
      obtain ⟨hturn, hgoes⟩ := hgoes
      obtain ⟨logged, hok⟩ := process_of_turn_none hturn
      have hnext := ih (hblock hs hok) hgoes
      rw [yields_cons, ← decoder_turn, through_cons]
      rw [List.append_assoc, List.singleton_append] at hnext
      exact hnext

/-- Blocks that do not end a run keep its accounts balanced. -/
theorem Balanced.through {format : Log.Format} {withOffset kept : Bool} {told : List Yield}
    (readings : List Reading) (hs : Balanced format withOffset kept told s)
    (hgoes : Uneventful setup s readings) :
    Balanced format withOffset kept (told ++ yields setup s.decoder readings)
      (through setup s readings) :=
  through_induction (fun h hok => h.process hok) readings hs hgoes

/-- The samples that are kept are the windows. -/
theorem Balanced.samples_contents {format : Log.Format} {withOffset kept : Bool}
    {told : List Yield} (h : Balanced format withOffset kept told s) :
    s.samples.map (fun f => f.sink.contents) = if kept then some (windows told) else none := by
  have hsamples := congrArg (Option.map Prod.fst) h.samples
  rw [Option.map_map] at hsamples
  refine hsamples.trans ?_
  cases kept <;> rfl

/-- If samples are kept, there is a file with the windows. -/
theorem Balanced.exists_file {format : Log.Format} {withOffset : Bool} {told : List Yield}
    (h : Balanced format withOffset true told s) :
    ∃ file, s.samples = some file ∧ file.sink.contents = windows told := by
  have hsamples := h.samples_contents
  rw [if_pos rfl, Option.map_eq_some_iff] at hsamples
  exact hsamples

end MeterRadio.Capture
