/-
Module: MeterRadio.Proofs.FailureDamage
Purpose: What a run that is given up leaves behind. The blocks before the failure keep their entries
  and their windows, and behind these stands what the failing block came to before it failed.
Main exports: Capture.Remains, Capture.BlockLeaves, Capture.Damage, Capture.Balanced.failure,
  Capture.damage_of_failure
-/
import MeterRadio.Proofs.CapturePlacement
import MeterRadio.Proofs.RunEnds

namespace MeterRadio.Capture

variable {σ : Type} {setup : Setup σ} {format : Log.Format} {withOffset : Bool}

/-- What a failure leaves behind the accounts of the blocks before it. -/
structure Remains where
  log : List Char
  /-- Text that the writer of the log still holds. -/
  held : List Char
  samples : Bytes

/-- Nothing remains. -/
def Remains.nothing : Remains := ⟨[], [], []⟩

/-- What a failing block leaves when it has the given yield, and the blocks before it those that
were told. A sink fails in a write, which then stores nothing, or in the flush after a write. -/
inductive BlockLeaves (setup : Setup σ) (format : Log.Format) (withOffset : Bool)
    (told : List Yield) (y : Yield) : Failure → Remains → Prop
  /-- The log has the entries before the refused one. A comma-separated record may be held back. -/
  | logWrite (done rest : List Log.Entry) (e : Log.Entry) (error : Log.WriteError)
      (sink : Sink Char) (held : List Char)
      (hentries : y.entries (windows told).length = done ++ e :: rest)
      (hsink : sink.contents = Log.rendered format withOffset (entries true told ++ done))
      (hfault : (setup.logFaults sink).write = some error.fault)
      (hheld : held <+: Log.render format withOffset e) (hcsv : format ≠ .csv → held = []) :
      BlockLeaves setup format withOffset told y (.log error)
        ⟨Log.rendered format withOffset done, held, []⟩
  /-- The log has the refused entry too. -/
  | logFlush (done rest : List Log.Entry) (e : Log.Entry) (error : Log.WriteError)
      (sink : Sink Char)
      (hentries : y.entries (windows told).length = done ++ e :: rest)
      (hsink : sink.contents = Log.rendered format withOffset (entries true told ++ done))
      (hopen : (setup.logFaults sink).write = none)
      (hfault : (setup.logFaults sink).flush = some error.fault) :
      BlockLeaves setup format withOffset told y (.log error)
        ⟨Log.rendered format withOffset (done ++ [e]), [], []⟩
  /-- The log has all entries of the block. -/
  | sampleWrite (sink : Sink UInt8) (fault : Fault) (hmatch : y.isMatch = true)
      (hsink : sink.contents = windows told)
      (hfault : (setup.sampleFaults sink).write = some fault) :
      BlockLeaves setup format withOffset told y (.samples fault)
        ⟨Log.rendered format withOffset (y.entries (windows told).length), [], []⟩
  /-- The log has all entries of the block, and the sample file its window. -/
  | sampleFlush (sink : Sink UInt8) (fault : Fault) (hmatch : y.isMatch = true)
      (hsink : sink.contents = windows told)
      (hopen : y.window = [] ∨ (setup.sampleFaults sink).write = none)
      (hfault : (setup.sampleFaults sink).flush = some fault) :
      BlockLeaves setup format withOffset told y (.samples fault)
        ⟨Log.rendered format withOffset (y.entries (windows told).length), [], y.window⟩

/-- How far a failure reaches. Every entry of an earlier block is in the log and points at the
window of its block. -/
structure Damage (format : Log.Format) (withOffset : Bool) (told : List Yield) (remains : Remains)
    (log : Log.Writer) (samples : Bytes) : Prop where
  log_eq : log.sink.contents =
    Log.rendered format withOffset ((placed 0 told).flatMap Placement.entries) ++ remains.log
  samples_eq : samples = windows told ++ remains.samples
  points_at : ∀ b ∈ placed 0 told, ∀ e ∈ b.entries,
    e.offset = b.place ∧ e.length = b.yield.window.length ∧
      (samples.drop e.offset).take e.length = b.yield.window
  /-- When the log is closed, only what is held back can come out. -/
  close_eq : ∀ faults, (log.close faults).contents =
    log.sink.contents ++ if faults.write = none then remains.held else []

theorem take_drop_append {α : Type} {w v : List α} {place : Nat}
    (h : (w.drop place).take v.length = v) (later : List α) :
    ((w ++ later).drop place).take v.length = v := by
  have hlength : v.length ≤ (w.drop place).length := by
    have := congrArg List.length h
    rw [List.length_take] at this
    omega
  rw [List.drop_append, List.take_append_of_le_length hlength, h]

/-- The accounts of earlier blocks, with anything behind them. -/
theorem Damage.of_remains {told : List Yield} {remains : Remains} {log : Log.Writer}
    {samples : Bytes}
    (hlog : log.sink.contents =
      Log.rendered format withOffset (entries true told) ++ remains.log)
    (hheld : log.held = remains.held) (hsamples : samples = windows told ++ remains.samples) :
    Damage format withOffset told remains log samples where
  log_eq := by rw [hlog, entries, entriesFrom_eq]
  samples_eq := hsamples
  points_at := by
    intro b hb e he
    obtain ⟨hoffset, hlength, hmatch⟩ := mem_entries he
    refine ⟨hoffset, hlength, ?_⟩
    rw [hoffset, hlength, hsamples]
    exact take_drop_append (window_at_place told [] b hb hmatch) remains.samples
  close_eq := fun faults => by rw [Log.Writer.contents_close, hheld]

/-! ### A block that fails

Either the log refuses an entry or the sample file refuses the window. Both sinks are written to at
their ends only, so the blocks before keep what they have. -/

section Block

variable {told : List Yield} {s : State σ}

/-- A log that refuses an entry of a block has taken the entries before it. -/
theorem Balanced.refused (h : Balanced format withOffset true told s) {y : Yield}
    {error : Log.WriteError}
    (hrefused : (s.log.writeAll setup.logFaults (y.entries s.offset)).2 = some error) :
    ∃ remains, BlockLeaves setup format withOffset told y (.log error) remains ∧
      remains.samples = [] ∧
      let after := (s.log.writeAll setup.logFaults (y.entries s.offset)).1
      after.held = remains.held ∧ after.sink.contents =
        Log.rendered format withOffset (entries true told) ++ remains.log := by
  have hplace : s.offset = (windows told).length := h.offset_eq
  rw [hplace] at hrefused ⊢
  obtain ⟨done, e, rest, hentries, hdone, hall⟩ := Log.Writer.writeAll_of_error _ hrefused
  obtain ⟨hsettled, hformat, hwith, hcontents⟩ := Log.Writer.writeAll_of_ok done h.settled hdone
  rw [hall] at hrefused ⊢
  generalize (s.log.writeAll setup.logFaults done).1 = before at *
  have hsink : before.sink.contents =
      Log.rendered format withOffset (entries true told ++ done) := by
    rw [hcontents, h.log, h.format_eq, h.withOffset_eq, Log.rendered_append]
  cases Log.Writer.write_of_error hsettled hrefused with
  | write hfault hsame hheld hcsv =>
      rw [hformat, h.format_eq] at hheld hcsv
      rw [hwith, h.withOffset_eq] at hheld
      refine ⟨_, .logWrite done rest e error before.sink _ hentries hsink hfault hheld hcsv, rfl,
        rfl, ?_⟩
      rw [hsame, hsink, Log.rendered_append]
  | flush hopen hfault hall hheld =>
      rw [hformat, hwith, h.format_eq, h.withOffset_eq] at hall
      refine ⟨_, .logFlush done rest e error before.sink hentries hsink hopen hfault, rfl,
        hheld, ?_⟩
      rw [hall, hsink, Log.rendered_append, Log.rendered_append, List.append_assoc]
      simp

/-- A sample file that refuses the window of a block has those of the blocks before. -/
theorem Balanced.lost (h : Balanced format withOffset true told s) {y : Yield}
    {file : SampleFile} {fault : Fault} (hfile : s.samples = some file)
    (hmatch : y.isMatch = true)
    (hrefused : (s.log.writeAll setup.logFaults (y.entries s.offset)).2 = none)
    (happend : (file.append (setup.sampleFaults file.sink) y.window).2 = some fault) :
    ∃ remains, BlockLeaves setup format withOffset told y (.samples fault) remains ∧
      (file.append (setup.sampleFaults file.sink) y.window).1.sink.contents =
        windows told ++ remains.samples ∧
      let after := (s.log.writeAll setup.logFaults (y.entries s.offset)).1
      after.held = remains.held ∧ after.sink.contents =
        Log.rendered format withOffset (entries true told) ++ remains.log := by
  have hplace : s.offset = (windows told).length := h.offset_eq
  rw [hplace] at hrefused ⊢
  obtain ⟨hsettled, -, -, hcontents⟩ := Log.Writer.writeAll_of_ok _ h.settled hrefused
  rw [h.log, h.format_eq, h.withOffset_eq] at hcontents
  have hwindows : file.sink.contents = windows told := by
    obtain ⟨found, hfound, hsame⟩ := h.exists_file
    rw [hfile] at hfound
    cases hfound
    exact hsame
  obtain ⟨-, ⟨hfault, hsame⟩ | ⟨hopen, hfault, hall⟩⟩ := SampleFile.append_of_fault happend
  · refine ⟨_, .sampleWrite file.sink fault hmatch hwindows hfault, ?_, hsettled.held_eq, hcontents⟩
    rw [hsame, hwindows, List.append_nil]
  · refine ⟨_, .sampleFlush file.sink fault hmatch hwindows hopen hfault, ?_, hsettled.held_eq,
      hcontents⟩
    rw [hall, hwindows]

/-- A block that fails damages nothing of the blocks before it. -/
theorem Balanced.failure (h : Balanced format withOffset true told s) {reading : Reading}
    {failure : Failure}
    (hfail : (s.process setup reading.time reading.block).2 = .error failure) :
    let after := (s.process setup reading.time reading.block).1
    ∃ remains file, after.samples = some file ∧
      BlockLeaves setup format withOffset told (yield setup s.decoder reading).2 failure remains ∧
      Damage format withOffset told remains after.log file.sink.contents := by
  intro after
  obtain ⟨-, -, hlog, hend⟩ := State.process_end setup s reading
  obtain ⟨file, hfile, hwindows⟩ := h.exists_file
  change after.log = _ at hlog
  change State.BlockEnd setup s _ _ after.samples _ at hend
  cases hend with
  | refused e hrefused hsamples hresult =>
      rw [hfail] at hresult
      cases hresult
      obtain ⟨remains, hleaves, hnone, hheld, hcontents⟩ := h.refused hrefused
      refine ⟨remains, file, hsamples.trans hfile, hleaves, ?_⟩
      rw [hlog]
      refine .of_remains hcontents hheld ?_
      rw [hwindows, hnone, List.append_nil]
  | lost found fault hnone hmatch hfound happend hsamples hresult =>
      rw [hfail] at hresult
      cases hresult
      obtain ⟨remains, hleaves, hkept, hheld, hcontents⟩ := h.lost hfound hmatch hnone happend
      refine ⟨remains, _, hsamples, hleaves, ?_⟩
      rw [hlog]
      exact .of_remains hcontents hheld hkept
  | quiet _ _ _ hresult =>
      rw [hfail] at hresult
      cases hresult
  | unkept _ _ _ _ hresult =>
      rw [hfail] at hresult
      cases hresult
  | kept _ _ _ _ _ _ hresult =>
      rw [hfail] at hresult
      cases hresult

end Block

/-! ### Runs that are given up -/

theorem eq_of_afterError {ending : TransportError} {failure : Failure}
    (h : afterError ending = .error failure) :
    failure = .transport ending ∧ ending ≠ .endOfStream := by
  cases ending with
  | endOfStream => cases h
  | io fault =>
      cases h
      exact ⟨rfl, TransportError.noConfusion⟩
  | badMagic bytes =>
      cases h
      exact ⟨rfl, TransportError.noConfusion⟩

theorem Balanced.damage {ending : TransportError} {signals : Signals} {s : State σ}
    {readings : List Reading} {failure : Failure} (hs : Balanced format withOffset true [] s)
    (h : (run setup ending signals s readings).result = .error failure) :
    let o := run setup ending signals s readings
    let ys := yields setup s.decoder readings
    ∃ k remains file, o.attempts.length = k + 1 ∧ o.state.samples = some file ∧
      Damage format withOffset (ys.take k) remains o.state.log file.sink.contents ∧
      ((k = readings.length ∧ failure = .transport ending ∧ ending ≠ .endOfStream ∧
          remains = .nothing) ∨
        ∃ y, ys[k]? = some y ∧
          BlockLeaves setup format withOffset (ys.take k) y failure remains) := by
  intro o ys
  obtain ⟨first, rest, rfl, hquiet, hgoes, hdecision⟩ := run_ends setup readings signals s
  have hbefore := hs.through first hgoes
  rw [List.nil_append] at hbefore
  have hys : ys = _ := yields_through setup first rest s
  have htake : ys.take first.length = yields setup s.decoder first := by
    rw [hys, List.take_left' (length_yields setup first s.decoder)]
  refine ⟨first.length, ?_⟩
  rw [htake]
  cases hdecision with
  | signal reason _ hpoll =>
      have hresult := (run_signalled ending hquiet hgoes hpoll rest).2.1
      rw [hresult] at h
      cases h
  | block reading later result hpoll hturn =>
      obtain ⟨hstate, hresult, hattempts⟩ :=
        run_decided ending hquiet hgoes hpoll hturn later
      obtain rfl : result = .error failure := hresult.symm.trans h
      obtain ⟨remains, file, hfile, hleaves, hdamage⟩ :=
        hbefore.failure (process_of_turn_error hturn)
      refine ⟨remains, file, hattempts, (congrArg State.samples hstate).trans hfile, ?_,
        .inr ⟨_, ?_, hleaves⟩⟩
      · rw [show o.state.log = _ from congrArg State.log hstate]
        exact hdamage
      · rw [hys, List.getElem?_append_right (Nat.le_of_eq (length_yields setup first s.decoder)),
          length_yields, Nat.sub_self, yields_cons]
        rfl
  | read hpoll =>
      have ho : o = run setup ending signals s first := by
        rw [show o = run setup ending signals s (first ++ []) from rfl, List.append_nil]
      obtain ⟨hstate, hresult, hattempts⟩ := run_exhausted ending hquiet hgoes hpoll
      obtain ⟨rfl, hending⟩ :=
        eq_of_afterError (hresult.symm.trans ((congrArg Outcome.result ho).symm.trans h))
      obtain ⟨file, hfile, hwindows⟩ := hbefore.exists_file
      rw [ho, hstate]
      refine ⟨.nothing, file, hattempts, hfile, ?_, .inl ⟨?_, rfl, hending, rfl⟩⟩
      · refine .of_remains ?_ hbefore.settled.held_eq ?_
        · rw [hbefore.log]
          exact (List.append_nil _).symm
        · rw [hwindows]
          exact (List.append_nil _).symm
      · rw [List.append_nil]

/-- Every run that keeps samples and is given up ends at the read or in the block where the failure
was, and its damage reaches no further. A read that fails leaves nothing. -/
theorem damage_of_failure (setup : Setup σ) (ending : TransportError) (signals : Signals)
    (decoder : σ) (format : Log.Format) (withOffset : Bool) (readings : List Reading)
    {failure : Failure}
    (h : (run setup ending signals
      (.fresh decoder (.fresh format withOffset .empty) (some .fresh)) readings).result =
        .error failure) :
    let o := run setup ending signals
      (.fresh decoder (.fresh format withOffset .empty) (some .fresh)) readings
    let ys := yields setup decoder readings
    ∃ k remains file, o.attempts.length = k + 1 ∧ o.state.samples = some file ∧
      Damage format withOffset (ys.take k) remains o.state.log file.sink.contents ∧
      ((k = readings.length ∧ failure = .transport ending ∧ ending ≠ .endOfStream ∧
          remains = .nothing) ∨
        ∃ y, ys[k]? = some y ∧
          BlockLeaves setup format withOffset (ys.take k) y failure remains) :=
  (Balanced.fresh decoder format withOffset true).damage h

/-- The sample file takes one window. -/
def scantSetup : Setup (Bytes × Bytes) :=
  { relaySetup with
    sampleFaults := fun sink => if sink.pieces.isEmpty then .none else ⟨some .noSpace, none⟩ }

theorem turn_scantSetup (s : State (Bytes × Bytes)) (reading : Reading) {file : SampleFile}
    (hfile : s.samples = some file)
    (hmatch : (yield scantSetup s.decoder reading).2.isMatch = true) :
    let appended := file.append (scantSetup.sampleFaults file.sink)
      (yield scantSetup s.decoder reading).2.window
    (turn scantSetup reading.time s reading.block).1.samples = some appended.1 ∧
      (turn scantSetup reading.time s reading.block).2 =
        appended.2.map fun fault => .error (.samples fault) := by
  intro appended
  obtain ⟨-, -, -, hend⟩ := State.process_end scantSetup s reading
  have hlog : (s.log.writeAll scantSetup.logFaults
      ((yield scantSetup s.decoder reading).2.entries s.offset)).2 = none :=
    Log.Writer.writeAll_none (fun _ => rfl) _ _
  rw [hlog] at hend
  change _ ∧ afterBlock scantSetup (s.process scantSetup reading.time reading.block).2 = _
  cases hend with
  | refused e hrefused => cases hrefused
  | quiet _ hnone =>
      rw [hmatch] at hnone
      cases hnone
  | unkept _ _ hnone =>
      rw [hfile] at hnone
      cases hnone
  | kept found _ _ hfound happend hsamples hresult =>
      obtain rfl : file = found := Option.some.inj (hfile.symm.trans hfound)
      rw [hresult, show appended.2 = none from happend]
      exact ⟨hsamples, rfl⟩
  | lost found fault _ _ hfound happend hsamples hresult =>
      obtain rfl : file = found := Option.some.inj (hfile.symm.trans hfound)
      rw [hresult, show appended.2 = some fault from happend]
      exact ⟨hsamples, rfl⟩

/-- Both blocks of this run have a message, and only the first one keeps its window. -/
theorem scant_damage :
    let o := run scantSetup .endOfStream .quiet
      (.fresh ([], []) (.fresh .csv true .empty) (some .fresh)) ([[5, 7], [6, 7]].map relayReading)
    o.result = .error (.samples .noSpace) ∧
      ∃ remains file, o.state.samples = some file ∧ file.sink.contents = [5, 7] ∧
        Damage .csv true ((yields scantSetup ([], []) ([[5, 7], [6, 7]].map relayReading)).take 1)
          remains o.state.log file.sink.contents := by
  -- Nothing here depends on the format, and over a variable no run is unfolded.
  generalize Log.Format.csv = format
  intro o
  obtain ⟨hkept, hfirst⟩ := turn_scantSetup
    (.fresh ([], []) (.fresh format true .empty) (some .fresh)) (relayReading [5, 7]) rfl rfl
  have hdecoder := decoder_turn scantSetup
    (.fresh ([], []) (.fresh format true .empty) (some .fresh)) (relayReading [5, 7])
  obtain ⟨-, hsecond⟩ := turn_scantSetup _ (relayReading [6, 7]) hkept (by rw [hdecoder]; rfl)
  rw [hdecoder] at hsecond
  have hgo : o = _ := run_go rfl hfirst [relayReading [6, 7]]
  have hstop : run scantSetup .endOfStream .quiet _ [relayReading [6, 7]] = _ :=
    run_stop rfl (hsecond.trans (show _ = some (.error (.samples .noSpace)) from rfl)) []
  have ho : o = Outcome.after ⟨_, .error (.samples .noSpace), _⟩ _ :=
    hgo.trans (congrArg (fun later => Outcome.after later _) hstop)
  have hresult : o.result = .error (.samples .noSpace) := by rw [ho]; rfl
  have hattempts : o.attempts.length = 2 := by rw [ho]; rfl
  obtain ⟨k, remains, file, hk, hfile, hdamage, hcause⟩ :=
    damage_of_failure scantSetup .endOfStream .quiet ([], []) format true _ hresult
  obtain rfl : k = 1 := Nat.succ.inj (hk.symm.trans hattempts)
  refine ⟨hresult, remains, file, hfile, ?_, hdamage⟩
  rw [hdamage.samples_eq]
  rcases hcause with ⟨hlast, -⟩ | ⟨y, -, hleaves⟩
  · cases hlast
  · cases hleaves with
    | sampleWrite => rfl
    | sampleFlush sink _ _ _ _ hflush =>
        simp only [scantSetup] at hflush
        split at hflush <;> cases hflush

end MeterRadio.Capture
