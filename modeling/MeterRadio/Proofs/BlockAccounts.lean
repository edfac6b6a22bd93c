/-
Module: MeterRadio.Proofs.BlockAccounts
Purpose: What the processing of one block does to the log and to the sample file, told by the
  ledger. The candidates of a block come to one write of its entries; the window follows them.
Main exports: Capture.entries_concat, Capture.State.candidates_spec, Capture.State.process_end,
  Capture.Balanced, Capture.Balanced.process
-/
import MeterRadio.Capture.Ledger
import MeterRadio.Proofs.LogWriting

namespace MeterRadio.Capture

variable {σ : Type}

/-! ### The ledger of one more block

The ledger is about lists of yields, and a block more is a yield more at the end of the list. These
lemmas say what it adds to the entries, and where its window comes to stand. -/

theorem eq_take_append_of_getElem? {α : Type} {l : List α} {k : Nat} {a : α}
    (h : l[k]? = some a) : l = l.take k ++ a :: l.drop (k + 1) := by
  obtain ⟨hk, rfl⟩ := List.getElem?_eq_some_iff.1 h
  rw [← List.drop_eq_getElem_cons hk, List.take_append_drop]

/-- A block matches if there is a message in it to be logged. -/
theorem Yield.isMatch_eq_decide (y : Yield) : y.isMatch = decide (0 < y.messages.length) := by
  cases hmessages : y.messages <;> simp [isMatch, hmessages]

theorem Yield.length_messages_of_not_isMatch {y : Yield} (h : y.isMatch = false) :
    y.messages.length = 0 := by
  rw [isMatch_eq_decide, decide_eq_false_iff_not] at h
  exact Nat.eq_zero_of_not_pos h

theorem Yield.length_messages_of_isMatch {y : Yield} (h : y.isMatch = true) :
    y.messages.length ≠ 0 := by
  rw [isMatch_eq_decide, decide_eq_true_iff] at h
  exact Nat.ne_of_gt h

@[simp] theorem windows_nil : windows [] = [] := rfl

@[simp] theorem windows_append (xs ys : List Yield) :
    windows (xs ++ ys) = windows xs ++ windows ys := by
  simp [windows]

theorem windows_cons (y : Yield) (rest : List Yield) :
    windows (y :: rest) = windows [y] ++ windows rest := windows_append [y] rest

theorem windows_of_isMatch {y : Yield} (h : y.isMatch = true) : windows [y] = y.window := by
  simp [windows, h]

theorem windows_of_not_isMatch {y : Yield} (h : y.isMatch = false) : windows [y] = [] := by
  simp [windows, h]

/-- The place of the window that follows those of the given blocks. -/
def placeAfter (kept : Bool) (ys : List Yield) : Nat := if kept then (windows ys).length else 0

theorem nextOffset_eq (kept : Bool) (offset : Nat) (y : Yield) :
    nextOffset kept offset y = offset + placeAfter kept [y] := by
  unfold nextOffset placeAfter
  cases kept with
  | false => simp
  | true =>
      cases h : y.isMatch with
      | false => simp [windows_of_not_isMatch h]
      | true => simp [windows_of_isMatch h]

theorem placeAfter_append (kept : Bool) (xs ys : List Yield) :
    placeAfter kept (xs ++ ys) = placeAfter kept xs + placeAfter kept ys := by
  cases kept <;> simp [placeAfter]

/-- Entries of blocks in two parts: the second part starts where the windows of the first end. -/
theorem entriesFrom_append (kept : Bool) (xs ys : List Yield) :
    ∀ offset, entriesFrom kept offset (xs ++ ys) =
      entriesFrom kept offset xs ++ entriesFrom kept (offset + placeAfter kept xs) ys := by
  induction xs with
  | nil =>
      intro offset
      simp [entriesFrom, placeAfter]
  | cons x rest ih =>
      intro offset
      have hplace : placeAfter kept (x :: rest) = placeAfter kept [x] + placeAfter kept rest :=
        placeAfter_append kept [x] rest
      rw [List.cons_append, entriesFrom, entriesFrom, ih, nextOffset_eq, hplace,
        List.append_assoc, Nat.add_assoc]

/-- One more block has its entries behind those of the others, at the place of its window. -/
theorem entries_concat (kept : Bool) (ys : List Yield) (y : Yield) :
    entries kept (ys ++ [y]) = entries kept ys ++ y.entries (placeAfter kept ys) := by
  rw [entries, entriesFrom_append, Nat.zero_add]
  simp [entries, entriesFrom]

/-- A candidate has a message to be logged when its packet can be read and the filter passes it. -/
theorem message?_eq_some_iff {setup : Setup σ} {packet : Bytes} {m : Message} :
    setup.message? packet = some m ↔
      setup.reader packet = .ok m ∧ setup.filter.accepts m = true := by
  unfold Setup.message?
  cases hread : setup.reader packet with
  | error e => simp
  | ok found =>
      by_cases hpass : setup.filter.accepts found = true
      · simp only [if_pos hpass, Option.some.injEq, Except.ok.injEq]
        constructor
        · rintro rfl
          exact ⟨rfl, hpass⟩
        · exact fun h => h.1
      · simp only [if_neg hpass, Except.ok.injEq]
        constructor
        · intro h
          cases h
        · rintro ⟨rfl, h⟩
          exact absurd h hpass

theorem message?_eq_none_iff {setup : Setup σ} {packet : Bytes} :
    setup.message? packet = none ↔
      (∃ e, setup.reader packet = .error e) ∨
        ∃ m, setup.reader packet = .ok m ∧ setup.filter.accepts m = false := by
  unfold Setup.message?
  cases hread : setup.reader packet with
  | error e => simp
  | ok m => simp

namespace State

/-! ### One candidate

Four things can happen to a candidate. Each lemma gives the whole state after one of them. -/

variable {setup : Setup σ} {time : Time.Timestamp} {offset length : Nat} {s : State σ}
  {packet : Bytes} {m : Message}

theorem candidate_rejected {e : PacketError} (h : setup.reader packet = .error e) :
    s.candidate setup time offset length packet =
      ({ s with
          tally := s.tally.countCandidate.countRejected
          trace := rejection packet e :: s.trace }, .ok false) := by
  simp [candidate, h, note]

theorem candidate_filtered (h : setup.reader packet = .ok m)
    (hfilter : setup.filter.accepts m = false) :
    s.candidate setup time offset length packet =
      ({ s with
          tally := s.tally.countCandidate.countFiltered
          trace := omission m :: s.trace }, .ok false) := by
  simp [candidate, h, hfilter, note]

/-- The entry of a message goes to the log, and what the log says of it is the result. -/
theorem candidate_of_message (h : setup.message? packet = some m) :
    s.candidate setup time offset length packet =
      match s.log.write (setup.logFaults s.log.sink) (.ofMessage time offset length m) with
      | (log, none) => ({ s with log, tally := s.tally.countCandidate.countAccepted }, .ok true)
      | (log, some error) => ({ s with log, tally := s.tally.countCandidate }, .error (.log error))
    := by
  obtain ⟨hread, hpass⟩ := message?_eq_some_iff.1 h
  simp only [candidate, hread, hpass]
  rfl

theorem candidate_logged (h : setup.message? packet = some m)
    (hwrite : (s.log.write (setup.logFaults s.log.sink)
      (.ofMessage time offset length m)).2 = none) :
    s.candidate setup time offset length packet =
      ({ s with
          log := (s.log.write (setup.logFaults s.log.sink) (.ofMessage time offset length m)).1
          tally := s.tally.countCandidate.countAccepted }, .ok true) := by
  rw [candidate_of_message h, ← Prod.eta (s.log.write _ _), hwrite]

theorem candidate_refused {error : Log.WriteError} (h : setup.message? packet = some m)
    (hwrite : (s.log.write (setup.logFaults s.log.sink)
      (.ofMessage time offset length m)).2 = some error) :
    s.candidate setup time offset length packet =
      ({ s with
          log := (s.log.write (setup.logFaults s.log.sink) (.ofMessage time offset length m)).1
          tally := s.tally.countCandidate }, .error (.log error)) := by
  rw [candidate_of_message h, ← Prod.eta (s.log.write _ _), hwrite]

/-- A candidate without a message to be logged leaves everything but trace lines and two
counters. -/
theorem candidate_of_none (time : Time.Timestamp) (offset length : Nat) (s : State σ)
    (h : setup.message? packet = none) :
    ∃ tally trace, s.candidate setup time offset length packet =
        ({ s with tally, trace }, .ok false) ∧
      (tally = s.tally.countCandidate.countRejected ∨
        tally = s.tally.countCandidate.countFiltered) := by
  rcases message?_eq_none_iff.1 h with ⟨e, hread⟩ | ⟨m, hread, hfilter⟩
  · exact ⟨_, _, candidate_rejected hread, .inl rfl⟩
  · exact ⟨_, _, candidate_filtered hread hfilter, .inr rfl⟩

/-! ### The candidates of a block -/

/-- The result of a block in which so many messages were to be logged, from the error of the log. -/
def logResult (count : Nat) : Option Log.WriteError → Except Failure Nat
  | none => .ok count
  | some error => .error (.log error)

/-- The entries that candidates come to. -/
def entriesOf (setup : Setup σ) (time : Time.Timestamp) (offset length : Nat)
    (packets : List Bytes) : List Log.Entry :=
  (packets.filterMap setup.message?).map (.ofMessage time offset length)

theorem entriesOf_of_none (h : setup.message? packet = none) (rest : List Bytes) :
    entriesOf setup time offset length (packet :: rest) =
      entriesOf setup time offset length rest := by
  rw [entriesOf, List.filterMap_cons_none h]
  rfl

theorem entriesOf_of_message (h : setup.message? packet = some m) (rest : List Bytes) :
    entriesOf setup time offset length (packet :: rest) =
      .ofMessage time offset length m :: entriesOf setup time offset length rest := by
  rw [entriesOf, List.filterMap_cons_some h]
  rfl

/-- Candidates come to one write of their entries. Nothing else happens to the log, and nothing at
all to the sample file and the decoder. -/
theorem candidates_spec (setup : Setup σ) (time : Time.Timestamp) (offset length : Nat)
    (packets : List Bytes) :
    ∀ (logged : Nat) (s : State σ),
      let written := s.log.writeAll setup.logFaults (entriesOf setup time offset length packets)
      let out := s.candidates setup time offset length logged packets
      out.1.decoder = s.decoder ∧ out.1.samples = s.samples ∧
        out.1.tally.blocks = s.tally.blocks ∧ out.1.log = written.1 ∧
        out.2 = logResult (logged + (packets.filterMap setup.message?).length) written.2 := by
  induction packets with
  | nil =>
      intro logged s
      exact ⟨rfl, rfl, rfl, rfl, rfl⟩
  | cons packet rest ih =>
      intro logged s
      cases hm : setup.message? packet with
      | none =>
          obtain ⟨tally, trace, hcandidate, htally⟩ :=
            candidate_of_none time offset length s hm
          have hblocks : tally.blocks = s.tally.blocks := by
            rcases htally with rfl | rfl <;> rfl
          have hrest := ih logged { s with tally, trace }
          simp only [candidates, hcandidate, entriesOf_of_none hm, List.filterMap_cons, hm,
            Bool.false_eq_true, if_false] at hrest ⊢
          rw [hblocks] at hrest
          exact hrest
      | some m =>
          dsimp only
          rw [entriesOf_of_message hm]
          cases hwrite : (s.log.write (setup.logFaults s.log.sink)
              (.ofMessage time offset length m)).2 with
          | some error =>
              rw [Log.Writer.writeAll_cons_error _ hwrite]
              simp only [candidates, candidate_refused hm hwrite, hwrite]
              exact ⟨trivial, trivial, rfl, trivial, rfl⟩
          | none =>
              have hrest := ih (logged + 1) { s with
                log := (s.log.write (setup.logFaults s.log.sink)
                  (.ofMessage time offset length m)).1
                tally := s.tally.countCandidate.countAccepted }
              rw [Log.Writer.writeAll_cons_ok _ hwrite]
              simp only [candidates, candidate_logged hm hwrite, List.filterMap_cons, hm,
                List.length_cons, if_true] at hrest ⊢
              rw [Nat.add_right_comm, Nat.add_assoc] at hrest
              exact hrest

/-! ### A block

The candidates come first and the window is kept after them, so a block has five ways to end. Later
modules take these cases from `process_end`. -/

/-- What the end of a block is: what was wrong with the log if anything was, the sample file after
the block, and the result. -/
inductive BlockEnd (setup : Setup σ) (s : State σ) (y : Yield) (error : Option Log.WriteError)
    (samples : Option SampleFile) (result : Except Failure Nat) : Prop
  /-- An entry was refused; the window is not kept. -/
  | refused (e : Log.WriteError) (hlog : error = some e) (hsamples : samples = s.samples)
      (hresult : result = .error (.log e))
  /-- There was nothing to log. -/
  | quiet (hlog : error = none) (hmatch : y.isMatch = false) (hsamples : samples = s.samples)
      (hresult : result = .ok 0)
  /-- All entries were logged, and no samples are kept. -/
  | unkept (hlog : error = none) (hmatch : y.isMatch = true) (hfile : s.samples = none)
      (hsamples : samples = none) (hresult : result = .ok y.messages.length)
  /-- All entries were logged and the window was appended. -/
  | kept (file : SampleFile) (hlog : error = none) (hmatch : y.isMatch = true)
      (hfile : s.samples = some file)
      (happend : (file.append (setup.sampleFaults file.sink) y.window).2 = none)
      (hsamples : samples = some (file.append (setup.sampleFaults file.sink) y.window).1)
      (hresult : result = .ok y.messages.length)
  /-- All entries were logged and the append of the window failed. -/
  | lost (file : SampleFile) (fault : Fault) (hlog : error = none) (hmatch : y.isMatch = true)
      (hfile : s.samples = some file)
      (happend : (file.append (setup.sampleFaults file.sink) y.window).2 = some fault)
      (hsamples : samples = some (file.append (setup.sampleFaults file.sink) y.window).1)
      (hresult : result = .error (.samples fault))

/-- A block has a count as its result only if the log took every entry. -/
theorem BlockEnd.error_eq_none {s : State σ} {y : Yield} {error : Option Log.WriteError}
    {samples : Option SampleFile} {result : Except Failure Nat} {logged : Nat}
    (h : BlockEnd setup s y error samples result) (hok : result = .ok logged) : error = none := by
  cases h with
  | refused e _ _ hresult =>
      rw [hok] at hresult
      cases hresult
  | quiet hlog => exact hlog
  | unkept hlog => exact hlog
  | kept _ hlog => exact hlog
  | lost _ _ hlog => exact hlog

/-- The state in which the candidates of a block are taken. -/
def decoded (setup : Setup σ) (s : State σ) (block : Bytes) : State σ :=
  let step := setup.decoder.decode s.decoder block
  { s with
    decoder := step.1
    tally := s.tally.countBlock
    trace := step.2.2.reverse ++ s.trace }

/-- What follows the candidates of a block: the window is kept if a message was logged. -/
def finish (setup : Setup σ) (window : Bytes) :
    State σ × Except Failure Nat → State σ × Except Failure Nat
  | (s, .error failure) => (s, .error failure)
  | (s, .ok logged) =>
    if logged = 0 then (s, .ok 0)
    else
      match s.keep setup window with
      | (s, .error failure) => (s, .error failure)
      | (s, .ok ()) => (s, .ok logged)

theorem process_eq (setup : Setup σ) (s : State σ) (reading : Reading) :
    s.process setup reading.time reading.block =
      finish setup (yield setup s.decoder reading).2.window
        ((s.decoded setup reading.block).candidates setup reading.time s.offset
          (yield setup s.decoder reading).2.window.length 0
          (yield setup s.decoder reading).2.candidates) := rfl

/-- Keeping a window changes the sample file and counters only. -/
theorem keep_frame (setup : Setup σ) (s : State σ) (window : Bytes) :
    (s.keep setup window).1.decoder = s.decoder ∧ (s.keep setup window).1.log = s.log ∧
      (s.keep setup window).1.tally.blocks = s.tally.blocks := by
  unfold keep
  cases s.samples with
  | none => exact ⟨rfl, rfl, rfl⟩
  | some file =>
      cases happend : file.append (setup.sampleFaults file.sink) window with
      | mk after error =>
          cases error with
          | none => simp [Tally.countCapture, happend]
          | some fault => simp [happend]

/-- If there is a sample file, the window is appended to it. -/
theorem keep_some (setup : Setup σ) {s : State σ} {file : SampleFile} (window : Bytes)
    (h : s.samples = some file) :
    let appended := file.append (setup.sampleFaults file.sink) window
    (s.keep setup window).1.samples = some appended.1 ∧
      (s.keep setup window).2 = match appended.2 with
        | none => .ok ()
        | some fault => .error (.samples fault) := by
  unfold keep
  rw [h]
  cases happend : file.append (setup.sampleFaults file.sink) window with
  | mk after error =>
      cases error with
      | none => simp [happend]
      | some fault => simp [happend]

theorem finish_of_ne_zero (setup : Setup σ) (window : Bytes) (s : State σ) {logged : Nat}
    (h : logged ≠ 0) :
    finish setup window (s, .ok logged) =
      ((s.keep setup window).1, (s.keep setup window).2.map fun _ => logged) := by
  simp only [finish, if_neg h]
  cases hkeep : s.keep setup window with
  | mk after result =>
      cases result with
      | error failure => rfl
      | ok _ => rfl

/-- What follows the candidates changes the sample file and counters only. -/
theorem finish_frame (setup : Setup σ) (window : Bytes) (s : State σ)
    (result : Except Failure Nat) :
    (finish setup window (s, result)).1.decoder = s.decoder ∧
      (finish setup window (s, result)).1.log = s.log ∧
      (finish setup window (s, result)).1.tally.blocks = s.tally.blocks := by
  cases result with
  | error failure => exact ⟨rfl, rfl, rfl⟩
  | ok logged =>
      by_cases hzero : logged = 0
      · rw [finish, if_pos hzero]
        exact ⟨rfl, rfl, rfl⟩
      · rw [finish_of_ne_zero setup window s hzero]
        exact keep_frame setup s window

/-- After candidates that left the sample file alone, a block ends in one of the five ways. -/
theorem finish_end (setup : Setup σ) {s after : State σ} (y : Yield)
    (error : Option Log.WriteError) (hsamples : after.samples = s.samples) :
    let out := finish setup y.window (after, logResult y.messages.length error)
    BlockEnd setup s y error out.1.samples out.2 := by
  intro out
  cases error with
  | some e => exact .refused e rfl hsamples rfl
  | none =>
      cases hmatch : y.isMatch with
      | false =>
          have hnone := Yield.length_messages_of_not_isMatch hmatch
          have hout : out = (after, .ok 0) := by
            simp [out, finish, logResult, hnone]
          rw [hout]
          exact .quiet rfl hmatch hsamples rfl
      | true =>
          have hsome := Yield.length_messages_of_isMatch hmatch
          have hout : out = _ := finish_of_ne_zero setup y.window after hsome
          cases hfile : s.samples with
          | none =>
              have hafter : after.samples = none := hsamples.trans hfile
              have hkeep : after.keep setup y.window = (after, .ok ()) := by
                simp [keep, hafter]
              rw [hout, hkeep]
              exact .unkept rfl hmatch hfile hafter rfl
          | some file =>
              obtain ⟨hkept, hresult⟩ := keep_some setup y.window (hsamples.trans hfile)
              cases happend : (file.append (setup.sampleFaults file.sink) y.window).2 with
              | none =>
                  rw [happend] at hresult
                  rw [hout, hresult]
                  exact .kept file rfl hmatch hfile happend hkept rfl
              | some fault =>
                  rw [happend] at hresult
                  rw [hout, hresult]
                  exact .lost file fault rfl hmatch hfile happend hkept rfl

/-- A block moves the decoder and the count of blocks by one, writes its entries to the log, and
ends in one of the ways of `BlockEnd`. -/
theorem process_end (setup : Setup σ) (s : State σ) (reading : Reading) :
    let y := (yield setup s.decoder reading).2
    let written := s.log.writeAll setup.logFaults (y.entries s.offset)
    let out := s.process setup reading.time reading.block
    out.1.decoder = (yield setup s.decoder reading).1 ∧
      out.1.tally.blocks = s.tally.blocks + 1 ∧ out.1.log = written.1 ∧
      BlockEnd setup s y written.2 out.1.samples out.2 := by
  intro y written out
  have hout : out = finish setup y.window _ := process_eq setup s reading
  obtain ⟨hdecoder, hsamples, hblocks, hlog, hresult⟩ :=
    candidates_spec setup reading.time s.offset y.window.length y.candidates 0
      (s.decoded setup reading.block)
  generalize (s.decoded setup reading.block).candidates setup reading.time s.offset
    y.window.length 0 y.candidates = taken at hout hdecoder hsamples hblocks hlog hresult
  obtain ⟨after, result⟩ := taken
  change result = logResult (0 + y.messages.length) written.2 at hresult
  rw [Nat.zero_add] at hresult
  subst hresult
  obtain ⟨fdecoder, flog, fblocks⟩ :=
    finish_frame setup y.window after (logResult y.messages.length written.2)
  rw [hout]
  exact ⟨fdecoder.trans hdecoder, fblocks.trans hblocks, flog.trans hlog,
    finish_end setup y written.2 hsamples⟩

end State

/-! ### Accounts that agree with the ledger

`Balanced` is the invariant of a run: log and sample file are as the ledger has them for the blocks
so far. A block that is processed without a failure preserves it. -/

/-- The accounts of a run that has processed blocks with the given yields: its log holds their
entries and its sample file, if there is one, their windows. Nothing is held back. -/
structure Balanced (format : Log.Format) (withOffset kept : Bool) (ys : List Yield)
    (s : State σ) : Prop where
  settled : s.log.Settled
  format_eq : s.log.format = format
  withOffset_eq : s.log.withOffset = withOffset
  log : s.log.sink.contents = Log.rendered format withOffset (entries kept ys)
  samples : s.samples.map (fun f => (f.sink.contents, f.offset)) =
    if kept then some (windows ys, (windows ys).length) else none

namespace Balanced

variable {format : Log.Format} {withOffset kept : Bool} {ys : List Yield} {s : State σ}

/-- A run that has not read anything is balanced. -/
theorem fresh (decoder : σ) (format : Log.Format) (withOffset kept : Bool) :
    Balanced format withOffset kept []
      (State.fresh decoder (.fresh format withOffset .empty)
        (if kept then some .fresh else none)) where
  settled := Log.Writer.settled_fresh format withOffset .empty
  format_eq := by cases format <;> rfl
  withOffset_eq := by cases format <;> rfl
  log := by
    simp only [State.fresh, Log.Writer.sink_fresh]
    rfl
  samples := by cases kept <;> rfl

/-- The place of the next window is the one that the ledger gives it. -/
theorem offset_eq (h : Balanced format withOffset kept ys s) :
    s.offset = placeAfter kept ys := by
  have hsamples := h.samples
  unfold State.offset placeAfter
  cases hfile : s.samples with
  | none =>
      rw [hfile] at hsamples
      cases kept with
      | false => rfl
      | true => cases hsamples
  | some file =>
      rw [hfile] at hsamples
      cases kept with
      | false => cases hsamples
      | true =>
          simp only [Option.map_some, if_true, Option.some.injEq, Prod.mk.injEq] at hsamples
          exact hsamples.2

/-- Without a message in a block the windows remain as they are, whoever keeps them. -/
theorem samples_of_same {after : State σ} {y : Yield} (h : Balanced format withOffset kept ys s)
    (hsame : after.samples = s.samples) (hwindows : windows [y] = [] ∨ s.samples = none) :
    after.samples.map (fun f => (f.sink.contents, f.offset)) =
      if kept then some (windows (ys ++ [y]), (windows (ys ++ [y])).length) else none := by
  rw [hsame]
  rcases hwindows with hempty | hnone
  · rw [windows_append, hempty, List.append_nil]
    exact h.samples
  · have hsamples := h.samples
    rw [hnone] at hsamples ⊢
    cases kept with
    | false => rfl
    | true => cases hsamples

/-- A block that is processed without a failure keeps the accounts balanced. -/
theorem process {setup : Setup σ} {reading : Reading} {logged : Nat}
    (h : Balanced format withOffset kept ys s)
    (hok : (s.process setup reading.time reading.block).2 = .ok logged) :
    Balanced format withOffset kept (ys ++ [(yield setup s.decoder reading).2])
      (s.process setup reading.time reading.block).1 := by
  obtain ⟨-, -, hlog, hend⟩ := State.process_end setup s reading
  generalize s.process setup reading.time reading.block = out at hok hlog hend ⊢
  obtain ⟨after, result⟩ := out
  dsimp only at hok hlog hend ⊢
  obtain ⟨hsettled, hformat, hwithOffset, hcontents⟩ :=
    Log.Writer.writeAll_of_ok _ h.settled (hend.error_eq_none hok)
  refine ⟨?_, ?_, ?_, ?_, ?_⟩
  · rw [hlog]
    exact hsettled
  · rw [hlog, hformat, h.format_eq]
  · rw [hlog, hwithOffset, h.withOffset_eq]
  · rw [hlog, hcontents, h.log, h.format_eq, h.withOffset_eq, h.offset_eq, entries_concat,
      Log.rendered_append]
  · cases hend with
    | refused e _ _ hresult =>
        rw [hok] at hresult
        cases hresult
    | quiet _ hmatch hsamples =>
        exact h.samples_of_same hsamples (.inl (windows_of_not_isMatch hmatch))
    | unkept _ _ hfile hsamples =>
        exact h.samples_of_same (hsamples.trans hfile.symm) (.inr hfile)
    | kept file _ hmatch hfile happend hsamples =>
        obtain ⟨hsink, hoffset⟩ := SampleFile.append_of_ok happend
        have hbefore := h.samples
        rw [hfile] at hbefore
        rw [hsamples]
        cases kept with
        | false => cases hbefore
        | true =>
            simp only [Option.map_some, if_true, Option.some.injEq, Prod.mk.injEq] at hbefore ⊢
            rw [hsink, hoffset, hbefore.1, hbefore.2, windows_append, windows_of_isMatch hmatch,
              List.length_append]
            exact ⟨rfl, rfl⟩
    | lost _ _ _ _ _ _ _ hresult =>
        rw [hok] at hresult
        cases hresult

end Balanced
end MeterRadio.Capture
