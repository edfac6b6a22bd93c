/-
Module: MeterRadio.Proofs.RunCounters
Purpose: What the counters of a run count. Every candidate is rejected, held back or logged, except
  for one whose entry the log refused, which is the last; and the captured bytes are the position
  in the sample file at every moment.
Main exports: Log.Writer.outcomes, Tally.Conserved, Capture.State.candidates_counts,
  Capture.State.process_counts, Capture.Counted, Capture.State.Accurate, Capture.run_invariant,
  Capture.counters_of_run
-/
import MeterRadio.Proofs.RunEnds

namespace MeterRadio

/-! ### Writes to a log -/

namespace Log.Writer

variable {faults : Sink Char → Sink.Faults}

/-- What the writes of entries come to, one after the other up to the first error. -/
def outcomes (faults : Sink Char → Sink.Faults) : Writer → List Entry → List (Option WriteError)
  | _, [] => []
  | w, e :: rest =>
    match w.write (faults w.sink) e with
    | (w, none) => none :: outcomes faults w rest
    | (_, some error) => [some error]

theorem outcomes_cons_ok {w : Writer} {e : Entry} (rest : List Entry)
    (h : (w.write (faults w.sink) e).2 = none) :
    w.outcomes faults (e :: rest) =
      none :: (w.write (faults w.sink) e).1.outcomes faults rest := by
  rw [outcomes, ← Prod.eta (w.write (faults w.sink) e), h]

theorem outcomes_cons_error {w : Writer} {e : Entry} {error : WriteError} (rest : List Entry)
    (h : (w.write (faults w.sink) e).2 = some error) :
    w.outcomes faults (e :: rest) = [some error] := by
  rw [outcomes, ← Prod.eta (w.write (faults w.sink) e), h]

/-- Entries after others that were all written. -/
theorem writeAll_append (a b : List Entry) :
    ∀ w : Writer, (w.writeAll faults a).2 = none →
      w.writeAll faults (a ++ b) = (w.writeAll faults a).1.writeAll faults b ∧
        w.outcomes faults (a ++ b) =
          w.outcomes faults a ++ (w.writeAll faults a).1.outcomes faults b := by
  induction a with
  | nil =>
      intro w _
      exact ⟨rfl, rfl⟩
  | cons e rest ih =>
      intro w h
      cases herror : (w.write (faults w.sink) e).2 with
      | some error =>
          rw [writeAll_cons_error rest herror, herror] at h
          cases h
      | none =>
          rw [writeAll_cons_ok rest herror] at h
          obtain ⟨hall, houtcomes⟩ := ih _ h
          rw [List.cons_append, writeAll_cons_ok _ herror, writeAll_cons_ok rest herror,
            outcomes_cons_ok _ herror, outcomes_cons_ok rest herror, houtcomes]
          exact ⟨hall, rfl⟩

end Log.Writer

/-! ### Candidates -/

/-- All candidates are in one of the three other counters, but for so many that were refused. -/
def Tally.Conserved (t : Tally) (refused : Nat) : Prop :=
  t.candidates = t.rejected + t.filtered + t.accepted + refused

namespace Capture

variable {σ : Type} {setup : Setup σ} {s : State σ}

/-- How many entries were refused when a run failed: one, if the log refused it. -/
def Failure.refusals : Failure → Nat
  | .log _ => 1
  | _ => 0

/-- Whether the failure is one of the log or of the sample file. -/
def Failure.ofOutput : Failure → Bool
  | .transport _ => false
  | .log _ => true
  | .samples _ => true

/-- How many entries were refused, from the end of a block or of a run. -/
def refusals {α : Type} : Except Failure α → Nat
  | .ok _ => 0
  | .error failure => failure.refusals

namespace State

/-- A candidate without a message to be logged is one of those that have none. -/
theorem conserved_of_none {tally before : Tally} (h : before.Conserved 0)
    (htally : tally = before.countCandidate.countRejected ∨
      tally = before.countCandidate.countFiltered) : tally.Conserved 0 := by
  unfold Tally.Conserved at h ⊢
  rcases htally with rfl | rfl
  · simp only [Tally.countCandidate, Tally.countRejected]
    omega
  · simp only [Tally.countCandidate, Tally.countFiltered]
    omega

theorem conserved_of_logged {before : Tally} (h : before.Conserved 0) :
    before.countCandidate.countAccepted.Conserved 0 := by
  simp only [Tally.Conserved, Tally.countCandidate, Tally.countAccepted] at h ⊢
  omega

theorem conserved_of_refused {before : Tally} (h : before.Conserved 0) :
    before.countCandidate.Conserved 1 := by
  simp only [Tally.Conserved, Tally.countCandidate] at h ⊢
  omega

/-- What the candidates of a block do to the counters: they are told apart, those that were logged
are accepted, and nothing is captured. -/
theorem candidates_counts (setup : Setup σ) (time : Time.Timestamp) (offset length : Nat)
    (packets : List Bytes) :
    ∀ (logged : Nat) (s : State σ),
      let out := s.candidates setup time offset length logged packets
      (s.tally.Conserved 0 → out.1.tally.Conserved (refusals out.2)) ∧
        out.1.tally.accepted = s.tally.accepted +
          (s.log.outcomes setup.logFaults (entriesOf setup time offset length packets)).count
            none ∧
        out.1.tally.captureWrites = s.tally.captureWrites ∧
        out.1.tally.captureBytes = s.tally.captureBytes := by
  induction packets with
  | nil =>
      intro logged s
      exact ⟨fun h => h, rfl, rfl, rfl⟩
  | cons packet rest ih =>
      intro logged s
      cases hm : setup.message? packet with
      | none =>
          obtain ⟨tally, trace, hcandidate, htally⟩ :=
            candidate_of_none time offset length s hm
          obtain ⟨hconserved, haccepted, hwrites, hbytes⟩ :=
            ih logged { s with tally, trace }
          simp only [candidates, hcandidate, Bool.false_eq_true, if_false]
          rw [entriesOf_of_none hm]
          refine ⟨fun h => hconserved (conserved_of_none h htally), ?_, ?_, ?_⟩
          · rcases htally with rfl | rfl <;> exact haccepted
          · rcases htally with rfl | rfl <;> exact hwrites
          · rcases htally with rfl | rfl <;> exact hbytes
      | some m =>
          dsimp only
          rw [entriesOf_of_message hm]
          cases hwrite : (s.log.write (setup.logFaults s.log.sink)
              (.ofMessage time offset length m)).2 with
          | some error =>
              rw [Log.Writer.outcomes_cons_error _ hwrite]
              simp only [candidates, candidate_refused hm hwrite]
              exact ⟨conserved_of_refused, rfl, rfl, rfl⟩
          | none =>
              obtain ⟨hconserved, haccepted, hwrites, hbytes⟩ := ih (logged + 1) { s with
                log := (s.log.write (setup.logFaults s.log.sink)
                  (.ofMessage time offset length m)).1
                tally := s.tally.countCandidate.countAccepted }
              rw [Log.Writer.outcomes_cons_ok _ hwrite]
              simp only [candidates, candidate_logged hm hwrite, if_true]
              refine ⟨fun h => hconserved (conserved_of_logged h), ?_, hwrites, hbytes⟩
              rw [List.count_cons_self]
              exact haccepted.trans (Nat.add_right_comm _ 1 _)

/-! ### Windows -/

/-- A window is not kept, it is kept and counted, or it is not kept as it should be. -/
theorem keep_cases (setup : Setup σ) (s : State σ) (window : Bytes) :
    (s.samples = none ∧ s.keep setup window = (s, .ok ())) ∨
      (∃ file, s.samples = some file ∧
        (file.append (setup.sampleFaults file.sink) window).2 = none ∧
        s.keep setup window =
          ({ s with
              samples := some (file.append (setup.sampleFaults file.sink) window).1
              tally := s.tally.countCapture window.length }, .ok ())) ∨
      ∃ file fault, s.samples = some file ∧
        (file.append (setup.sampleFaults file.sink) window).2 = some fault ∧
        s.keep setup window =
          ({ s with samples := some (file.append (setup.sampleFaults file.sink) window).1 },
            .error (.samples fault)) := by
  cases hfile : s.samples with
  | none => exact .inl ⟨rfl, by simp [keep, hfile]⟩
  | some file =>
      cases happend : file.append (setup.sampleFaults file.sink) window with
      | mk after error =>
          cases error with
          | none => exact .inr (.inl ⟨file, rfl, by rw [happend], by simp [keep, hfile, happend]⟩)
          | some fault =>
              exact .inr (.inr ⟨file, fault, rfl, by rw [happend],
                by simp [keep, hfile, happend]⟩)

/-- The captured bytes that were counted are the position in the sample file. -/
def Accurate (s : State σ) : Prop := s.tally.captureBytes = s.offset

/-- They still are after anything that touches neither. -/
theorem Accurate.of_same {after : State σ} (h : s.Accurate)
    (hbytes : after.tally.captureBytes = s.tally.captureBytes)
    (hsamples : after.samples = s.samples) : after.Accurate := by
  rw [Accurate, offset, hbytes, hsamples]
  exact h

theorem Accurate.keep (h : s.Accurate) (setup : Setup σ) (window : Bytes) :
    (s.keep setup window).1.Accurate := by
  rcases keep_cases setup s window with ⟨-, hkeep⟩ | ⟨file, hfile, happend, hkeep⟩ |
    ⟨file, fault, hfile, happend, hkeep⟩
  · rw [hkeep]
    exact h
  · rw [Accurate, offset, hfile] at h
    rw [hkeep, Accurate, offset]
    refine (congrArg (· + window.length) h).trans ?_
    exact (SampleFile.append_of_ok happend).2.symm
  · rw [Accurate, offset, hfile] at h
    rw [hkeep, Accurate, offset]
    exact h.trans (SampleFile.append_of_fault happend).1.symm

theorem Accurate.candidates (h : s.Accurate) (setup : Setup σ) (time : Time.Timestamp)
    (offset length logged : Nat) (packets : List Bytes) :
    (s.candidates setup time offset length logged packets).1.Accurate := by
  obtain ⟨-, -, -, hbytes⟩ := candidates_counts setup time offset length packets logged s
  obtain ⟨-, hsamples, -⟩ := candidates_spec setup time offset length packets logged s
  exact h.of_same hbytes hsamples

theorem Accurate.finish (h : s.Accurate) (setup : Setup σ) (window : Bytes)
    (result : Except Failure Nat) : (finish setup window (s, result)).1.Accurate := by
  cases result with
  | error failure => exact h
  | ok logged =>
      by_cases hzero : logged = 0
      · rw [State.finish, if_pos hzero]
        exact h
      · rw [finish_of_ne_zero setup window s hzero]
        exact h.keep setup window

theorem Accurate.process (h : s.Accurate) (setup : Setup σ) (reading : Reading) :
    (s.process setup reading.time reading.block).1.Accurate := by
  rw [process_eq]
  apply Accurate.finish
  apply Accurate.candidates
  exact h.of_same rfl rfl

/-- What follows the candidates counts a capture if there is something to keep and it is kept. The
other counters stay. -/
theorem finish_counts (setup : Setup σ) (after : State σ) (y : Yield)
    (error : Option Log.WriteError) :
    let out := finish setup y.window (after, logResult y.messages.length error)
    (∃ writes bytes, out.1.tally =
        { after.tally with captureWrites := writes, captureBytes := bytes }) ∧
      refusals out.2 = refusals (logResult y.messages.length error) ∧
      out.1.tally.captureWrites = after.tally.captureWrites +
        if after.samples.isSome && y.isMatch && out.2.isOk then 1 else 0 := by
  intro out
  cases error with
  | some e => exact ⟨⟨_, _, rfl⟩, rfl, by simp [out, finish, logResult, Except.isOk, Except.toBool]⟩
  | none =>
      cases hmatch : y.isMatch with
      | false =>
          have hnone := Yield.length_messages_of_not_isMatch hmatch
          have hout : out = (after, .ok 0) := by
            simp [out, finish, logResult, hnone]
          rw [hout]
          exact ⟨⟨_, _, rfl⟩, rfl, by simp⟩
      | true =>
          have hsome := Yield.length_messages_of_isMatch hmatch
          have hout : out = _ := finish_of_ne_zero setup y.window after hsome
          rcases keep_cases setup after y.window with ⟨hfile, hkeep⟩ | ⟨file, hfile, -, hkeep⟩ |
            ⟨file, fault, hfile, -, hkeep⟩
          · rw [hout, hkeep, hfile]
            exact ⟨⟨_, _, rfl⟩, rfl, rfl⟩
          · rw [hout, hkeep, hfile]
            exact ⟨⟨_, _, rfl⟩, rfl, rfl⟩
          · rw [hout, hkeep, hfile]
            exact ⟨⟨_, _, rfl⟩, rfl, rfl⟩

/-! ### Blocks -/

/-- What a block does to the counters. -/
theorem process_counts (setup : Setup σ) (s : State σ) (reading : Reading) :
    let y := (yield setup s.decoder reading).2
    let out := s.process setup reading.time reading.block
    (s.tally.Conserved 0 → out.1.tally.Conserved (refusals out.2)) ∧
      out.1.tally.accepted = s.tally.accepted +
        (s.log.outcomes setup.logFaults (y.entries s.offset)).count none ∧
      out.1.tally.captureWrites = s.tally.captureWrites +
        if s.samples.isSome && y.isMatch && out.2.isOk then 1 else 0 := by
  intro y out
  have hout : out = finish setup y.window _ := process_eq setup s reading
  obtain ⟨-, hsamples, -, -, hresult⟩ :=
    candidates_spec setup reading.time s.offset y.window.length y.candidates 0
      (s.decoded setup reading.block)
  obtain ⟨hconserved, haccepted, hwrites, -⟩ :=
    candidates_counts setup reading.time s.offset y.window.length y.candidates 0
      (s.decoded setup reading.block)
  generalize (s.decoded setup reading.block).candidates setup reading.time s.offset
    y.window.length 0 y.candidates = taken at hout hsamples hresult hconserved haccepted hwrites
  obtain ⟨after, result⟩ := taken
  rw [Nat.zero_add] at hresult
  let written := s.log.writeAll setup.logFaults (y.entries s.offset)
  change result = logResult y.messages.length written.2 at hresult
  obtain ⟨⟨writes, bytes, htally⟩, hrefusals, hcaptured⟩ :=
    finish_counts setup after y written.2
  rw [← hresult, ← hout] at htally hrefusals hcaptured
  refine ⟨fun h => ?_, ?_, ?_⟩
  · rw [htally, hrefusals]
    exact hconserved h
  · rw [htally]
    exact haccepted
  · rw [hcaptured, hsamples, hwrites]
    rfl

end State

/-! ### Moments

Elsewhere a run is looked at between its reads. Here the states inside of a block count as well, as
the captured bytes are to be right at every moment. -/

/-- The states of a run from the read of a block on: at the read, before the candidates and after
each of them, and at the end of the block. -/
def State.moments (setup : Setup σ) (s : State σ) (reading : Reading) : List (State σ) :=
  let y := (yield setup s.decoder reading).2
  let taken := fun k => ((s.decoded setup reading.block).candidates setup reading.time s.offset
    y.window.length 0 (y.candidates.take k)).1
  s :: (List.range (y.candidates.length + 1)).map taken ++
    [(s.process setup reading.time reading.block).1]

theorem State.Accurate.moments (h : s.Accurate) (setup : Setup σ) (reading : Reading) :
    ∀ now ∈ s.moments setup reading, now.Accurate := by
  intro now hnow
  rcases List.mem_append.1 hnow with hbefore | hend
  · rcases List.mem_cons.1 hbefore with rfl | htaken
    · exact h
    · obtain ⟨k, -, rfl⟩ := List.mem_map.1 htaken
      apply State.Accurate.candidates
      exact h.of_same rfl rfl
  · obtain rfl := List.mem_singleton.1 hend
    exact h.process setup reading

/-- What every turn of the loop preserves holds whenever a read is attempted, and at the end. -/
theorem run_invariant {P : State σ → Prop} (ending : TransportError)
    (hturn : ∀ (s : State σ) (reading : Reading), P s → P (turn setup reading.time s reading.block).1)
    (readings : List Reading) :
    ∀ (signals : Signals) (s : State σ), P s →
      P (run setup ending signals s readings).state ∧
        ∀ now ∈ (run setup ending signals s readings).attempts, P now := by
  induction readings with
  | nil =>
      intro signals s hs
      cases hpoll : signals.poll with
      | some reason =>
          rw [run_of_signal hpoll]
          exact ⟨hs, List.forall_mem_nil P⟩
      | none =>
          rw [run_nil hpoll]
          exact ⟨hs, List.forall_mem_singleton.2 hs⟩
  | cons reading rest ih =>
      intro signals s hs
      cases hpoll : signals.poll with
      | some reason =>
          rw [run_of_signal hpoll]
          exact ⟨hs, List.forall_mem_nil P⟩
      | none =>
          cases hresult : (turn setup reading.time s reading.block).2 with
          | some result =>
              rw [run_stop hpoll hresult]
              exact ⟨hturn s reading hs, List.forall_mem_singleton.2 hs⟩
          | none =>
              obtain ⟨hstate, hattempts⟩ :=
                ih (reading.arrivals.foldl Signals.receive signals) _ (hturn s reading hs)
              rw [run_go hpoll hresult]
              exact ⟨hstate, List.forall_mem_cons.2 ⟨hs, hattempts⟩⟩

/-! ### Runs -/

/-- The counters of a state that a run has come to after blocks with the given yields, of which
some were completed; the log refused so many entries. -/
structure CounterLaw (setup : Setup σ) (log : Log.Writer) (kept : Bool)
    (ys completed : List Yield) (refused : Nat) (s : State σ) : Prop where
  blocks : s.tally.blocks = ys.length
  /-- The run wrote the entries of the blocks to the log up to the first error. -/
  written : s.log = (log.writeAll setup.logFaults (entries kept ys)).1
  accepted : s.tally.accepted = (log.outcomes setup.logFaults (entries kept ys)).count none
  /-- A candidate is rejected, held back or logged, or it is one that was refused. -/
  candidates : s.tally.candidates =
    s.tally.rejected + s.tally.filtered + s.tally.accepted + refused
  /-- A window is captured for each completed block with a message, if samples are kept. -/
  captureWrites : s.tally.captureWrites = if kept then completed.countP Yield.isMatch else 0
  /-- The bytes of the windows of these blocks, all together. -/
  captureBytes : s.tally.captureBytes = if kept then (windows completed).length else 0

variable {format : Log.Format} {withOffset kept : Bool} {told : List Yield}

theorem Balanced.isSome_samples (h : Balanced format withOffset kept told s) :
    s.samples.isSome = kept := by
  have hsamples := congrArg Option.isSome h.samples
  rw [Option.isSome_map] at hsamples
  rw [hsamples]
  cases kept <;> rfl

/-- A run that has completed blocks and goes on: its accounts are balanced, its counters are right,
and no entry was refused. -/
structure Counted (setup : Setup σ) (format : Log.Format) (withOffset kept : Bool)
    (told : List Yield) (s : State σ) : Prop where
  balanced : Balanced format withOffset kept told s
  law : CounterLaw setup (.fresh format withOffset .empty) kept told told 0 s
  unrefused : ((Log.Writer.fresh format withOffset .empty).writeAll setup.logFaults
    (entries kept told)).2 = none
  accurate : s.Accurate

namespace Counted

theorem fresh (setup : Setup σ) (decoder : σ) (format : Log.Format) (withOffset kept : Bool) :
    Counted setup format withOffset kept []
      (State.fresh decoder (.fresh format withOffset .empty)
        (if kept then some .fresh else none)) where
  balanced := Balanced.fresh decoder format withOffset kept
  law := ⟨rfl, rfl, rfl, rfl, by cases kept <;> rfl, by cases kept <;> rfl⟩
  unrefused := rfl
  accurate := by cases kept <;> rfl

/-- A failed block leaves the position in the sample file. -/
theorem offset_of_error {reading : Reading} {failure : Failure}
    (h : (s.process setup reading.time reading.block).2 = .error failure) :
    (s.process setup reading.time reading.block).1.offset = s.offset := by
  obtain ⟨-, -, -, hend⟩ := State.process_end setup s reading
  rw [State.offset, State.offset]
  cases hend with
  | refused e _ hsamples => rw [hsamples]
  | quiet _ _ hsamples => rw [hsamples]
  | unkept _ _ hfile hsamples => rw [hsamples, hfile]
  | kept _ _ _ _ _ _ hresult =>
      rw [h] at hresult
      cases hresult
  | lost file fault _ _ hfile happend hsamples =>
      rw [hsamples, hfile, Option.map_some, (SampleFile.append_of_fault happend).1]
      rfl

/-- The counters are right after one more block, which is among the completed ones unless it
failed. -/
theorem block (h : Counted setup format withOffset kept told s) (reading : Reading)
    {completed : List Yield}
    (hcompleted : completed =
      told ++ if (s.process setup reading.time reading.block).2.isOk then
        [(yield setup s.decoder reading).2] else [])
    (hoffset : (s.process setup reading.time reading.block).1.offset =
      placeAfter kept completed) :
    CounterLaw setup (.fresh format withOffset .empty) kept
      (told ++ [(yield setup s.decoder reading).2]) completed
      (refusals (s.process setup reading.time reading.block).2)
      (s.process setup reading.time reading.block).1 := by
  obtain ⟨-, hblocks, hlog, -⟩ := State.process_end setup s reading
  obtain ⟨hconserved, haccepted, hwrites⟩ := State.process_counts setup s reading
  obtain ⟨hall, houtcomes⟩ := Log.Writer.writeAll_append (entries kept told)
    ((yield setup s.decoder reading).2.entries s.offset) _ h.unrefused
  rw [h.balanced.offset_eq, ← entries_concat] at hall houtcomes
  refine ⟨?blocks, ?written, ?accepted, hconserved h.law.candidates, ?captureWrites,
    ?captureBytes⟩
  case blocks =>
    rw [hblocks, h.law.blocks, List.length_append, List.length_singleton]
  case written =>
    rw [hlog, hall, h.law.written, h.balanced.offset_eq]
  case accepted =>
    rw [haccepted, houtcomes, List.count_append, h.law.accepted, h.law.written,
      h.balanced.offset_eq]
  case captureWrites =>
    rw [hwrites, h.law.captureWrites, h.balanced.isSome_samples, hcompleted]
    cases kept with
    | false => rfl
    | true =>
        rw [List.countP_append]
        cases (s.process setup reading.time reading.block).2.isOk with
        | false => simp
        | true => simp [List.countP_singleton]
  case captureBytes => exact (h.accurate.process setup reading).trans hoffset

/-- A block that is processed without a failure keeps a run counted. -/
theorem process (h : Counted setup format withOffset kept told s) {reading : Reading}
    {logged : Nat} (hok : (s.process setup reading.time reading.block).2 = .ok logged) :
    Counted setup format withOffset kept (told ++ [(yield setup s.decoder reading).2])
      (s.process setup reading.time reading.block).1 := by
  have hbalanced := h.balanced.process hok
  obtain ⟨-, -, -, hend⟩ := State.process_end setup s reading
  refine ⟨hbalanced, ?_, ?_, h.accurate.process setup reading⟩
  · have hlaw := h.block reading (by rw [hok]; rfl) hbalanced.offset_eq
    rw [hok] at hlaw
    exact hlaw
  · have hrest := hend.error_eq_none hok
    obtain ⟨hall, -⟩ := Log.Writer.writeAll_append (entries kept told)
      ((yield setup s.decoder reading).2.entries s.offset) _ h.unrefused
    rw [h.balanced.offset_eq, ← entries_concat] at hall
    rw [hall, ← h.law.written, ← h.balanced.offset_eq]
    exact hrest

/-- The counters are right after a block that failed, which is not among the completed ones. -/
theorem failed (h : Counted setup format withOffset kept told s) {reading : Reading}
    {failure : Failure}
    (herror : (s.process setup reading.time reading.block).2 = .error failure) :
    CounterLaw setup (.fresh format withOffset .empty) kept
      (told ++ [(yield setup s.decoder reading).2]) told
      (refusals (s.process setup reading.time reading.block).2)
      (s.process setup reading.time reading.block).1 := by
  apply h.block
  · rw [herror]
    exact (List.append_nil _).symm
  · rw [offset_of_error herror]
    exact h.balanced.offset_eq

end Counted

/-- The blocks that a run has completed: all that were read, but for the one in which an output
failed. -/
def completed (ys : List Yield) : Result → List Yield
  | .ok _ => ys
  | .error failure => if failure.ofOutput then ys.dropLast else ys

/-- A read that brings no block is no refusal, and no output failed in it. -/
theorem afterError_counts (ending : TransportError) (ys : List Yield) :
    refusals (afterError ending) = 0 ∧ completed ys (afterError ending) = ys := by
  cases ending with
  | endOfStream => exact ⟨rfl, rfl⟩
  | io fault => exact ⟨rfl, rfl⟩
  | badMagic bytes => exact ⟨rfl, rfl⟩

/-- A block that ends a run leaves the counters as the result tells. -/
theorem Counted.decided (h : Counted setup format withOffset kept told s) {reading : Reading}
    {result : Result} (hturn : (turn setup reading.time s reading.block).2 = some result) :
    let y := (yield setup s.decoder reading).2
    CounterLaw setup (.fresh format withOffset .empty) kept (told ++ [y])
      (completed (told ++ [y]) result) (refusals result)
      (turn setup reading.time s reading.block).1 := by
  intro y
  cases result with
  | ok reason =>
      obtain ⟨-, logged, hok⟩ := process_of_turn_ok hturn
      exact (h.process hok).law
  | error failure =>
      have herror := process_of_turn_error hturn
      have hlaw := h.failed herror
      obtain ⟨-, -, -, hend⟩ := State.process_end setup s reading
      rw [herror] at hlaw hend
      have hlast : completed (told ++ [y]) (.error failure) = told := by
        cases hend with
        | refused e _ _ hresult =>
            cases hresult
            exact List.dropLast_concat
        | quiet _ _ _ hresult => cases hresult
        | unkept _ _ _ _ hresult => cases hresult
        | kept _ _ _ _ _ _ hresult => cases hresult
        | lost _ _ _ _ _ _ _ hresult =>
            cases hresult
            exact List.dropLast_concat
      rw [hlast]
      exact hlaw

/-- The counters at the end of a run are right for the blocks that were read. -/
theorem Counted.ends (ending : TransportError) (signals : Signals) (readings : List Reading)
    (h : Counted setup format withOffset kept [] s) :
    let o := run setup ending signals s readings
    let ys := yields setup s.decoder (readings.take (o.attempts.zip readings).length)
    CounterLaw setup (.fresh format withOffset .empty) kept ys (completed ys o.result)
      (refusals o.result) o.state := by
  obtain ⟨first, rest, rfl, hquiet, hgoes, hdecision⟩ := run_ends setup readings signals s
  have hcounted := through_induction (P := Counted setup format withOffset kept)
    (fun h hok => h.process hok) first h hgoes
  rw [List.nil_append] at hcounted
  intro o ys
  cases hdecision with
  | signal reason _ hpoll =>
      obtain ⟨hstate, hresult, hattempts⟩ := run_signalled ending hquiet hgoes hpoll rest
      have hys : ys = yields setup s.decoder first := by
        simp only [ys, List.length_zip, o, hattempts, List.length_append]
        rw [Nat.min_eq_left (Nat.le_add_right _ _), List.take_left]
      rw [hys, hstate, hresult]
      exact hcounted.law
  | block reading rest result hpoll hturn =>
      obtain ⟨hstate, hresult, hattempts⟩ := run_decided ending hquiet hgoes hpoll hturn rest
      have hys : ys = yields setup s.decoder first ++
          [(yield setup (Capture.through setup s first).decoder reading).2] := by
        have htake : (first ++ reading :: rest).take (first.length + 1) = first ++ [reading] := by
          rw [List.take_length_add_append]
          rfl
        simp only [ys, List.length_zip, o, hattempts, List.length_append, List.length_cons]
        rw [Nat.min_eq_left (by omega), htake, yields_through]
        rfl
      rw [hys, hstate, hresult]
      exact hcounted.decided hturn
  | read hpoll =>
      obtain ⟨hstate, hresult, hattempts⟩ := run_exhausted ending hquiet hgoes hpoll
      have hys : ys = yields setup s.decoder first := by
        simp only [ys, List.append_nil, List.length_zip, o, hattempts]
        rw [Nat.min_eq_right (Nat.le_succ _), List.take_length]
      obtain ⟨hnone, hall⟩ := afterError_counts ending (yields setup s.decoder first)
      simp only [o, List.append_nil] at hys ⊢
      rw [hys, hstate, hresult, hnone, hall]
      exact hcounted.law

/-- Whatever ends a run, its counters are right for the blocks that were read, and at every moment
the captured bytes are the position in the sample file. -/
theorem counters_of_run (setup : Setup σ) (ending : TransportError) (signals : Signals)
    (decoder : σ) (format : Log.Format) (withOffset kept : Bool) (readings : List Reading) :
    let log := Log.Writer.fresh format withOffset .empty
    let o := run setup ending signals
      (.fresh decoder log (if kept then some .fresh else none)) readings
    let reads := o.attempts.zip readings
    let ys := yields setup decoder (readings.take reads.length)
    CounterLaw setup log kept ys (completed ys o.result) (refusals o.result) o.state ∧
      o.state.tally.blocks = reads.length ∧
      o.state.tally.captureBytes = o.state.offset ∧
      ∀ read ∈ reads, ∀ now ∈ read.1.moments setup read.2,
        now.tally.captureBytes = now.offset := by
  intro log o reads ys
  have hfresh := Counted.fresh setup decoder format withOffset kept
  have hlaw := hfresh.ends ending signals readings
  obtain ⟨hend, hattempts⟩ := run_invariant (P := State.Accurate) ending
    (fun s reading h => h.process setup reading) readings signals _ hfresh.accurate
  refine ⟨hlaw, ?_, hend, ?_⟩
  · have hreads : reads.length ≤ readings.length := by
      rw [List.length_zip]
      exact Nat.min_le_right _ _
    rw [hlaw.blocks, length_yields, List.length_take]
    exact Nat.min_eq_left hreads
  · intro read hread now hnow
    apply State.Accurate.moments _ setup read.2 now hnow
    exact hattempts read.1 (List.of_mem_zip hread).1

end Capture
end MeterRadio
