/-
Module: MeterRadio.Proofs.WorkingRuns
Purpose: Runs in front of sinks that work, and what two of them have in common. A block has one
  outcome, which does not depend on what the log holds; so runs can be compared block by block.
Main exports: Capture.Setup.Working, Capture.State.advance, Capture.State.process_of_working,
  Capture.run_related, Capture.Reading.untimed, Capture.entries_untimed
-/
import Mathlib.Data.List.Forall2
import MeterRadio.Proofs.RunCounters

namespace MeterRadio.Capture

variable {σ : Type} {setup : Setup σ}

/-! ### A block in front of working sinks -/

/-- Neither the log nor the sample file ever fails. -/
structure Setup.Working (setup : Setup σ) : Prop where
  log : ∀ sink, setup.logFaults sink = .none
  samples : ∀ sink, setup.sampleFaults sink = .none

namespace Setup

/-- Whether a candidate carries no message. -/
def rejects (setup : Setup σ) (packet : Bytes) : Bool := !(setup.reader packet).isOk

/-- Whether a candidate carries a message that the filter holds back. -/
def holdsBack (setup : Setup σ) (packet : Bytes) : Bool :=
  match setup.reader packet with
  | .error _ => false
  | .ok m => !setup.filter.accepts m

/-- The trace line of a candidate, if its message is not logged. -/
def remark? (setup : Setup σ) (packet : Bytes) : Option Trace.Line :=
  match setup.reader packet with
  | .error error => some (State.rejection packet error)
  | .ok m => if setup.filter.accepts m then none else some (State.omission m)

/-- The counters after candidates. -/
def count (setup : Setup σ) (packets : List Bytes) (t : Tally) : Tally :=
  { t with
    candidates := t.candidates + packets.length
    rejected := t.rejected + packets.countP setup.rejects
    filtered := t.filtered + packets.countP setup.holdsBack
    accepted := t.accepted + (packets.filterMap setup.message?).length }

/-- What is counted for one candidate after the other is counted for all of them. -/
theorem count_cons (setup : Setup σ) (packet : Bytes) (rest : List Bytes) (t : Tally) :
    setup.count (packet :: rest) t = setup.count rest (setup.count [packet] t) := by
  have hone : packet :: rest = [packet] ++ rest := rfl
  rw [hone]
  simp only [count, List.length_append, List.countP_append, List.filterMap_append, Nat.add_assoc]

end Setup

namespace State

/-- The state after a block in front of working sinks. -/
def advance (setup : Setup σ) (s : State σ) (reading : Reading) : State σ :=
  let y := (yield setup s.decoder reading).2
  let counted := setup.count y.candidates s.tally.countBlock
  { decoder := (yield setup s.decoder reading).1
    log := (s.log.writeAll setup.logFaults (y.entries s.offset)).1
    samples :=
      if y.isMatch then s.samples.map fun file => (file.append .none y.window).1 else s.samples
    tally :=
      if s.samples.isSome && y.isMatch then counted.countCapture y.window.length else counted
    trace :=
      (y.candidates.filterMap setup.remark?).reverse ++ (s.decoded setup reading.block).trace }

/-- A candidate is rejected, held back or logged, and that is what is counted and noted. -/
theorem candidate_of_working (h : setup.Working) (time : Time.Timestamp) (offset length : Nat)
    (s : State σ) (packet : Bytes) :
    s.candidate setup time offset length packet =
      ({ s with
          log := (s.log.writeAll setup.logFaults (entriesOf setup time offset length [packet])).1
          tally := setup.count [packet] s.tally
          trace := (setup.remark? packet).toList ++ s.trace },
        .ok (setup.message? packet).isSome) := by
  cases hread : setup.reader packet with
  | error e =>
      rw [candidate_rejected hread]
      simp [entriesOf, Log.Writer.writeAll, Setup.count, Setup.rejects, Setup.holdsBack,
        Setup.message?, Setup.remark?, hread, Tally.countCandidate, Tally.countRejected,
        Except.isOk, Except.toBool]
  | ok m =>
      cases hpass : setup.filter.accepts m with
      | false =>
          rw [candidate_filtered hread hpass]
          simp [entriesOf, Log.Writer.writeAll, Setup.count, Setup.rejects, Setup.holdsBack,
            Setup.message?, Setup.remark?, hread, hpass, Tally.countCandidate,
            Tally.countFiltered, Except.isOk, Except.toBool]
      | true =>
          have hmessage : setup.message? packet = some m :=
            message?_eq_some_iff.2 ⟨hread, hpass⟩
          have hwrite : (s.log.write (setup.logFaults s.log.sink)
              (.ofMessage time offset length m)).2 = none := by
            rw [h.log]
            exact Log.Writer.write_none _ _
          have hentries : entriesOf setup time offset length [packet] =
              [.ofMessage time offset length m] := by
            simp [entriesOf, hmessage]
          rw [candidate_logged hmessage hwrite, hentries, Log.Writer.writeAll_cons_ok _ hwrite]
          simp [Log.Writer.writeAll, Setup.count, Setup.rejects, Setup.holdsBack, Setup.remark?,
            hmessage, hread, hpass, Tally.countCandidate, Tally.countAccepted, Except.isOk,
            Except.toBool]

/-- The candidates of a block are dealt with one after the other. -/
theorem candidates_of_working (h : setup.Working) (time : Time.Timestamp) (offset length : Nat)
    (packets : List Bytes) :
    ∀ (logged : Nat) (s : State σ),
      s.candidates setup time offset length logged packets =
        ({ s with
            log := (s.log.writeAll setup.logFaults (entriesOf setup time offset length packets)).1
            tally := setup.count packets s.tally
            trace := (packets.filterMap setup.remark?).reverse ++ s.trace },
          .ok (logged + (packets.filterMap setup.message?).length)) := by
  induction packets with
  | nil =>
      intro logged s
      rfl
  | cons packet rest ih =>
      intro logged s
      have hentries : entriesOf setup time offset length (packet :: rest) =
          entriesOf setup time offset length [packet] ++
            entriesOf setup time offset length rest := by
        rw [entriesOf, entriesOf, entriesOf, ← List.map_append, ← List.filterMap_append]
        rfl
      have hall := (Log.Writer.writeAll_append (entriesOf setup time offset length [packet])
        (entriesOf setup time offset length rest) s.log
        (Log.Writer.writeAll_none h.log _ s.log)).1
      have hnoted : ((packet :: rest).filterMap setup.remark?).reverse =
          (rest.filterMap setup.remark?).reverse ++ (setup.remark? packet).toList := by
        cases hremark : setup.remark? packet <;> simp [hremark]
      have hlogged : logged + ((packet :: rest).filterMap setup.message?).length =
          (if (setup.message? packet).isSome then logged + 1 else logged) +
            (rest.filterMap setup.message?).length := by
        cases hmessage : setup.message? packet with
        | none => simp [hmessage]
        | some m =>
            simp only [List.filterMap_cons, hmessage, List.length_cons, Option.isSome_some, if_true]
            omega
      rw [hentries, hall, Setup.count_cons, hnoted, hlogged, candidates, candidate_of_working h]
      simp only [ih, List.append_assoc]

/-- A window is kept if there is a file for it. -/
theorem keep_of_working (h : setup.Working) (s : State σ) (window : Bytes) :
    s.keep setup window =
      ({ s with
          samples := s.samples.map fun file => (file.append .none window).1
          tally := if s.samples.isSome then s.tally.countCapture window.length else s.tally },
        .ok ()) := by
  obtain ⟨decoder, log, samples, tally, trace⟩ := s
  cases samples with
  | none => rfl
  | some file =>
      have happend := file.append_none window
      simp only [keep, h.samples]
      cases hfile : file.append .none window with
      | mk after error =>
          rw [hfile] at happend
          cases happend
          simp [hfile]

/-- In front of working sinks a block does what the ledger tells, and nothing else. -/
theorem process_of_working (h : setup.Working) (s : State σ) (reading : Reading) :
    s.process setup reading.time reading.block =
      (s.advance setup reading, .ok (yield setup s.decoder reading).2.messages.length) := by
  let y := (yield setup s.decoder reading).2
  rw [process_eq, candidates_of_working h, Nat.zero_add]
  change finish setup y.window (_, .ok y.messages.length) = (_, .ok y.messages.length)
  cases hmatch : y.isMatch with
  | false =>
      have hnone := Yield.length_messages_of_not_isMatch hmatch
      rw [finish, if_pos hnone, hnone]
      simp only [advance, y, hmatch, Bool.and_false, Bool.false_eq_true, if_false]
      rfl
  | true =>
      have hsome := Yield.length_messages_of_isMatch hmatch
      rw [finish_of_ne_zero _ _ _ hsome, keep_of_working h]
      simp only [advance, y, hmatch, Bool.and_true, if_true]
      rfl

/-- The capture of a window touches none of the counters for candidates. -/
theorem advance_tally (setup : Setup σ) (s : State σ) (reading : Reading) :
    ∃ writes bytes, (s.advance setup reading).tally =
      { setup.count (yield setup s.decoder reading).2.candidates s.tally.countBlock with
        captureWrites := writes
        captureBytes := bytes } := by
  simp only [advance]
  split
  · exact ⟨_, _, rfl⟩
  · exact ⟨_, _, rfl⟩

end State

/-- In front of working sinks a run ends after a block only for a message that was asked for. -/
theorem turn_of_working (h : setup.Working) (s : State σ) (reading : Reading) :
    turn setup reading.time s reading.block =
      (s.advance setup reading,
        if setup.single && (yield setup s.decoder reading).2.isMatch then some (.ok .singleShot)
        else none) := by
  rw [turn, State.process_of_working h, Yield.isMatch_eq_decide]
  rfl

/-- It never does in a run that is not for a single message. -/
theorem turn_unrestricted (h : setup.Working) (hsingle : setup.single = false) (s : State σ)
    (reading : Reading) :
    turn setup reading.time s reading.block = (s.advance setup reading, none) := by
  rw [turn_of_working h, hsingle]
  rfl

/-- The entries of the blocks that a run has counted. -/
def Outcome.entries (o : Outcome σ) (setup : Setup σ) (decoder : σ) (kept : Bool)
    (readings : List Reading) : List Log.Entry :=
  Capture.entries kept (yields setup decoder (readings.take o.state.tally.blocks))

/-- They are in the log of a run in front of working sinks, whatever ended it. -/
theorem log_of_working (h : setup.Working) (ending : TransportError) (signals : Signals)
    (decoder : σ) (format : Log.Format) (withOffset kept : Bool) (readings : List Reading) :
    let o := run setup ending signals
      (.fresh decoder (.fresh format withOffset .empty) (if kept then some .fresh else none))
      readings
    o.state.log.sink.contents =
      Log.rendered format withOffset (o.entries setup decoder kept readings) := by
  intro o
  have hlaw := (Counted.fresh setup decoder format withOffset kept).ends ending signals readings
  have hread : o.state.tally.blocks = (o.attempts.zip readings).length := by
    have hblocks := hlaw.blocks
    rw [length_yields, List.length_take, Nat.min_eq_left] at hblocks
    · exact hblocks
    · rw [List.length_zip]
      exact Nat.min_le_right _ _
  have hwritten : o.state.log = _ := hlaw.written
  rw [hwritten, ← hread]
  exact Log.Writer.contents_of_fresh h.log format withOffset _

/-! ### Two runs

If a relation between states is preserved by two turns over the same block, and these end both runs
or neither, then it holds all along. Comparisons of runs are cases of this one induction. -/

/-- Two runs have the same result; their states correspond when reads are attempted and at the end.
-/
structure Outcome.Related (R : State σ → State σ → Prop) (o o' : Outcome σ) : Prop where
  result : o.result = o'.result
  state : R o.state o'.state
  attempts : List.Forall₂ R o.attempts o'.attempts

/-- A read at no time in particular. -/
def Reading.untimed (r : Reading) : Reading := { r with time := .epoch }

theorem Reading.untimed_eq_iff {r r' : Reading} :
    r.untimed = r'.untimed ↔ r.block = r'.block ∧ r.arrivals = r'.arrivals := by
  simp [untimed]

/-- A relation that turns over the same block preserve holds all along two runs, if each turn ends
both of them or neither. The times of the reads may differ. -/
theorem run_related {first second : Setup σ} {R : State σ → State σ → Prop}
    (ending : TransportError)
    (hturn : ∀ (s s' : State σ) (r r' : Reading), R s s' → r.block = r'.block →
      (turn first r.time s r.block).2 = (turn second r'.time s' r'.block).2 ∧
        R (turn first r.time s r.block).1 (turn second r'.time s' r'.block).1)
    (readings : List Reading) :
    ∀ (readings' : List Reading) (signals : Signals) (s s' : State σ),
      readings.map Reading.untimed = readings'.map Reading.untimed → R s s' →
        Outcome.Related R (run first ending signals s readings)
          (run second ending signals s' readings') := by
  induction readings with
  | nil =>
      intro readings' signals s s' hsame hs
      obtain rfl : readings' = [] := List.map_eq_nil_iff.1 hsame.symm
      cases hpoll : signals.poll with
      | some reason =>
          rw [run_of_signal hpoll, run_of_signal hpoll]
          exact ⟨rfl, hs, .nil⟩
      | none =>
          rw [run_nil hpoll, run_nil hpoll]
          exact ⟨rfl, hs, .cons hs .nil⟩
  | cons reading rest ih =>
      intro readings' signals s s' hsame hs
      obtain ⟨reading', rest', rfl, hread, hrest⟩ := List.map_eq_cons_iff.1 hsame.symm
      obtain ⟨hblock, harrivals⟩ := Reading.untimed_eq_iff.1 hread.symm
      cases hpoll : signals.poll with
      | some reason =>
          rw [run_of_signal hpoll, run_of_signal hpoll]
          exact ⟨rfl, hs, .nil⟩
      | none =>
          obtain ⟨hend, hnext⟩ := hturn s s' reading reading' hs hblock
          cases hresult : (turn first reading.time s reading.block).2 with
          | some result =>
              rw [run_stop hpoll hresult, run_stop hpoll (hend.symm.trans hresult)]
              exact ⟨rfl, hnext, .cons hs .nil⟩
          | none =>
              have hlater := ih rest' (reading.arrivals.foldl Signals.receive signals) _ _
                hrest.symm hnext
              rw [run_go hpoll hresult, run_go hpoll (hend.symm.trans hresult), ← harrivals]
              exact ⟨hlater.result, hlater.state, .cons hs hlater.attempts⟩

/-! ### What the times of the reads leave alone -/

/-- A yield at no time in particular. -/
def Yield.untimed (y : Yield) : Yield := { y with time := .epoch }

end MeterRadio.Capture

namespace MeterRadio.Log

/-- An entry without its time. -/
def Entry.untimed (e : Entry) : Entry := { e with time := .epoch }

end MeterRadio.Log

namespace MeterRadio.Capture

variable {σ : Type}

theorem yields_untimed (setup : Setup σ) (readings : List Reading) :
    ∀ decoder : σ, (yields setup decoder readings).map Yield.untimed =
      yields setup decoder (readings.map Reading.untimed) := by
  induction readings with
  | nil => intro decoder; rfl
  | cons reading rest ih =>
      intro decoder
      rw [List.map_cons, yields_cons, yields_cons, List.map_cons, ih]
      rfl

theorem Yield.entries_untimed (y : Yield) (offset : Nat) :
    (y.entries offset).map Log.Entry.untimed = y.untimed.entries offset := by
  rw [entries, entries, List.map_map]
  rfl

theorem entriesFrom_untimed (kept : Bool) (ys : List Yield) :
    ∀ offset, (entriesFrom kept offset ys).map Log.Entry.untimed =
      entriesFrom kept offset (ys.map Yield.untimed) := by
  induction ys with
  | nil => intro offset; rfl
  | cons y rest ih =>
      intro offset
      rw [List.map_cons, entriesFrom, entriesFrom, List.map_append, ih, Yield.entries_untimed]
      rfl

/-- Blocks that are read at other times come to the same entries, up to the times in them. -/
theorem entries_untimed (setup : Setup σ) (decoder : σ) (kept : Bool)
    {readings readings' : List Reading}
    (hsame : readings.map Reading.untimed = readings'.map Reading.untimed) (count : Nat) :
    (entries kept (yields setup decoder (readings.take count))).map Log.Entry.untimed =
      (entries kept (yields setup decoder (readings'.take count))).map Log.Entry.untimed := by
  rw [entries, entries, entriesFrom_untimed, entriesFrom_untimed, yields_untimed, yields_untimed,
    List.map_take, List.map_take, hsame]

end MeterRadio.Capture
