/-
Module: MeterRadio.Proofs.FilteredRuns
Purpose: To filter a run is to filter its log. The filter decides about one message after the other
  and touches neither the decoder nor the course of a run.
Main exports: MeterFilter.Excludes, Capture.yields_filtered, Capture.entries_filtered,
  Capture.FilterLaw, Capture.filtered_run_has_filtered_log
-/
import MeterRadio.Proofs.ReadBoundary
import MeterRadio.Proofs.WorkingRuns

namespace MeterRadio

/-- Whether a message is left out: meters are listed and its meter is not among them, or types are
and its type is not. -/
def MeterFilter.Excludes (f : MeterFilter) (m : Message) : Prop :=
  (f.includedIds ≠ [] ∧ m.meterId ∉ f.includedIds) ∨
    (f.includedTypes ≠ [] ∧ m.meterType ∉ f.includedTypes)

instance (f : MeterFilter) (m : Message) : Decidable (f.Excludes m) :=
  inferInstanceAs (Decidable (_ ∨ _))

namespace Capture

variable {σ : Type}

theorem accepts_iff_not_excludes (f : MeterFilter) (m : Message) :
    f.accepts m = true ↔ ¬ f.Excludes m := by
  rw [accepts_iff, MeterFilter.Excludes, not_or, not_and_or, not_and_or, not_not, not_not,
    not_not, not_not]

/-! ### The ledger

A filter decides about each message by itself, so to filter the yields of a run is to filter their
messages. Only the places in the entries could show it, and without a sample file these are 0. -/

/-- The same run without a filter. -/
def Setup.unfiltered (setup : Setup σ) : Setup σ := { setup with filter := ⟨[], []⟩ }

theorem Setup.message?_unfiltered (setup : Setup σ) (packet : Bytes) :
    setup.unfiltered.message? packet =
      match setup.reader packet with
      | .ok m => some m
      | .error _ => none := rfl

theorem Setup.message?_eq_filter (setup : Setup σ) (packet : Bytes) :
    setup.message? packet = (setup.unfiltered.message? packet).filter setup.filter.accepts := by
  rw [message?_unfiltered, message?]
  cases setup.reader packet with
  | error e => rfl
  | ok m => rfl

theorem messages_filtered (setup : Setup σ) (packets : List Bytes) :
    packets.filterMap setup.message? =
      (packets.filterMap setup.unfiltered.message?).filter setup.filter.accepts := by
  rw [List.filter_filterMap]
  exact congrArg (List.filterMap · packets) (funext setup.message?_eq_filter)

/-- What the filter leaves of a yield. -/
def Yield.sifted (f : MeterFilter) (y : Yield) : Yield :=
  { y with messages := y.messages.filter f.accepts }

theorem yield_filtered (setup : Setup σ) (decoder : σ) (reading : Reading) :
    yield setup decoder reading =
      ((yield setup.unfiltered decoder reading).1,
        (yield setup.unfiltered decoder reading).2.sifted setup.filter) := by
  simp only [yield, messages_filtered setup]
  rfl

/-- Decoder and reader do not see the filter, so only messages go from the yields. -/
theorem yields_filtered (setup : Setup σ) (readings : List Reading) :
    ∀ decoder : σ, yields setup decoder readings =
      (yields setup.unfiltered decoder readings).map (Yield.sifted setup.filter) := by
  induction readings with
  | nil => intro decoder; rfl
  | cons reading rest ih =>
      intro decoder
      rw [yields_cons, yields_cons, List.map_cons, ih, yield_filtered]

theorem Yield.entries_sifted (f : MeterFilter) (y : Yield) (offset : Nat) :
    (y.sifted f).entries offset = (y.entries offset).filter fun e => ¬ f.Excludes e.message := by
  have haccepts : f.accepts = fun m => decide (¬ f.Excludes m) :=
    funext fun m => Bool.eq_iff_iff.2 ((accepts_iff_not_excludes f m).trans decide_eq_true_iff.symm)
  rw [entries, entries, List.filter_map, Yield.sifted, haccepts]
  rfl

theorem entriesFrom_sifted (f : MeterFilter) (ys : List Yield) :
    ∀ offset, entriesFrom false offset (ys.map (Yield.sifted f)) =
      (entriesFrom false offset ys).filter fun e => ¬ f.Excludes e.message := by
  induction ys with
  | nil => intro offset; rfl
  | cons y rest ih =>
      intro offset
      rw [List.map_cons, entriesFrom, entriesFrom, List.filter_append, Yield.entries_sifted, ← ih]
      rfl

/-- Without a sample file the entries of a filtered run are those of the unfiltered one that the
filter does not exclude. -/
theorem entries_filtered (setup : Setup σ) (decoder : σ) (readings : List Reading) :
    entries false (yields setup decoder readings) =
      (entries false (yields setup.unfiltered decoder readings)).filter
        fun e => ¬ setup.filter.Excludes e.message := by
  rw [yields_filtered, entries, entries, entriesFrom_sifted]

/-! ### The counters -/

/-- What is logged and what is held back are all messages there are. -/
theorem count_filtered (setup : Setup σ) (packets : List Bytes) :
    (packets.filterMap setup.message?).length + packets.countP setup.holdsBack =
      (packets.filterMap setup.unfiltered.message?).length := by
  induction packets with
  | nil => rfl
  | cons packet rest ih =>
      have hmessage := setup.message?_eq_filter packet
      cases hread : setup.reader packet with
      | error e =>
          have hall : setup.unfiltered.message? packet = none := by
            rw [setup.message?_unfiltered, hread]
          rw [hall, Option.filter_none] at hmessage
          simp [hmessage, hall, Setup.holdsBack, hread, ih]
      | ok m =>
          have hall : setup.unfiltered.message? packet = some m := by
            rw [setup.message?_unfiltered, hread]
          rw [hall, Option.filter_some] at hmessage
          cases hpass : setup.filter.accepts m with
          | false =>
              rw [hpass, if_neg Bool.false_ne_true] at hmessage
              simp only [List.filterMap_cons, hmessage, hall, List.countP_cons, Setup.holdsBack,
                hread, hpass, List.length_cons, ← ih]
              rfl
          | true =>
              rw [hpass, if_pos rfl] at hmessage
              simp only [List.filterMap_cons, hmessage, hall, List.countP_cons, Setup.holdsBack,
                hread, hpass, List.length_cons, ← ih]
              exact Nat.add_right_comm _ 1 _

/-- The first state is that of a filtered run and the second one that of the unfiltered run. -/
structure Sifts (s s' : State σ) : Prop where
  decoder : s.decoder = s'.decoder
  blocks : s.tally.blocks = s'.tally.blocks
  candidates : s.tally.candidates = s'.tally.candidates
  rejected : s.tally.rejected = s'.tally.rejected
  accepted : s.tally.accepted + s.tally.filtered = s'.tally.accepted

theorem Sifts.advance {setup : Setup σ} {s s' : State σ} (h : Sifts s s') {r r' : Reading}
    (hblock : r.block = r'.block) :
    Sifts (s.advance setup r) (s'.advance setup.unfiltered r') := by
  obtain ⟨_, _, htally⟩ := s.advance_tally setup r
  obtain ⟨_, _, htally'⟩ := s'.advance_tally setup.unfiltered r'
  have hcandidates : (yield setup s.decoder r).2.candidates =
      (yield setup.unfiltered s'.decoder r').2.candidates := by
    rw [← h.decoder]
    simp only [yield, hblock]
    rfl
  have hmessages := count_filtered setup (yield setup s.decoder r).2.candidates
  have haccepted := h.accepted
  refine ⟨?decoder, ?blocks, ?candidates, ?rejected, ?accepted⟩
  case decoder =>
    simp only [State.advance, yield, ← h.decoder, hblock]
    rfl
  all_goals
    rw [htally, htally', ← hcandidates]
    simp only [Setup.count, Tally.countBlock]
  case blocks => rw [h.blocks]
  case candidates => rw [h.candidates]
  case rejected =>
    rw [h.rejected]
    rfl
  case accepted => omega

/-! ### Runs

Both runs are followed at the same time. `Sifts` relates their states after the same blocks, and
every block preserves it. -/

/-- What a filtered run `part` has in common with the run `whole` without the filter: its log has
the entries of the other one that the filter does not exclude, up to their times, and what the
filter held back would have been logged. -/
structure FilterLaw (setup : Setup σ) (decoder : σ) (format : Log.Format) (withOffset : Bool)
    (readings readings' : List Reading) (part whole : Outcome σ) : Prop where
  result : part.result = whole.result
  reads : part.attempts.length = whole.attempts.length
  log : part.state.log.sink.contents =
    Log.rendered format withOffset (part.entries setup decoder false readings)
  wholeLog : whole.state.log.sink.contents =
    Log.rendered format withOffset (whole.entries setup.unfiltered decoder false readings')
  entries : (part.entries setup decoder false readings).map Log.Entry.untimed =
    ((whole.entries setup.unfiltered decoder false readings').filter
      fun e => ¬ setup.filter.Excludes e.message).map Log.Entry.untimed
  blocks : part.state.tally.blocks = whole.state.tally.blocks
  candidates : part.state.tally.candidates = whole.state.tally.candidates
  rejected : part.state.tally.rejected = whole.state.tally.rejected
  accepted : part.state.tally.accepted + part.state.tally.filtered = whole.state.tally.accepted

/-- To filter a run in front of working sinks that keeps no samples is to filter its log. Signals
may reach the two runs, the same ones at the same reads, and the reads bring the same blocks at any
times. -/
theorem filtered_run_has_filtered_log {setup : Setup σ} (h : setup.Working)
    (hsingle : setup.single = false) (ending : TransportError) (signals : Signals)
    {readings readings' : List Reading}
    (hsame : readings.map Reading.untimed = readings'.map Reading.untimed)
    (decoder : σ) (format : Log.Format) (withOffset : Bool) :
    let start := State.fresh decoder (.fresh format withOffset .empty) none
    FilterLaw setup decoder format withOffset readings readings'
      (run setup ending signals start readings)
      (run setup.unfiltered ending signals start readings') := by
  intro start
  have hunfiltered : setup.unfiltered.Working := ⟨h.log, h.samples⟩
  have hrelated : Outcome.Related Sifts (run setup ending signals start readings)
      (run setup.unfiltered ending signals start readings') := by
    apply run_related ending _ readings readings' signals start start hsame
    · exact ⟨rfl, rfl, rfl, rfl, rfl⟩
    · intro s s' r r' hs hblock
      rw [turn_unrestricted h hsingle, turn_unrestricted hunfiltered hsingle]
      exact ⟨rfl, hs.advance hblock⟩
  refine
    { result := hrelated.result
      reads := hrelated.attempts.length_eq
      log := log_of_working h ending signals decoder format withOffset false readings
      wholeLog := log_of_working hunfiltered ending signals decoder format withOffset false
        readings'
      entries := ?entries
      blocks := hrelated.state.blocks
      candidates := hrelated.state.candidates
      rejected := hrelated.state.rejected
      accepted := hrelated.state.accepted }
  rw [Outcome.entries, entries_untimed setup decoder false hsame, entries_filtered,
    hrelated.state.blocks, Outcome.entries]

/-- A filter with a meter listed twice, over blocks of listed and unlisted meters and types, of
which one cannot be read. -/
theorem relay_filtered :
    let setup := { relaySetup with filter := ⟨[6, 5, 6], [7]⟩ }
    let blocks : List Bytes := [[5, 7], [0, 7], [6, 8], [6, 7], [9, 7]]
    let readings := blocks.map relayReading
    let later := blocks.map fun block => { relayReading block with time := ⟨1, 0⟩ }
    let start := State.fresh ([], []) (.fresh .plain false .empty) none
    readings ≠ later ∧
      (entries false (yields setup ([], []) readings)).length = 4 ∧
      (entries false (yields setup.unfiltered ([], []) later)).length = 8 ∧
      FilterLaw setup ([], []) .plain false readings later
        (run setup .endOfStream .quiet start readings)
        (run setup.unfiltered .endOfStream .quiet start later) := by
  intro setup blocks readings later start
  have hworking : setup.Working := ⟨fun _ => rfl, fun _ => rfl⟩
  have hsame : readings.map Reading.untimed = later.map Reading.untimed := by
    decide
  exact ⟨by decide, by decide, by decide,
    filtered_run_has_filtered_log hworking rfl .endOfStream .quiet hsame ([], []) .plain false⟩

end Capture
end MeterRadio
