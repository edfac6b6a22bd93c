/-
Module: MeterRadio.Proofs.OutputChoices
Purpose: What a run receives does not depend on what is done with it. Runs that differ in the form
  of their log and in whether samples are kept read the same blocks and log the same messages.
Main exports: Capture.Outputs, Capture.Received, Capture.ReceptionLaw, Capture.reception_of_outputs
-/
import MeterRadio.Proofs.WorkingRuns

namespace MeterRadio

/-- What was received: a message, and the length of the samples that it was found in. -/
def Log.Entry.received (e : Entry) : Message × Nat := (e.message, e.length)

namespace Capture

variable {σ : Type} {setup : Setup σ}

/-- What is chosen for the output of a run: the form of its log, and whether samples are kept. -/
structure Outputs where
  format : Log.Format
  withOffset : Bool
  kept : Bool
deriving Repr, DecidableEq

/-- The first state of a run with these outputs. -/
def Outputs.start (choice : Outputs) (decoder : σ) : State σ :=
  .fresh decoder (.fresh choice.format choice.withOffset .empty)
    (if choice.kept then some .fresh else none)

/-! ### The ledger -/

/-- What was received in a block. -/
def Yield.received (y : Yield) : List (Message × Nat) :=
  y.messages.map fun m => (m, y.window.length)

theorem entriesFrom_received (kept : Bool) (ys : List Yield) :
    ∀ offset, (entriesFrom kept offset ys).map Log.Entry.received = ys.flatMap Yield.received := by
  induction ys with
  | nil => intro offset; rfl
  | cons y rest ih =>
      intro offset
      rw [entriesFrom, List.map_append, ih, List.flatMap_cons, Yield.entries, List.map_map]
      rfl

/-- Whoever keeps samples, the same messages are logged. -/
theorem entries_received (kept : Bool) (ys : List Yield) :
    (entries kept ys).map Log.Entry.received = ys.flatMap Yield.received :=
  entriesFrom_received kept ys 0

/-- Nor do the times of the reads matter. -/
theorem received_untimed (setup : Setup σ) (decoder : σ) {readings readings' : List Reading}
    (hsame : readings.map Reading.untimed = readings'.map Reading.untimed) (count : Nat) :
    (yields setup decoder (readings.take count)).flatMap Yield.received =
      (yields setup decoder (readings'.take count)).flatMap Yield.received := by
  have huntimed : ∀ ys : List Yield,
      ys.flatMap Yield.received = (ys.map Yield.untimed).flatMap Yield.received := by
    intro ys
    rw [List.flatMap_map]
    rfl
  rw [huntimed (yields setup decoder (readings.take count)),
    huntimed (yields setup decoder (readings'.take count)), yields_untimed, yields_untimed,
    List.map_take, List.map_take, hsame]

/-- Where no samples are kept, every entry is placed at the start. -/
theorem offset_of_unkept (ys : List Yield) : ∀ e ∈ entries false ys, e.offset = 0 := by
  have hfrom : ∀ ys : List Yield, ∀ e ∈ entriesFrom false 0 ys, e.offset = 0 := by
    intro ys
    induction ys with
    | nil => nofun
    | cons y rest ih =>
        rw [entriesFrom, List.forall_mem_append]
        refine ⟨fun e he => ?_, ih⟩
        obtain ⟨m, -, rfl⟩ := List.mem_map.1 he
        rfl
  exact hfrom ys

/-! ### Blocks

The two runs are compared block by block. Decoder, trace and the counters of candidates are the same
in both; what was captured, and so the places of the windows, may differ. -/

/-- The states of two runs that have received the same. -/
structure Received (s s' : State σ) : Prop where
  decoder : s.decoder = s'.decoder
  blocks : s.tally.blocks = s'.tally.blocks
  candidates : s.tally.candidates = s'.tally.candidates
  rejected : s.tally.rejected = s'.tally.rejected
  filtered : s.tally.filtered = s'.tally.filtered
  accepted : s.tally.accepted = s'.tally.accepted
  trace : s.trace = s'.trace

/-- They have received the same after one more block. -/
theorem Received.advance {s s' : State σ} (h : Received s s') {r r' : Reading}
    (hblock : r.block = r'.block) : Received (s.advance setup r) (s'.advance setup r') := by
  obtain ⟨_, _, htally⟩ := s.advance_tally setup r
  obtain ⟨_, _, htally'⟩ := s'.advance_tally setup r'
  have hcandidates : (yield setup s.decoder r).2.candidates =
      (yield setup s'.decoder r').2.candidates := by
    simp only [yield, h.decoder, hblock]
  refine ⟨?decoder, ?blocks, ?candidates, ?rejected, ?filtered, ?accepted, ?trace⟩
  case decoder => simp only [State.advance, yield, h.decoder, hblock]
  case trace => simp only [State.advance, State.decoded, yield, h.decoder, hblock, h.trace]
  all_goals
    rw [htally, htally', hcandidates]
    simp only [Setup.count, Tally.countBlock]
  case blocks => rw [h.blocks]
  case candidates => rw [h.candidates]
  case rejected => rw [h.rejected]
  case filtered => rw [h.filtered]
  case accepted => rw [h.accepted]

/-- The same block ends both runs or neither of them. -/
theorem Received.turn (hworking : setup.Working) {s s' : State σ} (h : Received s s')
    {r r' : Reading} (hblock : r.block = r'.block) :
    (turn setup r.time s r.block).2 = (turn setup r'.time s' r'.block).2 ∧
      Received (turn setup r.time s r.block).1 (turn setup r'.time s' r'.block).1 := by
  have hmatch : (yield setup s.decoder r).2.isMatch = (yield setup s'.decoder r').2.isMatch := by
    simp only [yield, Yield.isMatch, h.decoder, hblock]
  rw [turn_of_working hworking, turn_of_working hworking, hmatch]
  exact ⟨rfl, h.advance hblock⟩

/-! ### Runs -/

/-- Two runs with outputs of their own receive the same: they attempt the same reads and end in the
same way, their counters are equal but for those of the samples, and they log the same messages,
without a place if they keep no samples. -/
structure ReceptionLaw (setup : Setup σ) (decoder : σ) (choice choice' : Outputs)
    (readings readings' : List Reading) (o o' : Outcome σ) : Prop where
  result : o.result = o'.result
  reads : o.attempts.length = o'.attempts.length
  received : Received o.state o'.state
  log : o.state.log.sink.contents =
    Log.rendered choice.format choice.withOffset (o.entries setup decoder choice.kept readings)
  log' : o'.state.log.sink.contents =
    Log.rendered choice'.format choice'.withOffset (o'.entries setup decoder choice'.kept readings')
  logged : (o.entries setup decoder choice.kept readings).map Log.Entry.received =
    (o'.entries setup decoder choice'.kept readings').map Log.Entry.received
  unplaced : choice.kept = false → ∀ e ∈ o.entries setup decoder choice.kept readings, e.offset = 0

/-- What runs in front of working sinks receive does not depend on the form of their logs and on
whether they keep samples. The same signals reach both at the same reads, and the reads bring the
same blocks at any times. -/
theorem reception_of_outputs (h : setup.Working) (ending : TransportError) (signals : Signals)
    (decoder : σ) (choice choice' : Outputs) {readings readings' : List Reading}
    (hsame : readings.map Reading.untimed = readings'.map Reading.untimed) :
    ReceptionLaw setup decoder choice choice' readings readings'
      (run setup ending signals (choice.start decoder) readings)
      (run setup ending signals (choice'.start decoder) readings') := by
  have hrelated : Outcome.Related Received
      (run setup ending signals (choice.start decoder) readings)
      (run setup ending signals (choice'.start decoder) readings') :=
    run_related ending (fun _ _ _ _ hs hblock => hs.turn h hblock) readings readings' signals _ _
      hsame ⟨rfl, rfl, rfl, rfl, rfl, rfl, rfl⟩
  refine
    { result := hrelated.result
      reads := hrelated.attempts.length_eq
      received := hrelated.state
      log := log_of_working h ending signals decoder choice.format choice.withOffset choice.kept
        readings
      log' := log_of_working h ending signals decoder choice'.format choice'.withOffset choice'.kept
        readings'
      logged := ?logged
      unplaced := ?unplaced }
  case logged =>
    rw [Outcome.entries, Outcome.entries, entries_received, entries_received,
      received_untimed setup decoder hsame, hrelated.state.blocks]
  case unplaced =>
    intro hkept
    rw [Outcome.entries, hkept]
    exact offset_of_unkept _

/-- A run with a JSON log and samples, and one with a plain log and no samples. An interrupt ends
both after the third of their reads. -/
theorem relay_reception :
    let blocks : List Bytes := [[5, 7], [0, 7], [6, 7], [6, 7]]
    let interrupted : Nat → List Arrival := fun k => if k = 2 then [.interrupt] else []
    let readings := blocks.zipIdx.map fun (block, k) => ⟨block, .epoch, interrupted k⟩
    let later := blocks.zipIdx.map fun (block, k) => ⟨block, ⟨k, 0⟩, interrupted k⟩
    let choice : Outputs := ⟨.json, true, true⟩
    let choice' : Outputs := ⟨.plain, false, false⟩
    readings ≠ later ∧
      ReceptionLaw relaySetup ([], []) choice choice' readings later
        (run relaySetup .endOfStream .quiet (choice.start ([], [])) readings)
        (run relaySetup .endOfStream .quiet (choice'.start ([], [])) later) := by
  intro blocks interrupted readings later choice choice'
  have hworking : relaySetup.Working := ⟨fun _ => rfl, fun _ => rfl⟩
  have hsame : readings.map Reading.untimed = later.map Reading.untimed := by
    decide
  exact ⟨by decide,
    reception_of_outputs hworking .endOfStream .quiet ([], []) choice choice' hsame⟩

end Capture
end MeterRadio
