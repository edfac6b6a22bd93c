/-
Module: MeterRadio.Proofs.SingleShot
Purpose: A run for a single message is the unrestricted run, cut after the first block that has a
  message. Without such a block the two are one run.
Main exports: Capture.State.Alike, Capture.Cut, Capture.run_single, Capture.StopsAfter,
  Capture.single_shot_cuts
-/
import MeterRadio.Proofs.WorkingRuns

namespace MeterRadio.Capture

variable {σ : Type} {setup : Setup σ} {ending : TransportError} {signals : Signals} {s s' : State σ}

/-! ### One block -/

/-- The states have everything in common but their logs. -/
structure State.Alike (s s' : State σ) : Prop where
  decoder : s.decoder = s'.decoder
  samples : s.samples = s'.samples
  tally : s.tally = s'.tally
  trace : s.trace = s'.trace

/-- The time at which a block is read goes nowhere but into the log. -/
theorem State.advance_alike (setup : Setup σ) (s : State σ) {r r' : Reading}
    (h : r.block = r'.block) : (s.advance setup r).Alike (s.advance setup r') := by
  obtain ⟨block, time, arrivals⟩ := r
  obtain ⟨block', time', arrivals'⟩ := r'
  obtain rfl : block = block' := h
  exact ⟨rfl, rfl, rfl, rfl⟩

/-- A block without a message writes nothing, so its time goes nowhere at all. -/
theorem State.advance_of_not_isMatch {r r' : Reading}
    (hmatch : (yield setup s.decoder r).2.isMatch = false) (h : r.block = r'.block) :
    s.advance setup r = s.advance setup r' := by
  obtain ⟨block, time, arrivals⟩ := r
  obtain ⟨block', time', arrivals'⟩ := r'
  obtain rfl : block = block' := h
  have hnone : (yield setup s.decoder ⟨block, time, arrivals⟩).2.messages = [] :=
    List.length_eq_zero_iff.1 (Yield.length_messages_of_not_isMatch hmatch)
  have hnone' : (yield setup s.decoder ⟨block, time', arrivals'⟩).2.messages = [] := hnone
  simp only [State.advance, Yield.entries, hnone, hnone', List.map_nil]
  rfl

/-! ### Two runs

The run for a single message starts like the unrestricted one. Up to the first block with a message
their turns are the same, and after that block only one of them goes on. -/

theorem yields_single (setup : Setup σ) (single : Bool) (readings : List Reading) :
    ∀ decoder : σ,
      yields { setup with single := single } decoder readings = yields setup decoder readings := by
  induction readings with
  | nil => intro decoder; rfl
  | cons reading rest ih =>
      intro decoder
      rw [yields_cons, yields_cons, ih]
      rfl

theorem poll_of_unsignalled {readings : List Reading} (hquiet : Unsignalled signals readings)
    (hlast : (received signals readings).poll = none) : signals.poll = none := by
  cases readings with
  | nil => exact hlast
  | cons reading rest => exact hquiet.1

/-- Without a signal the first read is attempted in the first state. -/
theorem attempts_zero (h : signals.poll = none) (readings : List Reading) :
    (run setup ending signals s readings).attempts[0]? = some s := by
  cases readings with
  | nil =>
      rw [run_nil h]
      rfl
  | cons reading rest =>
      cases hturn : (turn setup reading.time s reading.block).2 with
      | some result =>
          rw [run_stop h hturn]
          rfl
      | none =>
          rw [run_go h hturn]
          rfl

theorem Setup.Working.withSingle (h : setup.Working) (single : Bool) :
    { setup with single := single }.Working := ⟨h.log, h.samples⟩

/-- A block ends the run for a single message if it has one. -/
theorem turn_single (h : setup.Working) (s : State σ) (reading : Reading) :
    turn { setup with single := true } reading.time s reading.block =
      (s.advance setup reading,
        if (yield setup s.decoder reading).2.isMatch then some (.ok .singleShot) else none) :=
  turn_of_working (h.withSingle true) s reading

/-- The second run is the first one as far as it goes: it is the same, or it ends for a single
message just after a block, in a state that is alike to the one in which the first run attempts the
next read. -/
inductive Cut (all : Outcome σ) : Option Nat → Outcome σ → Prop
  | whole : Cut all none all
  | after {m : Nat} {one : Outcome σ} (now : State σ) (result : one.result = .ok .singleShot)
      (reads : one.attempts.length = m + 1) (reached : all.attempts[m + 1]? = some now)
      (alike : one.state.Alike now) : Cut all (some m) one

theorem Cut.eq_of_none {all one : Outcome σ} (h : Cut all none one) : one = all := by
  cases h with
  | whole => rfl

theorem Cut.afterAttempt {all one : Outcome σ} {m : Option Nat} (h : Cut all m one)
    (s : State σ) : Cut (all.after s) (m.map (· + 1)) (one.after s) := by
  cases h with
  | whole => exact .whole
  | after now result reads reached alike =>
      exact .after now result (congrArg Nat.succ reads) reached alike

/-- Up to the first block with a message both runs are in the same state. That block ends one of
them. -/
theorem run_single (h : setup.Working) (hsingle : setup.single = false) (ending : TransportError)
    (readings : List Reading) :
    ∀ (readings' : List Reading) (signals : Signals) (s : State σ),
      readings.map Reading.untimed = readings'.map Reading.untimed →
      Unsignalled signals readings → (received signals readings).poll = none →
        Cut (run setup ending signals s readings')
          ((yields setup s.decoder readings).findIdx? Yield.isMatch)
          (run { setup with single := true } ending signals s readings) := by
  induction readings with
  | nil =>
      intro readings' signals s hsame _ hlast
      obtain rfl : readings' = [] := List.map_eq_nil_iff.1 hsame.symm
      have hpoll : signals.poll = none := hlast
      rw [run_nil hpoll, run_nil hpoll]
      exact .whole
  | cons reading rest ih =>
      intro readings' signals s hsame hquiet hlast
      obtain ⟨reading', rest', rfl, hread, hrest⟩ := List.map_eq_cons_iff.1 hsame.symm
      obtain ⟨hblock, harrivals⟩ := Reading.untimed_eq_iff.1 hread.symm
      obtain ⟨hpoll, hquiet⟩ := hquiet
      rw [received_cons] at hlast
      have hall := turn_unrestricted h hsingle s reading'
      have hone := turn_single h s reading
      rw [yields_cons, List.findIdx?_cons, run_go hpoll (congrArg Prod.snd hall), hall, ← harrivals]
      cases hmatch : (yield setup s.decoder reading).2.isMatch with
      | true =>
          rw [hmatch, if_pos rfl] at hone
          rw [run_stop hpoll (congrArg Prod.snd hone), hone, if_pos rfl]
          refine .after (s.advance setup reading') rfl rfl ?_ (s.advance_alike setup hblock)
          exact attempts_zero (poll_of_unsignalled hquiet hlast) rest'
      | false =>
          rw [hmatch, if_neg Bool.false_ne_true] at hone
          rw [run_go hpoll (congrArg Prod.snd hone), hone, if_neg Bool.false_ne_true,
            ← State.advance_of_not_isMatch hmatch hblock]
          exact (ih rest' _ (s.advance setup reading) hrest.symm hquiet hlast).afterAttempt s

/-! ### The first block with a message -/

/-- The times of the reads do not tell which block it is. -/
theorem findIdx?_untimed (setup : Setup σ) (decoder : σ) {readings readings' : List Reading}
    (hsame : readings.map Reading.untimed = readings'.map Reading.untimed) :
    (yields setup decoder readings).findIdx? Yield.isMatch =
      (yields setup decoder readings').findIdx? Yield.isMatch := by
  have huntimed : ∀ ys : List Yield,
      ys.findIdx? Yield.isMatch = (ys.map Yield.untimed).findIdx? Yield.isMatch := by
    intro ys
    rw [List.findIdx?_map]
    rfl
  rw [huntimed (yields setup decoder readings), huntimed (yields setup decoder readings'),
    yields_untimed, yields_untimed, hsame]

/-- Up to it there are no messages. -/
theorem messages_before_match {ys : List Yield} {m : Nat}
    (hm : ys.findIdx? Yield.isMatch = some m) (k : Nat) :
    ((ys.take k).flatMap Yield.messages).length = 0 ↔ k ≤ m := by
  obtain ⟨hlt, hmatch, hbefore⟩ := List.findIdx?_eq_some_iff_getElem.1 hm
  rw [List.length_eq_zero_iff, List.flatMap_eq_nil_iff]
  constructor
  · intro hnone
    refine Nat.le_of_not_lt fun hk => ?_
    have hmem : ys[m] ∈ ys.take k :=
      List.mem_take_iff_getElem.2 ⟨m, Nat.lt_min.2 ⟨hk, hlt⟩, rfl⟩
    exact Yield.length_messages_of_isMatch hmatch (List.length_eq_zero_iff.2 (hnone _ hmem))
  · intro hk y hy
    obtain ⟨j, hj, rfl⟩ := List.mem_take_iff_getElem.1 hy
    have hjm : j < m := Nat.lt_of_lt_of_le (Nat.lt_min.1 hj).1 hk
    exact List.length_eq_zero_iff.1
      (Yield.length_messages_of_not_isMatch (eq_false_of_ne_true (hbefore j hjm)))

/-- Whenever a run attempts a read, it has accepted the messages of the blocks before. -/
theorem attempts_accepted (h : setup.Working) (readings : List Reading) (signals : Signals)
    (s : State σ) {k : Nat} {now : State σ}
    (hnow : (run setup ending signals s readings).attempts[k]? = some now) :
    now.tally.accepted =
      s.tally.accepted + ((yields setup s.decoder (readings.take k)).flatMap
        Yield.messages).length := by
  refine attempts_induction (P := fun told now =>
    now.tally.accepted = s.tally.accepted + (told.flatMap Yield.messages).length) ?_ readings
    signals s [] rfl k now hnow
  intro told before reading logged hbefore _
  obtain ⟨_, _, htally⟩ := before.advance_tally setup reading
  rw [State.process_of_working h, htally, List.flatMap_append, List.length_append,
    ← Nat.add_assoc, ← hbefore, List.flatMap_singleton]
  rfl

/-! ### What a run for a single message leaves behind -/

/-- Block `m` is the first one in which the run `all` accepts a message, and the run `one` has ended
for a single message after the read of that block, with the entries `es` in its log. All else is as
in the run `all` when it went on from that block, with the entries `es'` in its log; and these are
the same entries at other times. -/
structure StopsAfter (format : Log.Format) (withOffset : Bool) (m : Nat)
    (es es' : List Log.Entry) (one all : Outcome σ) : Prop where
  first : ∀ k now, all.attempts[k]? = some now → (now.tally.accepted = 0 ↔ k ≤ m)
  result : one.result = .ok .singleShot
  reads : one.attempts.length = m + 1
  log : one.state.log.sink.contents = Log.rendered format withOffset es
  reached : ∃ now, all.attempts[m + 1]? = some now ∧ one.state.Alike now ∧
    now.log.sink.contents = Log.rendered format withOffset es'
  entries : es.map Log.Entry.untimed = es'.map Log.Entry.untimed

/-- A run for a single message in front of working sinks, that no signal reaches, does what the
unrestricted run does up to the end of the first block with a message to be logged, and there it
ends; all messages of that block are logged. If there is no such block, it is the unrestricted run.
The reads of the two runs bring the same blocks at any times. -/
theorem single_shot_cuts (h : setup.Working) (hsingle : setup.single = false)
    (ending : TransportError) {signals : Signals} {readings readings' : List Reading}
    (hsame : readings.map Reading.untimed = readings'.map Reading.untimed)
    (hquiet : Unsignalled signals readings) (hlast : (received signals readings).poll = none)
    (decoder : σ) (format : Log.Format) (withOffset kept : Bool) :
    let start := State.fresh decoder (.fresh format withOffset .empty)
      (if kept then some .fresh else none)
    let one := run { setup with single := true } ending signals start readings
    let all := run setup ending signals start readings'
    let first := (yields setup decoder readings').findIdx? Yield.isMatch
    (∀ m, first = some m → StopsAfter format withOffset m
        (entries kept (yields setup decoder (readings.take (m + 1))))
        (entries kept (yields setup decoder (readings'.take (m + 1)))) one all) ∧
      (first = none → one = all) := by
  intro start one all first
  have hcut : Cut all first one := by
    have hrun := run_single h hsingle ending readings readings' signals start hsame hquiet hlast
    rw [findIdx?_untimed setup start.decoder hsame] at hrun
    exact hrun
  have hstart : Balanced format withOffset kept [] start :=
    Balanced.fresh decoder format withOffset kept
  constructor
  · intro m hm
    have hfirst : ∀ k now, all.attempts[k]? = some now → (now.tally.accepted = 0 ↔ k ≤ m) := by
      intro k now hnow
      have hzero : start.tally.accepted = 0 := rfl
      rw [attempts_accepted h readings' signals start hnow, hzero, Nat.zero_add, ← take_yields]
      exact messages_before_match hm k
    rw [hm] at hcut
    cases hcut with
    | after now hresult hreads hreached halike =>
        obtain ⟨n, -, -, hattempts, hend⟩ :=
          run_balanced readings signals start [] .singleShot hstart hresult
        obtain rfl : m + 1 = n := hreads.symm.trans hattempts
        have hnow := attempts_balanced readings' signals start [] hstart (m + 1) now hreached
        have hlog := hend.log
        rw [yields_single] at hlog
        exact ⟨hfirst, hresult, hreads, hlog, ⟨now, hreached, halike, hnow.log⟩,
          entries_untimed setup decoder kept hsame (m + 1)⟩
  · intro hnone
    rw [hnone] at hcut
    exact hcut.eq_of_none

/-- Blocks of which the third is the first with a message of type 7, and the same blocks a second
later. -/
theorem relay_single_shot :
    let blocks : List Bytes := [[0, 7], [6, 8], [5, 7], [6, 7]]
    let readings := blocks.map relayReading
    let later := blocks.map fun block => { relayReading block with time := ⟨1, 0⟩ }
    let start := State.fresh ([], []) (.fresh .json true .empty) (some .fresh)
    readings ≠ later ∧ (yields relaySetup ([], []) later).findIdx? Yield.isMatch = some 2 ∧
      StopsAfter .json true 2 (entries true (yields relaySetup ([], []) (readings.take 3)))
        (entries true (yields relaySetup ([], []) (later.take 3)))
        (run { relaySetup with single := true } .endOfStream .quiet start readings)
        (run relaySetup .endOfStream .quiet start later) := by
  intro blocks readings later start
  have hfirst : (yields relaySetup ([], []) later).findIdx? Yield.isMatch = some 2 := by
    decide
  have hsame : readings.map Reading.untimed = later.map Reading.untimed := by
    decide
  have hworking : relaySetup.Working := ⟨fun _ => rfl, fun _ => rfl⟩
  have hquiet : ∀ reading ∈ readings, reading.arrivals = [] := by
    decide
  have hpoll : Signals.quiet.poll = none := rfl
  have hlast : (received .quiet readings).poll = none := by
    rw [received_of_quiet _ hquiet]
    rfl
  obtain ⟨hcut, -⟩ := single_shot_cuts hworking rfl .endOfStream hsame
    (unsignalled_of_quiet hpoll hquiet) hlast ([], []) .json true true
  exact ⟨by decide, hfirst, hcut 2 hfirst⟩

end MeterRadio.Capture
