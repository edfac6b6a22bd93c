/-
Module: MeterRadio.Proofs.ExitSchedule
Purpose: How a run ends under any schedule of interrupts, of a deadline and of a sender of
  interrupts that hangs up. Signals count between blocks only; what a block or a read comes to
  goes before what arrived meanwhile.
Main exports: Capture.Pending, Capture.Sole, Capture.pending_of_poll, Capture.poll_of_tied,
  Capture.Schedule, Capture.Schedule.run_heard, Capture.ExitLaw, Capture.exit_by_schedule
-/
import MeterRadio.Proofs.RunEnds

namespace MeterRadio.Capture

/-! ### What is pending after arrivals

What is pending is said of the arrivals alone, without the state that the run keeps of them. An
interrupt counts if nobody had hung up before it, and the time limit once it has passed. Both can be
pending at once; which one is heard then is left to the schedule. -/

/-- An interrupt is among the arrivals, and nobody had hung up before it. -/
def Interrupted (arrivals : List Arrival) : Prop :=
  ∃ before after, arrivals = before ++ .interrupt :: after ∧ .hangUp ∉ before

/-- The time limit has passed, first after the given time. -/
def TimedOut (arrivals : List Arrival) (elapsed : Time.Span) : Prop :=
  ∃ before after, arrivals = before ++ .deadline elapsed :: after ∧
    ∀ earlier, .deadline earlier ∉ before

/-- The arrivals are a reason to end a run. -/
def Pending (arrivals : List Arrival) : ExitReason → Prop
  | .interrupted => Interrupted arrivals
  | .timeLimit elapsed => TimedOut arrivals elapsed
  | .singleShot => False
  | .endOfStream => False

/-- There is no reason to end a run yet. -/
def Calm (arrivals : List Arrival) : Prop := ∀ reason, ¬ Pending arrivals reason

/-- The arrivals are this reason to end a run, and no other one. -/
def Sole (arrivals : List Arrival) (reason : ExitReason) : Prop :=
  Pending arrivals reason ∧ ∀ other, Pending arrivals other → other = reason

theorem not_interrupted_nil : ¬ Interrupted [] := by
  rintro ⟨before, after, h, -⟩
  cases before <;> cases h

theorem interrupted_cons (a : Arrival) (rest : List Arrival) :
    Interrupted (a :: rest) ↔ a = .interrupt ∨ (a ≠ .hangUp ∧ Interrupted rest) := by
  constructor
  · rintro ⟨before, after, h, hbefore⟩
    cases before with
    | nil =>
        cases h
        exact .inl rfl
    | cons b before =>
        cases h
        rw [List.mem_cons, not_or] at hbefore
        exact .inr ⟨Ne.symm hbefore.1, before, after, rfl, hbefore.2⟩
  · rintro (rfl | ⟨hne, before, after, rfl, hbefore⟩)
    · exact ⟨[], rest, rfl, List.not_mem_nil⟩
    · exact ⟨a :: before, after, rfl, by simp [hbefore, Ne.symm hne]⟩

theorem not_timedOut_nil (elapsed : Time.Span) : ¬ TimedOut [] elapsed := by
  rintro ⟨before, after, h, -⟩
  cases before <;> cases h

theorem timedOut_cons (a : Arrival) (rest : List Arrival) (elapsed : Time.Span) :
    TimedOut (a :: rest) elapsed ↔
      a = .deadline elapsed ∨ ((∀ e, a ≠ .deadline e) ∧ TimedOut rest elapsed) := by
  constructor
  · rintro ⟨before, after, h, hbefore⟩
    cases before with
    | nil =>
        cases h
        exact .inl rfl
    | cons b before =>
        cases h
        refine .inr ⟨fun e he => hbefore e (by simp [he]), before, after, rfl, fun e he => ?_⟩
        exact hbefore e (List.mem_cons_of_mem _ he)
  · rintro (rfl | ⟨hne, before, after, rfl, hbefore⟩)
    · exact ⟨[], rest, rfl, fun _ => List.not_mem_nil⟩
    · refine ⟨a :: before, after, rfl, fun e he => ?_⟩
      rcases List.mem_cons.1 he with heq | hmem
      · exact hne e heq.symm
      · exact hbefore e hmem

theorem calm_nil : Calm [] := by
  intro reason h
  cases reason with
  | interrupted => exact not_interrupted_nil h
  | timeLimit elapsed => exact not_timedOut_nil elapsed h
  | singleShot => exact h
  | endOfStream => exact h

theorem interrupt_foldl (arrivals : List Arrival) :
    ∀ signals : Signals, (arrivals.foldl Signals.receive signals).interrupt = true ↔
      signals.interrupt = true ∨ (signals.connected = true ∧ Interrupted arrivals) := by
  induction arrivals with
  | nil =>
      intro signals
      simp [not_interrupted_nil]
  | cons a rest ih =>
      intro signals
      rw [List.foldl_cons, ih, interrupted_cons]
      cases a with
      | interrupt =>
          simp only [Signals.receive, true_or, and_true, Bool.or_eq_true]
          constructor
          · rintro (hany | ⟨hline, -⟩)
            · exact hany
            · exact .inr hline
          · exact .inl
      | hangUp => simp [Signals.receive]
      | deadline e => simp [Signals.receive]

theorem deadline_foldl (arrivals : List Arrival) :
    ∀ (signals : Signals) (elapsed : Time.Span),
      (arrivals.foldl Signals.receive signals).deadline = some elapsed ↔
        signals.deadline = some elapsed ∨
          (signals.deadline = none ∧ TimedOut arrivals elapsed) := by
  induction arrivals with
  | nil =>
      intro signals elapsed
      simp [not_timedOut_nil]
  | cons a rest ih =>
      intro signals elapsed
      rw [List.foldl_cons, ih, timedOut_cons]
      cases a with
      | interrupt => simp [Signals.receive]
      | hangUp => simp [Signals.receive]
      | deadline e =>
          cases h : signals.deadline with
          | some earlier => simp [Signals.receive, h]
          | none => simp [Signals.receive, h]

theorem deadlineFirst_foldl (arrivals : List Arrival) :
    ∀ signals : Signals,
      (arrivals.foldl Signals.receive signals).deadlineFirst = signals.deadlineFirst := by
  induction arrivals with
  | nil =>
      intro signals
      rfl
  | cons a rest ih =>
      intro signals
      rw [List.foldl_cons, ih]
      cases a <;> rfl

/-- Signals of which none has arrived yet, with the choice between two that are pending. -/
def Signals.expecting (deadlineFirst : Bool) : Signals := { Signals.quiet with deadlineFirst }

section Poll

variable {arrivals : List Arrival} {deadlineFirst : Bool}

theorem interrupt_expecting :
    (arrivals.foldl Signals.receive (.expecting deadlineFirst)).interrupt = true ↔
      Interrupted arrivals := by
  rw [interrupt_foldl]
  simp [Signals.expecting, Signals.quiet]

theorem deadline_expecting {elapsed : Time.Span} :
    (arrivals.foldl Signals.receive (.expecting deadlineFirst)).deadline = some elapsed ↔
      TimedOut arrivals elapsed := by
  rw [deadline_foldl]
  simp [Signals.expecting, Signals.quiet]

/-- What is heard is pending. -/
theorem pending_of_poll {reason : ExitReason}
    (h : (arrivals.foldl Signals.receive (.expecting deadlineFirst)).poll = some reason) :
    Pending arrivals reason := by
  unfold Signals.poll at h
  split at h
  case isTrue hboth =>
    cases h
    exact interrupt_expecting.1 (Bool.and_eq_true_iff.1 hboth).1
  case isFalse =>
    obtain ⟨elapsed, hdeadline, rfl⟩ := Option.map_eq_some_iff.1 h
    exact deadline_expecting.1 hdeadline

/-- Whatever is pending, something is heard. -/
theorem poll_eq_none_iff :
    (arrivals.foldl Signals.receive (.expecting deadlineFirst)).poll = none ↔ Calm arrivals := by
  constructor
  · intro hnone reason hpending
    unfold Signals.poll at hnone
    split at hnone
    case isTrue => cases hnone
    case isFalse hneither =>
      have hlimit := Option.map_eq_none_iff.1 hnone
      cases reason with
      | interrupted =>
          rw [interrupt_expecting.2 hpending, hlimit] at hneither
          simp at hneither
      | timeLimit elapsed =>
          rw [deadline_expecting.2 hpending] at hlimit
          cases hlimit
      | singleShot => exact hpending
      | endOfStream => exact hpending
  · intro hcalm
    rw [Option.eq_none_iff_forall_ne_some]
    intro reason hheard
    exact hcalm reason (pending_of_poll hheard)

/-- The one reason that is pending is heard. -/
theorem poll_of_sole {reason : ExitReason} (h : Sole arrivals reason) :
    (arrivals.foldl Signals.receive (.expecting deadlineFirst)).poll = some reason := by
  cases hheard : (arrivals.foldl Signals.receive (.expecting deadlineFirst)).poll with
  | none => exact absurd h.1 (poll_eq_none_iff.1 hheard reason)
  | some other => rw [h.2 other (pending_of_poll hheard)]

/-- Of two that are pending, the one is heard that goes first. -/
theorem poll_of_tied {elapsed : Time.Span} (hinterrupt : Interrupted arrivals)
    (hdeadline : TimedOut arrivals elapsed) :
    (arrivals.foldl Signals.receive (.expecting deadlineFirst)).poll =
      some (if deadlineFirst then .timeLimit elapsed else .interrupted) := by
  have hfirst := deadlineFirst_foldl arrivals (.expecting deadlineFirst)
  unfold Signals.poll
  rw [interrupt_expecting.2 hinterrupt, deadline_expecting.2 hdeadline, hfirst]
  cases deadlineFirst <;> rfl

end Poll

/-! ### Hanging up

After a hang-up there are no interrupts, and a hang-up does nothing else. So hang-ups can be struck
out of a run, and its result stays the same. -/

/-- Arrivals of which the hang-ups are struck out. -/
def unbroken (arrivals : List Arrival) : List Arrival := arrivals.filter (· ≠ .hangUp)

/-- Nobody interrupts after hanging up. -/
def Orderly (arrivals : List Arrival) : Prop :=
  ∀ before after, arrivals = before ++ .hangUp :: after → .interrupt ∉ after

theorem Orderly.right {a b : List Arrival} (h : Orderly (a ++ b)) : Orderly b := by
  rintro before after rfl
  exact h (a ++ before) after (by simp)

theorem Orderly.left {a b : List Arrival} (h : Orderly (a ++ b)) : Orderly a := by
  intro before after hsplit hmem
  refine h before (after ++ b) (by simp [hsplit]) ?_
  exact List.mem_append_left b hmem

theorem Orderly.not_mem_right {a b : List Arrival} (h : Orderly (a ++ b))
    (hcut : .hangUp ∈ a) : .interrupt ∉ b := by
  intro hmem
  obtain ⟨before, after, rfl⟩ := List.append_of_mem hcut
  refine h before (after ++ b) (by simp) ?_
  exact List.mem_append_right after hmem

/-- A line that is still connected. -/
def Signals.joined (s : Signals) : Signals := { s with connected := true }

@[simp] theorem poll_joined (s : Signals) : s.joined.poll = s.poll := rfl

/-- Nothing but the line itself tells apart signals with hang-ups and without. -/
theorem foldl_unbroken (arrivals : List Arrival) :
    ∀ signals : Signals, (signals.connected = false → .interrupt ∉ arrivals) →
      Orderly arrivals →
        (unbroken arrivals).foldl Signals.receive signals.joined =
          (arrivals.foldl Signals.receive signals).joined := by
  induction arrivals with
  | nil => intro signals _ _; rfl
  | cons a rest ih =>
      intro signals hcut horder
      have hrest : Orderly rest := Orderly.right (a := [a]) horder
      cases a with
      | interrupt =>
          have hline : signals.connected = true := by
            cases hc : signals.connected with
            | true => rfl
            | false => exact absurd List.mem_cons_self (hcut hc)
          have hnext := ih (signals.receive .interrupt) (by simp [Signals.receive, hline]) hrest
          have hsame : signals.joined.receive .interrupt =
              (signals.receive .interrupt).joined := by
            simp [Signals.receive, Signals.joined, hline]
          rw [List.foldl_cons, ← hnext, ← hsame]
          rfl
      | hangUp =>
          have hnext := ih (signals.receive .hangUp) (fun _ => horder [] rest rfl) hrest
          rw [List.foldl_cons, ← hnext]
          rfl
      | deadline e =>
          have hnext := ih (signals.receive (.deadline e))
            (fun h => fun hmem => hcut h (List.mem_cons_of_mem _ hmem)) hrest
          rw [List.foldl_cons, ← hnext]
          rfl

/-- A line that was cut was cut by an arrival, or before. -/
theorem connected_foldl (arrivals : List Arrival) :
    ∀ signals : Signals, (arrivals.foldl Signals.receive signals).connected = false →
      signals.connected = false ∨ .hangUp ∈ arrivals := by
  induction arrivals with
  | nil => intro signals h; exact .inl h
  | cons a rest ih =>
      intro signals h
      rcases ih _ h with hcut | hmem
      · cases a with
        | interrupt => exact .inl hcut
        | hangUp => exact .inr List.mem_cons_self
        | deadline e => exact .inl hcut
      · exact .inr (List.mem_cons_of_mem a hmem)

/-- A read without the hang-ups during it. -/
def Reading.unbroken (reading : Reading) : Reading :=
  { reading with arrivals := Capture.unbroken reading.arrivals }

variable {σ : Type} {setup : Setup σ} {ending : TransportError}

/-- Hanging up makes no difference to a run. -/
theorem run_unbroken (readings : List Reading) :
    ∀ (signals : Signals) (s : State σ),
      (signals.connected = false → .interrupt ∉ readings.flatMap Reading.arrivals) →
        Orderly (readings.flatMap Reading.arrivals) →
          run setup ending signals.joined s (readings.map Reading.unbroken) =
            run setup ending signals s readings := by
  induction readings with
  | nil =>
      intro signals s _ _
      rw [List.map_nil, run, run, poll_joined]
  | cons reading rest ih =>
      intro signals s hcut horder
      rw [List.flatMap_cons] at hcut horder
      have hkept := foldl_unbroken reading.arrivals signals
        (fun h hmem => hcut h (List.mem_append_left _ hmem)) horder.left
      have hlater : (reading.arrivals.foldl Signals.receive signals).connected = false →
          .interrupt ∉ rest.flatMap Reading.arrivals := by
        intro h
        rcases connected_foldl _ _ h with hbefore | hduring
        · exact fun hmem => hcut hbefore (List.mem_append_right _ hmem)
        · exact horder.not_mem_right hduring
      have hnext := fun next => ih (reading.arrivals.foldl Signals.receive signals) next hlater
        horder.right
      rw [List.map_cons, run, run, poll_joined]
      simp only [Reading.unbroken, hkept, hnext]

/-! ### Schedules

A run looks for signals before each read and nowhere else. What is pending there is what has arrived
up to that read, so a run goes on for as long as this is calm and no block ends it. -/

/-- What arrives before a run and during its reads, and which signal is heard if an interrupt and
the time limit are found pending together. -/
structure Schedule where
  before : List Arrival
  during : Nat → List Arrival
  deadlineFirst : Bool

namespace Schedule

/-- All that has arrived when the read with the given number is about to be attempted. -/
def upTo (schedule : Schedule) (k : Nat) : List Arrival :=
  schedule.before ++ (List.range k).flatMap schedule.during

/-- The reads that bring the blocks of a script, each at its time. -/
def readings (schedule : Schedule) (script : List (Bytes × Time.Timestamp)) : List Reading :=
  script.mapIdx fun k block => ⟨block.1, block.2, schedule.during k⟩

/-- The signals before the first read. -/
def signals (schedule : Schedule) : Signals :=
  schedule.before.foldl Signals.receive (.expecting schedule.deadlineFirst)

/-- The schedule in which nobody hangs up. -/
def unbroken (schedule : Schedule) : Schedule :=
  { schedule with
    before := Capture.unbroken schedule.before
    during := fun k => Capture.unbroken (schedule.during k) }

variable (schedule : Schedule) (script : List (Bytes × Time.Timestamp))

@[simp] theorem length_readings : (schedule.readings script).length = script.length := by
  simp [readings]

theorem readings_take : (schedule.readings script).take script.length =
    schedule.readings script := by
  rw [← schedule.length_readings script, List.take_length]

theorem length_readings_take {k : Nat} (hk : k ≤ script.length) :
    ((schedule.readings script).take k).length = k := by
  rw [List.length_take, length_readings, Nat.min_eq_left hk]

theorem arrivals_take {k : Nat} (hk : k ≤ script.length) :
    ((schedule.readings script).take k).flatMap Reading.arrivals =
      (List.range k).flatMap schedule.during := by
  induction k with
  | zero => rfl
  | succ k ih =>
      have hlength : k < (schedule.readings script).length := by
        rw [length_readings]
        exact hk
      rw [List.take_add_one, List.getElem?_eq_getElem hlength, List.range_succ,
        List.flatMap_append, List.flatMap_append, ih (Nat.le_of_succ_le hk)]
      simp [readings]

/-- The signals seen before a read are those of the schedule up to it. -/
theorem received_take {k : Nat} (hk : k ≤ script.length) :
    received schedule.signals ((schedule.readings script).take k) =
      (schedule.upTo k).foldl Signals.receive (.expecting schedule.deadlineFirst) := by
  rw [received, arrivals_take schedule script hk, upTo, List.foldl_append, signals]

theorem readings_unbroken :
    schedule.unbroken.readings script = (schedule.readings script).map Reading.unbroken := by
  refine List.ext_getElem (by simp) fun k _ _ => ?_
  simp [readings, unbroken, Reading.unbroken]

/-- The run over a script under the schedule. -/
def run (schedule : Schedule) (setup : Setup σ) (ending : TransportError) (start : State σ)
    (script : List (Bytes × Time.Timestamp)) : Outcome σ :=
  Capture.run setup ending schedule.signals start (schedule.readings script)

variable {schedule : Schedule} {script : List (Bytes × Time.Timestamp)}

theorem pending_of_poll_take {k : Nat} (hk : k ≤ script.length) {reason : ExitReason}
    (h : (received schedule.signals ((schedule.readings script).take k)).poll = some reason) :
    Pending (schedule.upTo k) reason := by
  rw [received_take schedule script hk] at h
  exact pending_of_poll h

theorem poll_take_none {k : Nat} (hk : k ≤ script.length) :
    (received schedule.signals ((schedule.readings script).take k)).poll = none ↔
      Calm (schedule.upTo k) := by
  rw [received_take schedule script hk]
  exact poll_eq_none_iff

theorem unsignalled_take {k : Nat} (hk : k ≤ script.length) :
    Unsignalled schedule.signals ((schedule.readings script).take k) ↔
      ∀ j < k, Calm (schedule.upTo j) := by
  rw [unsignalled_iff, length_readings_take schedule script hk]
  refine forall_congr' fun j => imp_congr_right fun hj => ?_
  rw [List.take_take, Nat.min_eq_left (Nat.le_of_lt hj)]
  exact poll_take_none (Nat.le_trans (Nat.le_of_lt hj) hk)

/-- The first signal that is heard ends the run before the next read. -/
theorem run_heard (setup : Setup σ) (ending : TransportError) {start : State σ} {k : Nat}
    {reason : ExitReason} (hk : k ≤ script.length) (hcalm : ∀ j < k, Calm (schedule.upTo j))
    (hheard : ((schedule.upTo k).foldl Signals.receive
      (.expecting schedule.deadlineFirst)).poll = some reason)
    (hgoes : Uneventful setup start ((schedule.readings script).take k)) :
    let o := schedule.run setup ending start script
    o.result = .ok reason ∧ o.attempts.length = k ∧
      o.state = through setup start ((schedule.readings script).take k) := by
  intro o
  rw [← received_take schedule script hk] at hheard
  have hend := run_signalled ending ((unsignalled_take hk).2 hcalm) hgoes hheard
    ((schedule.readings script).drop k)
  rw [List.take_append_drop, schedule.length_readings_take script hk] at hend
  obtain ⟨hstate, hresult, hattempts⟩ := hend
  exact ⟨hresult, hattempts, hstate⟩

end Schedule

/-- How a run ends under a schedule, where `schedule.upTo k` is what has arrived when the run looks
for signals before the read with the number `k`. Signals that arrive later are of no account. -/
structure ExitLaw (setup : Setup σ) (ending : TransportError) (schedule : Schedule)
    (start : State σ) (script : List (Bytes × Time.Timestamp)) : Prop where
  /-- The first signal that is found, if it is the only one then, ends the run before the next read,
  after all that was read before is processed. -/
  signalled : ∀ (k : Nat) (reason : ExitReason), k ≤ script.length →
    (∀ j < k, Calm (schedule.upTo j)) → Sole (schedule.upTo k) reason →
      Uneventful setup start ((schedule.readings script).take k) →
        let o := schedule.run setup ending start script
        o.result = .ok reason ∧ o.attempts.length = k ∧
          o.state = through setup start ((schedule.readings script).take k)
  /-- So does one of two that are found together. -/
  tied : ∀ (k : Nat) (elapsed : Time.Span), k ≤ script.length →
    (∀ j < k, Calm (schedule.upTo j)) → Interrupted (schedule.upTo k) →
      TimedOut (schedule.upTo k) elapsed →
        Uneventful setup start ((schedule.readings script).take k) →
          let o := schedule.run setup ending start script
          o.result = .ok (if schedule.deadlineFirst then .timeLimit elapsed else .interrupted) ∧
            o.attempts.length = k ∧
              o.state = through setup start ((schedule.readings script).take k)
  /-- The end that a block comes to is the end of the run, whatever arrives during its read. -/
  stopped : ∀ (k : Nat) (reading : Reading) (result : Result),
    (schedule.readings script)[k]? = some reading → (∀ j ≤ k, Calm (schedule.upTo j)) →
      Uneventful setup start ((schedule.readings script).take k) →
        let last := turn setup reading.time
          (through setup start ((schedule.readings script).take k)) reading.block
        last.2 = some result →
          let o := schedule.run setup ending start script
          o.result = result ∧ o.attempts.length = k + 1 ∧ o.state = last.1
  /-- So is the end that a read comes to which brings no block. -/
  exhausted : (∀ j ≤ script.length, Calm (schedule.upTo j)) →
    Uneventful setup start (schedule.readings script) →
      let o := schedule.run setup ending start script
      o.result = afterError ending ∧ o.attempts.length = script.length + 1 ∧
        o.state = through setup start (schedule.readings script)
  /-- Every run is of one of these kinds. -/
  decided : ∃ k ≤ script.length, (∀ j < k, Calm (schedule.upTo j)) ∧
    Uneventful setup start ((schedule.readings script).take k) ∧
      ((∃ reason, Pending (schedule.upTo k) reason) ∨
        (Calm (schedule.upTo k) ∧ (k = script.length ∨
          ∃ reading, (schedule.readings script)[k]? = some reading ∧
            (turn setup reading.time
              (through setup start ((schedule.readings script).take k)) reading.block).2 ≠
                none)))
  /-- That nobody can interrupt any more neither ends a run nor keeps it from ending. -/
  unbroken : Orderly (schedule.upTo script.length) →
    schedule.unbroken.run setup ending start script = schedule.run setup ending start script

theorem exitLaw (schedule : Schedule) (start : State σ)
    (script : List (Bytes × Time.Timestamp)) : ExitLaw setup ending schedule start script where
  signalled := fun _ _ hk hcalm hsole hgoes =>
    Schedule.run_heard setup ending hk hcalm (poll_of_sole hsole) hgoes
  tied := fun _ _ hk hcalm hinterrupt hdeadline hgoes =>
    Schedule.run_heard setup ending hk hcalm (poll_of_tied hinterrupt hdeadline) hgoes
  stopped := by
    intro k reading result hreading hcalm hgoes last hlast o
    have hk : k < script.length := by
      rw [← schedule.length_readings script]
      exact (List.getElem?_eq_some_iff.1 hreading).1
    have hquiet := (Schedule.unsignalled_take (Nat.le_of_lt hk)).2
      fun j hj => hcalm j (Nat.le_of_lt hj)
    have hpoll := (Schedule.poll_take_none (Nat.le_of_lt hk)).2 (hcalm k (Nat.le_refl k))
    have hend := run_decided ending hquiet hgoes hpoll hlast
      ((schedule.readings script).drop (k + 1))
    rw [← eq_take_append_of_getElem? hreading,
      schedule.length_readings_take script (Nat.le_of_lt hk)] at hend
    obtain ⟨hstate, hresult, hattempts⟩ := hend
    exact ⟨hresult, hattempts, hstate⟩
  exhausted := by
    intro hcalm hgoes o
    have hquiet := (Schedule.unsignalled_take (Nat.le_refl _)).2
      fun j hj => hcalm j (Nat.le_of_lt hj)
    have hpoll := (Schedule.poll_take_none (Nat.le_refl _)).2 (hcalm _ (Nat.le_refl _))
    rw [schedule.readings_take script] at hquiet hpoll
    obtain ⟨hstate, hresult, hattempts⟩ := run_exhausted ending hquiet hgoes hpoll
    rw [schedule.length_readings] at hattempts
    exact ⟨hresult, hattempts, hstate⟩
  decided := by
    obtain ⟨first, rest, hsplit, hquiet, hgoes, hdecision⟩ :=
      run_ends setup (schedule.readings script) schedule.signals start
    have hlength := congrArg List.length hsplit
    rw [schedule.length_readings, List.length_append] at hlength
    have hk : first.length ≤ script.length := by omega
    have hfirst : (schedule.readings script).take first.length = first := by
      rw [hsplit, List.take_left]
    rw [← hfirst] at hquiet hgoes hdecision
    refine ⟨first.length, hk, (Schedule.unsignalled_take hk).1 hquiet, hgoes, ?_⟩
    generalize hn : first.length = k at *
    cases hdecision with
    | signal reason _ h => exact .inl ⟨reason, Schedule.pending_of_poll_take hk h⟩
    | block reading later result h hturn =>
        refine .inr ⟨(Schedule.poll_take_none hk).1 h, .inr ⟨reading, ?_, ?_⟩⟩
        · rw [hsplit, ← hn, List.getElem?_append_right (Nat.le_refl _), Nat.sub_self]
          rfl
        · rw [hturn]
          exact Option.some_ne_none result
    | read h =>
        refine .inr ⟨(Schedule.poll_take_none hk).1 h, .inl ?_⟩
        rw [hlength]
        rfl
  unbroken := by
    intro horder
    have hall : (schedule.readings script).flatMap Reading.arrivals =
        (List.range script.length).flatMap schedule.during := by
      rw [← schedule.arrivals_take script (Nat.le_refl _), schedule.readings_take script]
    rw [Schedule.upTo, ← hall] at horder
    have hbefore : schedule.unbroken.signals = schedule.signals.joined :=
      foldl_unbroken schedule.before (.expecting schedule.deadlineFirst) (fun h => by cases h)
        horder.left
    rw [Schedule.run, Schedule.run, hbefore, schedule.readings_unbroken script]
    refine run_unbroken _ _ _ (fun h => ?_) horder.right
    rcases connected_foldl _ _ h with hcut | hmem
    · cases hcut
    · exact horder.not_mem_right hmem

/-- Every run is under the law of its schedule, and the blocks before its end are processed
completely: what they have to leave is in the sinks, and nothing of it is held back. -/
theorem exit_by_schedule (setup : Setup σ) (ending : TransportError) (schedule : Schedule)
    (decoder : σ) (format : Log.Format) (withOffset kept : Bool)
    (script : List (Bytes × Time.Timestamp)) :
    let start := State.fresh decoder (.fresh format withOffset .empty)
      (if kept then some .fresh else none)
    ExitLaw setup ending schedule start script ∧
      ∀ k ≤ script.length, Uneventful setup start ((schedule.readings script).take k) →
        let after := through setup start ((schedule.readings script).take k)
        let ys := yields setup decoder ((schedule.readings script).take k)
        after.tally.blocks = k ∧
          after.log.sink.contents = Log.rendered format withOffset (entries kept ys) ∧
          after.samples.map (fun f => f.sink.contents) = (if kept then some (windows ys) else none) ∧
          ∀ faults, (after.log.close faults).contents = after.log.sink.contents := by
  intro start
  refine ⟨exitLaw schedule start script, ?_⟩
  intro k hk hgoes after ys
  have hafter : Balanced format withOffset kept ys after :=
    (Balanced.fresh decoder format withOffset kept).through _ hgoes
  have hblocks : after.tally.blocks = 0 + _ := blocks_through setup _ start
  rw [schedule.length_readings_take script hk, Nat.zero_add] at hblocks
  refine ⟨hblocks, hafter.log, hafter.samples_contents, fun faults => ?_⟩
  rw [Log.Writer.contents_close, hafter.settled.held_eq, ite_self, List.append_nil]

/-- The second read is interrupted, and then the line is hung up. The time limit passes during the
fourth read. -/
def relaySchedule : Schedule where
  before := []
  during k := if k = 1 then [.interrupt, .hangUp] else if k = 3 then [.deadline ⟨90⟩] else []
  deadlineFirst := true

/-- An interrupt and the time limit come during the fifth read. -/
def lateSchedule : Schedule where
  before := []
  during k := if k = 4 then [.interrupt, .deadline ⟨90⟩] else []
  deadlineFirst := true

/-- The blocks of `relayReadings`. -/
def relayScript : List (Bytes × Time.Timestamp) :=
  relayReadings.map fun reading => (reading.block, reading.time)

/-- The interrupt is heard after two of the four blocks, which are both processed, and the time
limit never is. What comes during the fifth read, which finds the end of the stream, is not
heard. -/
theorem relay_interrupted :
    let start := State.fresh ([], []) (.fresh .json true .empty) (some .fresh)
    let o := relaySchedule.run relaySetup .endOfStream start relayScript
    let late := lateSchedule.run relaySetup .endOfStream start relayScript
    (o.result = .ok .interrupted ∧ o.attempts.length = 2 ∧
        o.state.samples.map (fun f => f.sink.contents) = some [5, 7]) ∧
      late.result = .ok .endOfStream ∧ late.attempts.length = 5 := by
  have hcalm : ∀ j < 2, Calm (relaySchedule.upTo j) := by
    intro j hj
    have hnil : relaySchedule.upTo j = [] := by
      rcases Nat.le_one_iff_eq_zero_or_eq_one.1 (Nat.le_of_lt_succ hj) with rfl | rfl <;> rfl
    rw [hnil]
    exact calm_nil
  have hsole : Sole (relaySchedule.upTo 2) .interrupted := by
    refine ⟨⟨[], [.hangUp], rfl, List.not_mem_nil⟩, ?_⟩
    intro other hother
    cases other with
    | interrupted => rfl
    | timeLimit elapsed =>
        obtain ⟨before, after, h, -⟩ := hother
        have hmem : Arrival.deadline elapsed ∈ relaySchedule.upTo 2 := by simp [h]
        simp [Schedule.upTo, relaySchedule, List.range_succ] at hmem
    | singleShot => exact hother.elim
    | endOfStream => exact hother.elim
  have hlate : ∀ j ≤ relayScript.length, Calm (lateSchedule.upTo j) := by
    intro j hj
    have hnil : lateSchedule.upTo j = [] := by
      refine List.append_eq_nil_iff.2 ⟨rfl, List.flatMap_eq_nil_iff.2 fun k hk => if_neg ?_⟩
      exact Nat.ne_of_lt (Nat.lt_of_lt_of_le (List.mem_range.1 hk) hj)
    rw [hnil]
    exact calm_nil
  -- Nothing here depends on the format, and over a variable no run is unfolded.
  generalize Log.Format.json = format
  obtain ⟨hlaw, hflushed⟩ := exit_by_schedule relaySetup .endOfStream relaySchedule ([], []) format
    true true relayScript
  obtain ⟨hlater, -⟩ := exit_by_schedule relaySetup .endOfStream lateSchedule ([], []) format
    true true relayScript
  have hgoes := uneventful_of_working relaySetup (fun _ => rfl) (fun _ => rfl) rfl
  obtain ⟨hresult, hattempts, hstate⟩ :=
    hlaw.signalled 2 .interrupted (by decide) hcalm hsole (hgoes _ _)
  obtain ⟨-, -, hsamples, -⟩ := hflushed 2 (by decide) (hgoes _ _)
  obtain ⟨hend, hreads, -⟩ := hlater.exhausted hlate (hgoes _ _)
  rw [← hstate] at hsamples
  exact ⟨⟨hresult, hattempts, hsamples.trans (by decide)⟩, hend, hreads⟩

end MeterRadio.Capture
