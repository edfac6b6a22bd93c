/-
Module: MeterRadio.Proofs.BlockReads
Purpose: How a source cuts its bytes into deliveries, where it is interrupted and whether there is a
  buffer in front of it makes no difference to the blocks that are read from it. All that a read
  meets are bytes and the errors between them.
Main exports: Source.arrivals, Source.Delivers, Sees, ReadLaw, blocks_as_delivered
-/
import Mathlib.Algebra.Order.Ring.Nat
import MeterRadio.Source.Lookahead
import MeterRadio.Tuner.Client

namespace MeterRadio

/-! ### Arrivals

Sources and buffers are taken apart into single bytes and the errors between them. There a read
takes bytes up to an error, and how they were delivered is no longer to be seen. -/

/-- What a read meets next: a byte, or the error that ends it. -/
abbrev Arrival := Except TransportError UInt8

namespace Arrival

/-- Bytes, one after the other. -/
def ofBytes (bytes : Bytes) : List Arrival := bytes.map .ok

@[simp] theorem ofBytes_nil : ofBytes [] = [] := rfl

@[simp] theorem ofBytes_cons (byte : UInt8) (bytes : Bytes) :
    ofBytes (byte :: bytes) = .ok byte :: ofBytes bytes := rfl

@[simp] theorem ofBytes_append (a b : Bytes) : ofBytes (a ++ b) = ofBytes a ++ ofBytes b :=
  List.map_append

/-- Reads `n` bytes. -/
def read : Nat → List Arrival → Except TransportError Bytes × List Arrival
  | 0, arrivals => (.ok [], arrivals)
  | _ + 1, [] => (.error .endOfStream, [])
  | _ + 1, .error error :: rest => (.error error, rest)
  | n + 1, .ok byte :: rest => ((read n rest).1.map (byte :: ·), (read n rest).2)

@[simp] theorem read_zero (arrivals : List Arrival) : read 0 arrivals = (.ok [], arrivals) := by
  cases arrivals <;> rfl

/-- To read the bytes in front and more is to read that many of the rest. -/
theorem read_of_ge {n : Nat} {bytes : Bytes} (h : bytes.length ≤ n) (rest : List Arrival) :
    read n (ofBytes bytes ++ rest) =
      ((read (n - bytes.length) rest).1.map (bytes ++ ·), (read (n - bytes.length) rest).2) := by
  induction bytes generalizing n with
  | nil =>
      rw [List.length_nil, Nat.sub_zero, ofBytes_nil, List.nil_append]
      cases hread : read n rest with
      | mk answer after => cases answer <;> rfl
  | cons byte bytes ih =>
      obtain ⟨m, rfl⟩ := Nat.exists_eq_add_one_of_ne_zero (Nat.ne_zero_of_lt h)
      rw [ofBytes_cons, List.cons_append, read, ih (Nat.le_of_succ_le_succ h), List.length_cons,
        Nat.add_sub_add_right]
      cases (read (m - bytes.length) rest).1 <;> rfl

theorem read_of_le {n : Nat} {bytes : Bytes} (h : n ≤ bytes.length) (rest : List Arrival) :
    read n (ofBytes bytes ++ rest) = (.ok (bytes.take n), ofBytes (bytes.drop n) ++ rest) := by
  have hlength : (bytes.take n).length = n := List.length_take_of_le h
  have hfront := read_of_ge (Nat.le_of_eq hlength) (ofBytes (bytes.drop n) ++ rest)
  rw [← List.append_assoc, ← ofBytes_append, List.take_append_drop, hlength, Nat.sub_self,
    read_zero] at hfront
  rw [hfront]
  exact Prod.ext (congrArg Except.ok (List.append_nil _)) rfl

/-- Every read of bytes meets the same error, and leaves the same behind. -/
def Fails (arrivals : List Arrival) (error : TransportError) (after : List Arrival) : Prop :=
  ∀ n, read (n + 1) arrivals = (.error error, after)

theorem fails_nil : Fails [] .endOfStream [] := fun _ => rfl

theorem fails_cons (error : TransportError) (after : List Arrival) :
    Fails (.error error :: after) error after := fun _ => rfl

theorem Fails.read_of_lt {rest after : List Arrival} {error : TransportError}
    (hfails : Fails rest error after) {n : Nat} {bytes : Bytes} (h : bytes.length < n) :
    read n (ofBytes bytes ++ rest) = (.error error, after) := by
  obtain ⟨m, hm⟩ := Nat.exists_eq_add_one_of_ne_zero (Nat.sub_ne_zero_of_lt h)
  rw [read_of_ge (Nat.le_of_lt h), hm, hfails]
  rfl

end Arrival

/-! ### Sources as arrivals -/

/-- What a read meets of a delivery: of an interruption nothing, and of an empty one the end. -/
def Delivery.arrivals : Delivery → List Arrival
  | .data bytes => if bytes = [] then [.error .endOfStream] else Arrival.ofBytes bytes
  | .fault cause => if cause = .interrupted then [] else [.error (Source.readError cause)]

namespace Source

/-- What reads meet of a source. -/
def arrivals (source : Source) : List Arrival := source.flatMap Delivery.arrivals

@[simp] theorem arrivals_nil : arrivals [] = [] := rfl

@[simp] theorem arrivals_append (a b : Source) :
    arrivals (a ++ b) = arrivals a ++ arrivals b :=
  List.flatMap_append

theorem arrivals_interrupted (rest : Source) :
    arrivals (.fault .interrupted :: rest) = arrivals rest := rfl

theorem arrivals_data {bytes : Bytes} (h : bytes ≠ []) (rest : Source) :
    arrivals (.data bytes :: rest) = Arrival.ofBytes bytes ++ arrivals rest := by
  rw [arrivals, List.flatMap_cons, Delivery.arrivals, if_neg h]
  rfl

theorem arrivals_fault {fault : Fault} (h : fault ≠ .interrupted) (rest : Source) :
    arrivals (.fault fault :: rest) = .error (readError fault) :: arrivals rest := by
  rw [arrivals, List.flatMap_cons, Delivery.arrivals, if_neg h]
  rfl

/-- A read of a source is a read of what it meets there. -/
theorem readAfter_arrivals (done : Bytes) (n : Nat) (source : Source) :
    (readAfter done n source).1 =
        (Arrival.read n (arrivals source)).1.map (done.reverse ++ ·) ∧
      arrivals (readAfter done n source).2 = (Arrival.read n (arrivals source)).2 := by
  fun_induction readAfter done n source with
  | case1 done source => simp [Except.map]
  | case2 done n => exact ⟨rfl, rfl⟩
  | case3 done n rest ih => exact ih
  | case4 done n fault rest hfault =>
      rw [arrivals_fault hfault]
      exact ⟨rfl, rfl⟩
  | case5 done n rest => exact ⟨rfl, rfl⟩
  | case6 done n bytes rest hne hless =>
      have hleft : bytes.drop (n + 1) ≠ [] := by
        rw [Ne, List.drop_eq_nil_iff]
        omega
      rw [arrivals_data hne, arrivals_data hleft, Arrival.read_of_le (Nat.le_of_lt hless)]
      exact ⟨rfl, rfl⟩
  | case7 done n bytes rest hne hless ih =>
      obtain ⟨hanswer, hrest⟩ := ih
      rw [arrivals_data hne, Arrival.read_of_ge (Nat.le_of_not_lt hless)]
      refine ⟨?_, hrest⟩
      rw [hanswer]
      cases (Arrival.read (n + 1 - bytes.length) (arrivals rest)).1 with
      | error error => rfl
      | ok more => simp [Except.map]

end Source

/-! ### Buffers as arrivals -/

/-- What a request for up to `n` bytes, answered in this way, takes from the arrivals. -/
inductive Delivery.Takes (n : Nat) (before after : List Arrival) : Except Fault Bytes → Prop
  | bytes {bytes : Bytes} (some : bytes ≠ []) (few : bytes.length ≤ n)
      (front : before = Arrival.ofBytes bytes ++ after) : Takes n before after (.ok bytes)
  | ended (fails : Arrival.Fails before .endOfStream after) : Takes n before after (.ok [])
  | interrupted (same : before = after) : Takes n before after (.error .interrupted)
  | fault {fault : Fault} (other : fault ≠ .interrupted)
      (front : before = .error (Source.readError fault) :: after) :
      Takes n before after (.error fault)

theorem Source.deliver_takes {n : Nat} (hn : 0 < n) (source : Source) :
    Delivery.Takes n source.arrivals (source.deliver n).2.arrivals (source.deliver n).1 := by
  unfold deliver
  split
  case h_1 => exact .ended Arrival.fails_nil
  case h_2 fault rest =>
    by_cases hfault : fault = .interrupted
    · subst hfault
      exact .interrupted (arrivals_interrupted rest)
    · exact .fault hfault (arrivals_fault hfault rest)
  case h_3 bytes rest =>
    by_cases hbytes : bytes = []
    · rw [hbytes, List.take_nil, List.length_nil, if_neg (Nat.not_lt_zero n)]
      exact .ended (Arrival.fails_cons _ _)
    · refine .bytes ?some (List.length_take_le n bytes) ?front
      case some =>
        rw [Ne, List.take_eq_nil_iff]
        rintro (rfl | h)
        · exact Nat.lt_irrefl 0 hn
        · exact hbytes h
      case front =>
        rw [arrivals_data hbytes]
        split
        case isTrue hmore =>
          have hleft : bytes.drop n ≠ [] := by
            rw [Ne, List.drop_eq_nil_iff]
            omega
          rw [arrivals_data hleft, ← List.append_assoc, ← Arrival.ofBytes_append,
            List.take_append_drop]
        case isFalse hall => rw [List.take_of_length_le (Nat.le_of_not_lt hall)]

namespace Lookahead

/-- What reads meet in a buffer and behind it. -/
def arrivals (b : Lookahead) : List Arrival := Arrival.ofBytes b.pending ++ b.source.arrivals

theorem arrivals_of_pending {b : Lookahead} (h : b.pending = []) :
    b.arrivals = b.source.arrivals := by
  rw [arrivals, h]
  rfl

theorem arrivals_split (capacity n : Nat) (pending : Bytes) (source : Source) :
    arrivals ⟨capacity, pending, source⟩ =
      Arrival.ofBytes (pending.take n) ++ arrivals ⟨capacity, pending.drop n, source⟩ := by
  rw [arrivals, arrivals, ← List.append_assoc, ← Arrival.ofBytes_append, List.take_append_drop]

theorem deliver_takes {n : Nat} (hn : 0 < n) (b : Lookahead) :
    Delivery.Takes n b.arrivals (b.deliver n).2.arrivals (b.deliver n).1 := by
  have htake {bytes : Bytes} (h : bytes ≠ []) : bytes.take n ≠ [] := by
    rw [Ne, List.take_eq_nil_iff]
    rintro (rfl | hnil)
    · exact Nat.lt_irrefl 0 hn
    · exact h hnil
  unfold deliver
  split
  case isTrue hpending =>
    exact .bytes (htake hpending) (List.length_take_le _ _) (arrivals_split _ _ _ _)
  case isFalse hpending =>
    have hpending : b.pending = [] := Decidable.of_not_not hpending
    rw [arrivals_of_pending hpending]
    split
    case isTrue hlarge =>
      have hsource := b.source.deliver_takes hn
      rw [← arrivals_of_pending (b := { b with source := (b.source.deliver n).2 }) hpending]
        at hsource
      exact hsource
    case isFalse hsmall =>
      have hsource := b.source.deliver_takes (Nat.lt_trans hn (Nat.lt_of_not_le hsmall))
      cases hanswer : b.source.deliver b.capacity with
      | mk answer source =>
          rw [hanswer] at hsource
          cases hsource with
          | @bytes bytes some few front =>
              refine .bytes (htake some) (List.length_take_le _ _) ?_
              rw [front]
              exact arrivals_split b.capacity n bytes source
          | ended fails =>
              dsimp only
              rw [List.take_nil, List.drop_nil]
              exact .ended fails
          | interrupted same =>
              rw [same, ← arrivals_of_pending (b := { b with source }) hpending]
              exact .interrupted rfl
          | fault other front =>
              rw [front, ← arrivals_of_pending (b := { b with source }) hpending]
              exact .fault other rfl

theorem takes_of_deliver {n : Nat} {b after : Lookahead} {answer : Except Fault Bytes}
    (h : b.deliver (n + 1) = (answer, after)) :
    Delivery.Takes (n + 1) b.arrivals after.arrivals answer := by
  have htakes := b.deliver_takes n.succ_pos
  rw [h] at htakes
  exact htakes

/-- A read through a buffer is a read of what it meets in and behind it. -/
theorem readAfter_arrivals (done : Bytes) (n : Nat) (b : Lookahead) :
    (readAfter done n b).1 = (Arrival.read n b.arrivals).1.map (done ++ ·) ∧
      (readAfter done n b).2.arrivals = (Arrival.read n b.arrivals).2 := by
  fun_induction readAfter done n b with
  | case1 done b => simp [Except.map]
  | case2 done n b after h =>
      cases takes_of_deliver h with
      | bytes some => exact absurd rfl some
      | ended fails =>
          rw [fails]
          exact ⟨rfl, rfl⟩
  | case3 done n b byte more after h ih =>
      cases takes_of_deliver h with
      | bytes some few front =>
          obtain ⟨hanswer, hrest⟩ := ih
          rw [front, Arrival.read_of_ge few, List.length_cons, Nat.add_sub_add_right]
          refine ⟨?_, hrest⟩
          rw [hanswer]
          cases (Arrival.read (n - more.length) after.arrivals).1 with
          | error error => rfl
          | ok block => simp [Except.map]
  | case4 done n b after h ih =>
      cases takes_of_deliver h with
      | interrupted same =>
          rw [same]
          exact ih
      | fault other => exact absurd rfl other
  | case5 done n b fault after hfault h =>
      cases takes_of_deliver h with
      | interrupted same => exact absurd rfl hfault
      | fault other front =>
          rw [front]
          exact ⟨rfl, rfl⟩

end Lookahead

/-! ### Reads in turn

`Sees` is what sources, buffers and clients of a server have in common. The answers to any number of
reads follow from it once, by induction on the sizes that are asked for. -/

section Readers

variable {σ : Type}

/-- The answers to reads of the given sizes, one after the other, from a state on. -/
def answers (read : Nat → σ → Except TransportError Bytes × σ) :
    List Nat → σ → List (Except TransportError Bytes)
  | [], _ => []
  | n :: sizes, s => (read n s).1 :: answers read sizes (read n s).2

/-- Reads depend only on the arrivals that a state stands for. -/
def Sees (read : Nat → σ → Except TransportError Bytes × σ) (arrivals : σ → List Arrival) : Prop :=
  ∀ n s, Arrival.read n (arrivals s) = ((read n s).1, arrivals (read n s).2)

theorem Sees.answers_eq {read : Nat → σ → Except TransportError Bytes × σ}
    {arrivals : σ → List Arrival} (h : Sees read arrivals) (sizes : List Nat) (s : σ) :
    answers read sizes s = answers Arrival.read sizes (arrivals s) := by
  induction sizes generalizing s with
  | nil => rfl
  | cons n sizes ih => rw [answers, answers, ih, h n s]

end Readers

theorem Source.sees : Sees Source.read arrivals := by
  intro n source
  obtain ⟨hanswer, hrest⟩ := readAfter_arrivals [] n source
  rw [read, hanswer, hrest]
  cases Arrival.read n source.arrivals with
  | mk answer after => cases answer <;> rfl

theorem Lookahead.sees : Sees Lookahead.read arrivals := by
  intro n b
  obtain ⟨hanswer, hrest⟩ := readAfter_arrivals [] n b
  rw [read, hanswer, hrest]
  cases Arrival.read n b.arrivals with
  | mk answer after => cases answer <;> rfl

theorem Tuner.Client.sees : Sees Client.read fun c => c.source.arrivals :=
  fun n c => Source.sees n c.source

/-! ### Blocks

What is said of blocks is said of arrivals, for every reader that sees them. The three kinds of
readers are then cases of it. -/

/-- The consecutive slices of the given lengths. -/
def slices : List Nat → Bytes → List Bytes
  | [], _ => []
  | n :: sizes, bytes => bytes.take n :: slices sizes (bytes.drop n)

/-- Slices leave nothing out, repeat nothing and have their full lengths. -/
theorem slices_exact {sizes : List Nat} {bytes : Bytes} (h : sizes.sum ≤ bytes.length) :
    (slices sizes bytes).flatten = bytes.take sizes.sum ∧
      (slices sizes bytes).map List.length = sizes := by
  induction sizes generalizing bytes with
  | nil => simp [slices]
  | cons n sizes ih =>
      rw [List.sum_cons] at h ⊢
      have hleft : sizes.sum ≤ (bytes.drop n).length := by
        rw [List.length_drop]
        omega
      obtain ⟨hflatten, hlengths⟩ := ih hleft
      rw [slices, List.flatten_cons, List.map_cons, hflatten, hlengths, List.take_add]
      exact ⟨rfl, by rw [List.length_take_of_le (by omega)]⟩

theorem answers_whole {sizes : List Nat} {bytes : Bytes} (h : sizes.sum ≤ bytes.length)
    (tail : List Arrival) :
    answers Arrival.read sizes (Arrival.ofBytes bytes ++ tail) =
      (slices sizes bytes).map .ok := by
  induction sizes generalizing bytes with
  | nil => rfl
  | cons n sizes ih =>
      rw [List.sum_cons] at h
      rw [answers, Arrival.read_of_le (by omega), ih (by rw [List.length_drop]; omega)]
      rfl

/-- The first read that asks for more than is left takes what is left along, and meets what comes
behind it. -/
theorem answers_failed {sizes : List Nat} {n : Nat} {bytes : Bytes} {tail after : List Arrival}
    {error : TransportError} (hfails : Arrival.Fails tail error after)
    (h : sizes.sum ≤ bytes.length) (hmore : bytes.length < sizes.sum + n) (more : List Nat) :
    answers Arrival.read (sizes ++ n :: more) (Arrival.ofBytes bytes ++ tail) =
      (slices sizes bytes).map .ok ++ .error error :: answers Arrival.read more after := by
  induction sizes generalizing bytes with
  | nil =>
      rw [List.sum_nil, Nat.zero_add] at hmore
      rw [List.nil_append, answers, hfails.read_of_lt hmore]
      rfl
  | cons m sizes ih =>
      rw [List.sum_cons] at h hmore
      rw [List.cons_append, answers, Arrival.read_of_le (by omega),
        ih (by rw [List.length_drop]; omega) (by rw [List.length_drop]; omega)]
      rfl

/-- At the end of a stream only reads of nothing succeed. -/
theorem answers_ended (sizes : List Nat) :
    answers Arrival.read sizes [] =
      sizes.map fun n => if n = 0 then .ok [] else .error .endOfStream := by
  induction sizes with
  | nil => rfl
  | cons n sizes ih =>
      cases n with
      | zero => rw [answers, Arrival.read_zero, ih]; rfl
      | succ n => rw [answers, Arrival.fails_nil, ih]; rfl

/-- A source delivers bytes in pieces, none of which is empty, and is interrupted anywhere. -/
inductive Source.Delivers : Source → Bytes → Prop
  | nothing : Delivers [] []
  | interrupted {rest : Source} {bytes : Bytes} (later : Delivers rest bytes) :
      Delivers (.fault .interrupted :: rest) bytes
  | piece {piece : Bytes} {rest : Source} {bytes : Bytes} (some : piece ≠ [])
      (later : Delivers rest bytes) : Delivers (.data piece :: rest) (piece ++ bytes)

theorem Source.Delivers.arrivals_eq {source : Source} {bytes : Bytes} (h : Delivers source bytes) :
    source.arrivals = Arrival.ofBytes bytes := by
  induction h with
  | nothing => rfl
  | interrupted _ ih => rw [arrivals_interrupted, ih]
  | piece some _ ih => rw [arrivals_data some, ih, Arrival.ofBytes_append]

/-- How blocks of any sizes are read from bytes with a source `tail` behind them, where
`answersTo tail` are the answers. -/
structure ReadLaw (bytes : Bytes)
    (answersTo : Source → List Nat → List (Except TransportError Bytes)) : Prop where
  /-- As long as enough bytes are left, reads return their consecutive slices. -/
  whole : ∀ tail sizes, sizes.sum ≤ bytes.length →
    answersTo tail sizes = (slices sizes bytes).map .ok ∧
      (slices sizes bytes).flatten = bytes.take sizes.sum ∧
      (slices sizes bytes).map List.length = sizes
  /-- If the stream ends behind the bytes, then the first read of more than are left meets the end,
  and so does every later one, unless it asks for nothing. -/
  ended : ∀ sizes n more, sizes.sum ≤ bytes.length → bytes.length < sizes.sum + n →
    answersTo [] (sizes ++ n :: more) =
      (slices sizes bytes).map .ok ++ .error .endOfStream ::
        more.map fun n => if n = 0 then .ok [] else .error .endOfStream
  /-- If a fault comes behind the bytes, then the first read of more than are left has its error,
  and later ones go on behind it. -/
  broken : ∀ fault rest sizes n more, fault ≠ .interrupted →
    sizes.sum ≤ bytes.length → bytes.length < sizes.sum + n →
    answersTo (.fault fault :: rest) (sizes ++ n :: more) =
      (slices sizes bytes).map .ok ++
        .error (if fault = .unexpectedEof then .endOfStream else .io fault) ::
          answers Source.read more rest

theorem Source.readError_eq (fault : Fault) :
    readError fault = if fault = .unexpectedEof then .endOfStream else .io fault := by
  cases fault <;> rfl

theorem readLaw_of_sees {σ : Type} {read : Nat → σ → Except TransportError Bytes × σ}
    {arrivals : σ → List Arrival} (hsees : Sees read arrivals) {bytes : Bytes}
    {start : Source → σ}
    (hstart : ∀ tail, arrivals (start tail) = Arrival.ofBytes bytes ++ tail.arrivals) :
    ReadLaw bytes fun tail sizes => answers read sizes (start tail) := by
  refine ⟨?whole, ?ended, ?broken⟩
  case whole =>
    intro tail sizes h
    refine ⟨?_, slices_exact h⟩
    rw [hsees.answers_eq, hstart, answers_whole h]
  case ended =>
    intro sizes n more h hmore
    rw [hsees.answers_eq, hstart, Source.arrivals_nil, answers_failed Arrival.fails_nil h hmore,
      answers_ended]
  case broken =>
    intro fault rest sizes n more hfault h hmore
    rw [hsees.answers_eq, hstart, Source.arrivals_fault hfault,
      answers_failed (Arrival.fails_cons _ _) h hmore, Source.sees.answers_eq,
      Source.readError_eq]

/-- A connection is made if the first bytes are a greeting. -/
theorem Tuner.Client.connect_of_greeting {address : String} {source rest : Source} {header : Bytes}
    {greeting : Greeting} (haddress : addressFault? address = none)
    (hheader : source.read greetingBytes = (.ok header, rest))
    (hgreeting : Greeting.ofBytes header = .ok greeting) :
    connect address (.ok source) = .ok ⟨greeting, rest, []⟩ := by
  have hlink : (Except.ok source : Except Fault Source).mapError TransportError.io = .ok source :=
    rfl
  rw [connect, haddress, hlink]
  change (do
    let given ← Greeting.ofBytes (← (source.read greetingBytes).1)
    pure (⟨given, (source.read greetingBytes).2, []⟩ : Client)) = _
  rw [hheader]
  change (Greeting.ofBytes header).map (fun given => (⟨given, rest, []⟩ : Client)) = _
  rw [hgreeting]
  rfl

/-- Blocks come as the bytes do, however these are cut and interrupted: from a source, from a buffer
in front of it and from a server behind its greeting. -/
theorem blocks_as_delivered {front : Source} {bytes : Bytes} (h : front.Delivers bytes) :
    ReadLaw bytes (fun tail sizes => answers Source.read sizes (front ++ tail)) ∧
      (∀ capacity, ReadLaw bytes fun tail sizes =>
        answers Lookahead.read sizes (.fresh capacity (front ++ tail))) ∧
      ∀ address header greeting body, Tuner.addressFault? address = none →
        header.length = Tuner.greetingBytes → Tuner.Greeting.ofBytes header = .ok greeting →
        bytes = header ++ body →
          ∃ client : Source → Tuner.Client,
            (∀ tail, Tuner.Client.connect address (.ok (front ++ tail)) = .ok (client tail) ∧
              (client tail).greeting = greeting) ∧
            ReadLaw body (fun tail sizes => answers Tuner.Client.read sizes (client tail)) ∧
            ∀ capacity tail sizes,
              answers Lookahead.read (Tuner.greetingBytes :: sizes)
                  (.fresh capacity (front ++ tail)) =
                .ok header :: answers Tuner.Client.read sizes (client tail) := by
  have harrivals (tail : Source) :
      (front ++ tail).arrivals = Arrival.ofBytes bytes ++ tail.arrivals := by
    rw [Source.arrivals_append, h.arrivals_eq]
  have hover (capacity : Nat) (tail : Source) :
      (Lookahead.fresh capacity (front ++ tail)).arrivals =
        Arrival.ofBytes bytes ++ tail.arrivals := harrivals tail
  refine ⟨readLaw_of_sees Source.sees harrivals,
    fun capacity => readLaw_of_sees Lookahead.sees (hover capacity), ?server⟩
  case server =>
    intro address header greeting body haddress hlength hgreeting hbytes
    subst hbytes
    -- The greeting takes its bytes from the front of the arrivals and leaves the others.
    have hheader (tail : Source) :
        Arrival.read Tuner.greetingBytes (Arrival.ofBytes (header ++ body) ++ tail.arrivals) =
          (.ok header, Arrival.ofBytes body ++ tail.arrivals) := by
      rw [Arrival.read_of_le (by rw [List.length_append]; omega), ← hlength, List.take_left,
        List.drop_left]
    have hread (tail : Source) :
        (.ok header, Arrival.ofBytes body ++ tail.arrivals) =
          (((front ++ tail).read Tuner.greetingBytes).1,
            ((front ++ tail).read Tuner.greetingBytes).2.arrivals) := by
      rw [← hheader, ← harrivals]
      exact Source.sees _ _
    refine ⟨fun tail => ⟨greeting, ((front ++ tail).read Tuner.greetingBytes).2, []⟩, ?_, ?_, ?_⟩
    · intro tail
      refine ⟨Tuner.Client.connect_of_greeting haddress ?_ hgreeting, rfl⟩
      exact Prod.ext (congrArg Prod.fst (hread tail)).symm rfl
    · exact readLaw_of_sees Tuner.Client.sees fun tail => (congrArg Prod.snd (hread tail)).symm
    · intro capacity tail sizes
      rw [Lookahead.sees.answers_eq, hover, answers, hheader, Tuner.Client.sees.answers_eq,
        congrArg Prod.snd (hread tail)]

/-- A server's greeting and five bytes of samples, in pieces that are cut anywhere. -/
def scattered : Source :=
  [.data [0x52, 0x54], .fault .interrupted, .data [0x4C, 0x30, 0, 0, 0, 5, 0],
    .data [0, 0, 29, 1, 2, 3], .fault .interrupted, .data [4, 5]]

/-- The greeting among them. -/
def scatteredGreeting : Bytes := [0x52, 0x54, 0x4C, 0x30, 0, 0, 0, 5, 0, 0, 0, 29]

theorem delivers_scattered : scattered.Delivers (scatteredGreeting ++ [1, 2, 3, 4, 5]) := by
  change scattered.Delivers ([0x52, 0x54] ++ ([0x4C, 0x30, 0, 0, 0, 5, 0] ++
    ([0, 0, 29, 1, 2, 3] ++ ([4, 5] ++ []))))
  exact .piece (by decide) (.interrupted (.piece (by decide) (.piece (by decide)
    (.interrupted (.piece (by decide) .nothing)))))

/-- Blocks of two bytes are read until one byte is left. It is lost to the next read, and what
comes after the end or after a fault is not. -/
theorem scattered_read_in_blocks :
    scattered.Delivers (scatteredGreeting ++ [1, 2, 3, 4, 5]) ∧
      ∃ client : Source → Tuner.Client,
        (∀ tail, Tuner.Client.connect "127.0.0.1:1234" (.ok (scattered ++ tail)) =
          .ok (client tail)) ∧
        answers Tuner.Client.read [2, 2, 2, 1, 0] (client []) =
          [.ok [1, 2], .ok [3, 4], .error .endOfStream, .error .endOfStream, .ok []] ∧
        answers Tuner.Client.read [2, 2, 2, 1] (client [.fault .timedOut, .data [6]]) =
          [.ok [1, 2], .ok [3, 4], .error (.io .timedOut), .ok [6]] := by
  obtain ⟨-, -, hserver⟩ := blocks_as_delivered delivers_scattered
  obtain ⟨client, hconnect, hlaw, -⟩ := hserver "127.0.0.1:1234" scatteredGreeting ⟨5, 29⟩
    [1, 2, 3, 4, 5] (by decide) rfl rfl rfl
  refine ⟨delivers_scattered, client, fun tail => (hconnect tail).1, ?_, ?_⟩
  · exact hlaw.ended [2, 2] 2 [1, 0] (by decide) (by decide)
  · exact hlaw.broken .timedOut [.data [6]] [2, 2] 2 [1] (by decide) (by decide) (by decide)

end MeterRadio
