/-
Module: MeterRadio.Proofs.LimitSums
Purpose: The components of a time limit are added up exactly. Seconds and nanoseconds are carried
  and fractions divided out, and what comes to no whole count or passes sixty-four bits is refused,
  so a sum that is found is that of the numbers times their units.
Main exports: Time.Component.value, Time.addTo_eq_some_iff, Time.total?_exact,
  Time.Component.Modest, Time.exists_total?
-/
import Mathlib.Tactic.Linarith
import Mathlib.Tactic.Positivity
import Mathlib.Tactic.Ring
import MeterRadio.Proofs.Spellings
import MeterRadio.Time.Limit

namespace MeterRadio.Time

variable {total sum : Span} {c : Component} {components : List Component}

/-! ### Counts added up

A span is two counts, and a count that has no room is refused. What is carried from one to the other
is not lost, so every step is exact, and the exact sum goes along with any number of them. -/

theorem counted_eq_some_iff {n m : Nat} : counted n = some m ↔ m ≤ maxCount ∧ n = m :=
  Text.within_eq_some_iff

/-- What is carried over is not lost. -/
theorem addTo_eq_some_iff {seconds nanoseconds : Nat} :
    addTo total seconds nanoseconds = some sum ↔
      sum.nanoseconds = total.nanoseconds + seconds * Span.perSecond + nanoseconds ∧
        sum.seconds ≤ maxCount ∧ total.subsecond + nanoseconds ≤ maxCount := by
  obtain ⟨sum⟩ := sum
  simp only [addTo, Option.bind_eq_bind, Option.bind_eq_some_iff, counted_eq_some_iff,
    Span.ofParts, Span.seconds, Span.subsecond, Span.perSecond]
  constructor
  · rintro ⟨fine, ⟨hfine, rfl⟩, extra, ⟨hextra, rfl⟩, whole, ⟨hwhole, rfl⟩, h⟩
    cases h
    refine ⟨?_, ?_, hfine⟩ <;> omega
  · rintro ⟨rfl, hseconds, hfine⟩
    refine ⟨_, ⟨hfine, rfl⟩, _, ⟨?_, rfl⟩, _, ⟨?_, rfl⟩, ?_⟩
    · omega
    · omega
    · exact congrArg some (congrArg Span.mk (by omega))

/-- The nanoseconds of one count. -/
def grain (inSeconds : Bool) : Nat := if inSeconds then Span.perSecond else 1

/-- The greatest count for which there is always room beside the nanoseconds of a span. -/
def room (inSeconds : Bool) : Nat := if inSeconds then maxCount else maxCount - Span.perSecond

/-- The first length in nanoseconds whose seconds pass sixty-four bits. -/
def lengthBound : Nat := (maxCount + 1) * Span.perSecond

/-- Counting a unit in seconds or in nanoseconds loses nothing of it. -/
theorem TimeUnit.scale_mul_grain (unit : TimeUnit) :
    unit.scale unit.inSeconds * grain unit.inSeconds = unit.nanoseconds ∧
      unit.scale unit.fractionInSeconds * grain unit.fractionInSeconds = unit.nanoseconds := by
  cases unit <;> exact ⟨rfl, rfl⟩

theorem addCount_eq (total : Span) (inSeconds : Bool) (count : Nat) :
    addCount total inSeconds count =
      addTo total (if inSeconds then count else 0) (if inSeconds then 0 else count) := by
  cases inSeconds <;> rfl

theorem grain_mul (inSeconds : Bool) (count : Nat) :
    (if inSeconds then count else 0) * Span.perSecond + (if inSeconds then 0 else count) =
      count * grain inSeconds := by
  cases inSeconds <;> simp [grain]

/-- A count that was added is added in full. -/
theorem addCount_exact {inSeconds : Bool} {count : Nat}
    (h : addCount total inSeconds count = some sum) :
    sum.nanoseconds = total.nanoseconds + count * grain inSeconds ∧ sum.seconds ≤ maxCount := by
  rw [addCount_eq] at h
  obtain ⟨hsum, hseconds, -⟩ := addTo_eq_some_iff.1 h
  rw [Nat.add_assoc, grain_mul] at hsum
  exact ⟨hsum, hseconds⟩

/-- A count is added if there is room for it and for the sum. -/
theorem exists_addCount {inSeconds : Bool} {count : Nat} (hcount : count ≤ room inSeconds)
    (hsum : total.nanoseconds + count * grain inSeconds < lengthBound) :
    ∃ sum, addCount total inSeconds count = some sum := by
  refine ⟨⟨total.nanoseconds + count * grain inSeconds⟩, ?_⟩
  rw [addCount_eq]
  refine addTo_eq_some_iff.2 ⟨?_, ?_, ?_⟩
  · rw [Nat.add_assoc, grain_mul]
  · exact Nat.le_of_lt_succ (Nat.div_lt_of_lt_mul (hsum.trans_eq (Nat.mul_comm _ _)))
  · have hsubsecond : total.subsecond < Span.perSecond := Nat.mod_lt _ (by decide)
    have hroom : Span.perSecond ≤ maxCount := by decide
    cases inSeconds with
    | true => exact hsubsecond.le.trans hroom
    | false =>
        have hfine : count ≤ maxCount - Span.perSecond := hcount
        exact (Nat.add_le_add hsubsecond.le hfine).trans (Nat.add_sub_cancel' hroom).le

/-! ### Components -/

/-- The length of a component in nanoseconds: its number, with the fraction, times its unit. -/
def Component.value (c : Component) : ℚ :=
  (c.whole + decimalValue c.fraction / 10 ^ c.fraction.length) * c.unit.nanoseconds

theorem Component.addWhole_exact (h : c.addWhole total = some sum) :
    sum.nanoseconds = total.nanoseconds + c.whole * c.unit.nanoseconds ∧
      sum.seconds ≤ maxCount := by
  obtain ⟨whole, hwhole, h⟩ := Option.bind_eq_some_iff.1 h
  obtain ⟨count, hcount, h⟩ := Option.bind_eq_some_iff.1 h
  obtain ⟨-, rfl⟩ := counted_eq_some_iff.1 hwhole
  obtain ⟨-, rfl⟩ := counted_eq_some_iff.1 hcount
  obtain ⟨hsum, hseconds⟩ := addCount_exact h
  rw [Nat.mul_assoc, c.unit.scale_mul_grain.1] at hsum
  exact ⟨hsum, hseconds⟩

theorem tenTo_pos (power : Nat) : 0 < Number.tenTo power := Nat.pow_pos (by decide)

theorem cast_tenTo (power : Nat) : (Number.tenTo power : ℚ) = 10 ^ power := Nat.cast_pow 10 power

/-- A fraction of a unit that comes to a whole count is that count exactly. -/
theorem TimeUnit.fraction_eq {unit : TimeUnit} {numerator denominator : Nat}
    (hpos : 0 < denominator)
    (h : numerator * unit.scale unit.fractionInSeconds % denominator = 0) :
    ((numerator * unit.scale unit.fractionInSeconds / denominator *
        grain unit.fractionInSeconds : ℕ) : ℚ) =
      (numerator / denominator : ℚ) * unit.nanoseconds := by
  obtain ⟨count, hcount⟩ := Nat.dvd_of_mod_eq_zero h
  have hrational : (numerator : ℚ) * unit.scale unit.fractionInSeconds = denominator * count := by
    exact_mod_cast hcount
  have hne : (denominator : ℚ) ≠ 0 := by exact_mod_cast hpos.ne'
  rw [hcount, Nat.mul_div_cancel_left count hpos, ← unit.scale_mul_grain.2]
  push_cast
  rw [div_mul_eq_mul_div, eq_div_iff hne, ← mul_assoc, hrational]
  ring

/-- A fraction is added only if nothing of it is left over. -/
theorem Component.addFraction_exact (htotal : total.seconds ≤ maxCount)
    (h : c.addFraction total = some sum) :
    (sum.nanoseconds : ℚ) = total.nanoseconds +
        (decimalValue c.fraction / 10 ^ c.fraction.length : ℚ) * c.unit.nanoseconds ∧
      sum.seconds ≤ maxCount := by
  unfold addFraction at h
  split at h
  case isTrue hempty =>
    cases h
    rw [List.isEmpty_iff.1 hempty]
    simp [decimalValue, htotal]
  case isFalse =>
    split at h
    case isTrue => cases h
    case isFalse =>
      obtain ⟨numerator, hnumerator, h⟩ := Option.bind_eq_some_iff.1 h
      obtain ⟨denominator, hdenominator, h⟩ := Option.bind_eq_some_iff.1 h
      obtain ⟨scaled, hscaled, h⟩ := Option.bind_eq_some_iff.1 h
      obtain ⟨-, rfl⟩ := counted_eq_some_iff.1 hnumerator
      obtain ⟨-, rfl⟩ := counted_eq_some_iff.1 hdenominator
      obtain ⟨-, rfl⟩ := counted_eq_some_iff.1 hscaled
      split at h
      case isTrue hexact =>
        obtain ⟨hsum, hseconds⟩ := addCount_exact h
        refine ⟨?_, hseconds⟩
        rw [hsum, Nat.cast_add, TimeUnit.fraction_eq (tenTo_pos _) hexact, cast_tenTo]
      case isFalse => cases h

theorem Component.addTo_exact (h : c.addTo total = some sum) :
    (sum.nanoseconds : ℚ) = total.nanoseconds + c.value ∧ sum.seconds ≤ maxCount := by
  obtain ⟨middle, hwhole, hfraction⟩ := Option.bind_eq_some_iff.1 h
  obtain ⟨hmiddle, hseconds⟩ := addWhole_exact hwhole
  obtain ⟨hsum, hlast⟩ := addFraction_exact hseconds hfraction
  refine ⟨?_, hlast⟩
  rw [hsum, hmiddle, value]
  push_cast
  ring

/-! ### Sums of components -/

theorem foldlM_addTo_exact (htotal : total.seconds ≤ maxCount)
    (h : components.foldlM (fun total c => c.addTo total) total = some sum) :
    (sum.nanoseconds : ℚ) = total.nanoseconds + (components.map Component.value).sum ∧
      sum.seconds ≤ maxCount := by
  induction components generalizing total with
  | nil =>
      cases h
      simp [htotal]
  | cons c rest ih =>
      rw [List.foldlM_cons] at h
      obtain ⟨middle, hfirst, hrest⟩ := Option.bind_eq_some_iff.1 h
      obtain ⟨hmiddle, hseconds⟩ := Component.addTo_exact hfirst
      obtain ⟨hsum, hlast⟩ := ih hseconds hrest
      refine ⟨?_, hlast⟩
      rw [hsum, hmiddle, List.map_cons, List.sum_cons, add_assoc]

/-- The sum of components is exact, and its seconds have room in sixty-four bits. -/
theorem total?_exact (h : total? components = some sum) :
    (sum.nanoseconds : ℚ) = (components.map Component.value).sum ∧ sum.seconds ≤ maxCount := by
  obtain ⟨hsum, hseconds⟩ := foldlM_addTo_exact (Nat.zero_le _) h
  refine ⟨?_, hseconds⟩
  rw [hsum]
  exact zero_add _

/-! ### Components that are accepted

Here it is shown that sums are found. A component is refused for want of room, or for a fraction
that does not come out; a modest one gives no reason for either. -/

/-- A component with room for its counts whatever the span before it, and a fraction that comes to a
whole count. -/
structure Component.Modest (c : Component) : Prop where
  whole : c.whole * c.unit.scale c.unit.inSeconds ≤ room c.unit.inSeconds
  unit : c.fraction ≠ [] → c.unit ≠ .nanosecond
  places : 10 ^ c.fraction.length ≤ maxCount
  scaled : decimalValue c.fraction * c.unit.scale c.unit.fractionInSeconds ≤
    room c.unit.fractionInSeconds
  exact : 10 ^ c.fraction.length ∣ decimalValue c.fraction * c.unit.scale c.unit.fractionInSeconds

theorem room_le (inSeconds : Bool) : room inSeconds ≤ maxCount := by
  cases inSeconds <;> decide

theorem TimeUnit.scale_pos (unit : TimeUnit) :
    0 < unit.scale unit.inSeconds ∧ 0 < unit.scale unit.fractionInSeconds := by
  cases unit <;> decide

theorem counted_of_le {n : Nat} (h : n ≤ maxCount) : counted n = some n :=
  counted_eq_some_iff.2 ⟨h, rfl⟩

theorem Component.exists_addWhole (hmodest : c.Modest)
    (hsum : total.nanoseconds + c.whole * c.unit.nanoseconds < lengthBound) :
    ∃ sum, c.addWhole total = some sum := by
  have hcount := hmodest.whole.trans (room_le _)
  have hwhole := (Nat.le_mul_of_pos_right c.whole c.unit.scale_pos.1).trans hcount
  rw [← c.unit.scale_mul_grain.1, ← Nat.mul_assoc] at hsum
  obtain ⟨sum, hadded⟩ := exists_addCount hmodest.whole hsum
  refine ⟨sum, ?_⟩
  rw [addWhole, counted_of_le hwhole]
  simp [counted_of_le hcount, hadded]

theorem Component.exists_addFraction (hmodest : c.Modest)
    (hsum : (total.nanoseconds +
        decimalValue c.fraction / 10 ^ c.fraction.length * c.unit.nanoseconds : ℚ) < lengthBound) :
    ∃ sum, c.addFraction total = some sum := by
  by_cases hne : c.fraction = []
  · exact ⟨total, if_pos (List.isEmpty_iff.2 hne)⟩
  · have hexact := Nat.mod_eq_zero_of_dvd hmodest.exact
    have hplaces : Number.tenTo c.fraction.length ≤ maxCount := hmodest.places
    have hscaled := hmodest.scaled.trans (room_le _)
    have hnumerator := (Nat.le_mul_of_pos_right _ c.unit.scale_pos.2).trans hscaled
    rw [← cast_tenTo, ← TimeUnit.fraction_eq (tenTo_pos _) hexact, ← Nat.cast_add,
      Nat.cast_lt] at hsum
    obtain ⟨sum, hadded⟩ := exists_addCount ((Nat.div_le_self _ _).trans hmodest.scaled) hsum
    refine ⟨sum, ?_⟩
    rw [addFraction, if_neg (mt List.isEmpty_iff.1 hne), if_neg (hmodest.unit hne),
      counted_of_le hnumerator, counted_of_le hplaces]
    simp only [Option.bind_eq_bind, Option.bind_some, counted_of_le hscaled]
    exact (if_pos hexact).trans hadded

theorem Component.value_nonneg (c : Component) : 0 ≤ c.value := by
  unfold value
  positivity

theorem Component.exists_addTo (hmodest : c.Modest)
    (hsum : (total.nanoseconds + c.value : ℚ) < lengthBound) :
    ∃ sum, c.addTo total = some sum := by
  have hfraction : (0 : ℚ) ≤
      decimalValue c.fraction / 10 ^ c.fraction.length * c.unit.nanoseconds := by positivity
  rw [value, add_mul] at hsum
  have hroom : ((total.nanoseconds + c.whole * c.unit.nanoseconds : ℕ) : ℚ) < lengthBound := by
    rw [Nat.cast_add, Nat.cast_mul]
    linarith only [hsum, hfraction]
  obtain ⟨middle, hwhole⟩ := exists_addWhole hmodest (Nat.cast_lt.1 hroom)
  rw [← add_assoc, ← Nat.cast_mul, ← Nat.cast_add, ← (addWhole_exact hwhole).1] at hsum
  obtain ⟨sum, hadded⟩ := exists_addFraction hmodest hsum
  exact ⟨sum, Option.bind_eq_some_iff.2 ⟨middle, hwhole, hadded⟩⟩

/-- Modest components whose sum has room in sixty-four bits of seconds are added up. -/
theorem exists_foldlM_addTo (hmodest : ∀ c ∈ components, c.Modest)
    (hsum : (total.nanoseconds + (components.map Component.value).sum : ℚ) < lengthBound) :
    ∃ sum, components.foldlM (fun total c => c.addTo total) total = some sum := by
  induction components generalizing total with
  | nil => exact ⟨total, rfl⟩
  | cons c rest ih =>
      rw [List.map_cons, List.sum_cons, ← add_assoc] at hsum
      have hrest : 0 ≤ (rest.map Component.value).sum :=
        List.sum_nonneg (by simpa using fun c _ => c.value_nonneg)
      obtain ⟨middle, hfirst⟩ := Component.exists_addTo (hmodest c List.mem_cons_self)
        (lt_of_le_of_lt (le_add_of_nonneg_right hrest) hsum)
      rw [← (Component.addTo_exact hfirst).1] at hsum
      obtain ⟨sum, hadded⟩ := ih (fun d hd => hmodest d (List.mem_cons_of_mem c hd)) hsum
      exact ⟨sum, by rw [List.foldlM_cons, hfirst]; exact hadded⟩

/-- Modest components with room for their sum have a total. -/
theorem exists_total? (hmodest : ∀ c ∈ components, c.Modest)
    (hsum : (components.map Component.value).sum < lengthBound) :
    ∃ sum, total? components = some sum := by
  apply exists_foldlM_addTo hmodest
  rw [Nat.cast_zero, zero_add]
  exact hsum

/-- A component of whole seconds is added up if there is room for its seconds. -/
theorem total?_seconds (n : Nat) :
    total? [⟨n, [], .second⟩] = (counted n).map (Span.ofParts · 0) := by
  have hscale : TimeUnit.second.scale TimeUnit.second.inSeconds = 1 := rfl
  have hadded : ∀ m ≤ maxCount, addCount ⟨0⟩ TimeUnit.second.inSeconds m = some (.ofParts m 0) := by
    intro m hm
    refine addTo_eq_some_iff.2 ⟨?_, ?_, ?_⟩
    · rw [Span.ofParts, Nat.zero_add]
    · rw [Span.ofParts, Span.seconds, Nat.add_zero, Nat.mul_div_cancel _ (by decide)]
      exact hm
    · exact Nat.zero_le _
  rw [total?, List.foldlM_cons, Component.addTo, Component.addWhole]
  cases hcount : counted n with
  | none => rfl
  | some m =>
      obtain ⟨hm, rfl⟩ := counted_eq_some_iff.1 hcount
      simp [hscale, hcount, hadded n hm, Component.addFraction]

end MeterRadio.Time
