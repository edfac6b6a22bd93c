/-
Module: MeterRadio.Proofs.CivilDates
Purpose: The calendar counts every day once: the date of a day is one the calendar has, and the days
  to that date are the day.
Main exports: Time.Date.toDays_ofDays, Time.Date.isValid_ofDays
-/
import Mathlib.Tactic.IntervalCases
import MeterRadio.Time.Calendar

namespace MeterRadio.Time.Date

/-- A day of an era by the centuries, the groups of four years, the years and the days before it.
A year has a day more if it ends a group, unless the group ends a century that does not end the
era. -/
structure Parts where
  century : Nat
  group : Nat
  year : Nat
  day : Nat
  century_le : century ≤ 3
  group_le : group ≤ 24
  year_le : year ≤ 3
  day_le : day < 365 ∨ day = 365 ∧ year = 3 ∧ (group < 24 ∨ century = 3)

namespace Parts

/-- The year of the era, counted from the first of March. -/
def yearOfEra (p : Parts) : Nat := 100 * p.century + 4 * p.group + p.year

/-- The day of the era. -/
def dayOfEra (p : Parts) : Nat :=
  36524 * p.century + 1461 * p.group + 365 * p.year + p.day

theorem exists_parts {n : Nat} (h : n < 146097) : ∃ p : Parts, p.dayOfEra = n := by
  let century := min 3 (n / 36524)
  let afterCentury := n - 36524 * century
  let group := afterCentury / 1461
  let afterGroup := afterCentury % 1461
  let year := min 3 (afterGroup / 365)
  have hcentury : century ≤ 3 := Nat.min_le_left _ _
  have hafter : afterCentury < 36524 ∨ century = 3 ∧ afterCentury ≤ 36524 := by omega
  have hgroup : group ≤ 24 := by omega
  have hyear : year ≤ 3 := Nat.min_le_left _ _
  have hday : afterGroup - 365 * year < 365 ∨
      afterGroup - 365 * year = 365 ∧ year = 3 ∧ (group < 24 ∨ century = 3) := by omega
  refine ⟨⟨century, group, year, afterGroup - 365 * year, hcentury, hgroup, hyear, hday⟩, ?_⟩
  change 36524 * century + 1461 * group + 365 * year + (afterGroup - 365 * year) = n
  omega

theorem yearOfEra_lt (p : Parts) : p.yearOfEra < 400 := by
  have hcentury := p.century_le
  have hgroup := p.group_le
  have hyear := p.year_le
  unfold yearOfEra
  omega

theorem day_lt (p : Parts) : p.day < 366 := by
  rcases p.day_le with h | ⟨h, -⟩ <;> omega

theorem daysBefore_yearOfEra (p : Parts) : daysBefore p.yearOfEra + p.day = p.dayOfEra := by
  have hgroup := p.group_le
  have hyear := p.year_le
  have hgroups : p.yearOfEra / 4 = 25 * p.century + p.group := by
    unfold yearOfEra
    omega
  have hcenturies : p.yearOfEra / 100 = p.century := by
    unfold yearOfEra
    omega
  unfold daysBefore
  rw [hgroups, hcenturies]
  unfold yearOfEra dayOfEra
  omega

theorem rest_lt (p : Parts) : 1461 * p.group + 365 * p.year + p.day < 36524 ∨
    p.century = 3 ∧ 1461 * p.group + 365 * p.year + p.day = 36524 := by
  have hgroup := p.group_le
  have hyear := p.year_le
  rcases p.day_le with h | ⟨h, hlast, hleap⟩
  · omega
  · omega

/-- The days that leap years add, taken out again, leave years of 365 days. -/
theorem yearOfEra_eq (p : Parts) :
    (p.dayOfEra - p.dayOfEra / 1460 + p.dayOfEra / 36524 - p.dayOfEra / 146096) / 365 =
      p.yearOfEra := by
  have hcentury := p.century_le
  have hgroup := p.group_le
  have hyear := p.year_le
  have hcenturies : p.dayOfEra / 36524 = p.century + p.dayOfEra / 146096 := by
    unfold dayOfEra
    rcases p.rest_lt with h | ⟨hlast, h⟩
    · have hera : (36524 * p.century + 1461 * p.group + 365 * p.year + p.day) / 146096 = 0 := by
        omega
      omega
    · omega
  -- all leap days but those of the last year have come by the last day of a group
  have hleaps : ∃ δ ≤ 1, δ ≤ p.day ∧ p.day < 365 + δ ∧
      p.dayOfEra / 1460 = 25 * p.century + p.group + δ := by
    unfold dayOfEra
    rcases p.day_le with hday | ⟨hday, hlast, -⟩
    · by_cases hlate : 1460 ≤ 24 * p.century + p.group + 365 * p.year + p.day
      · exact ⟨1, by omega, by omega, by omega, by omega⟩
      · exact ⟨0, by omega, by omega, by omega, by omega⟩
    · exact ⟨1, by omega, by omega, by omega, by omega⟩
  rcases hleaps with ⟨δ, -, hδ, hday, hleaps⟩
  have hdays : p.dayOfEra - p.dayOfEra / 1460 + p.dayOfEra / 36524 - p.dayOfEra / 146096 =
      365 * p.yearOfEra + (p.day - δ) := by
    rw [hleaps, hcenturies]
    unfold dayOfEra yearOfEra
    omega
  rw [hdays]
  omega

/-- The month, counted from March as 0. -/
def month (p : Parts) : Nat := (5 * p.day + 2) / 153

theorem month_lt (p : Parts) : p.month < 12 := by
  have hday := p.day_lt
  unfold month
  omega

/-- The date, the year beginning in January. -/
def date (era : Int) (p : Parts) : Date :=
  { year := era * 400 + p.yearOfEra + (if p.month < 10 then 0 else 1)
    month := if p.month < 10 then p.month + 3 else p.month - 9
    day := p.day - (153 * p.month + 2) / 5 + 1 }

end Parts

theorem ofDays_eq_date (days : Int) :
    ∃ (era : Int) (p : Parts), days + 719468 = era * 146097 + p.dayOfEra ∧
      ofDays days = p.date era := by
  have hlt : ((days + 719468) % 146097).toNat < 146097 := by omega
  rcases Parts.exists_parts hlt with ⟨p, hp⟩
  refine ⟨(days + 719468) / 146097, p, by omega, ?_⟩
  have hbefore := p.daysBefore_yearOfEra
  have hday : p.dayOfEra - daysBefore p.yearOfEra = p.day := by omega
  unfold ofDays
  simp only [← hp, p.yearOfEra_eq, hday, Parts.date, Date.mk.injEq]
  have hmonth := p.month_lt
  unfold Parts.month at hmonth ⊢
  refine ⟨?_, rfl, rfl⟩
  by_cases h : (5 * p.day + 2) / 153 < 10
  · have hspring : ¬ (5 * p.day + 2) / 153 + 3 ≤ 2 := by omega
    rw [if_pos h, if_neg hspring, if_pos h]
  · have hwinter : (5 * p.day + 2) / 153 - 9 ≤ 2 := by omega
    rw [if_neg h, if_pos hwinter, if_neg h]

namespace Parts

variable (era : Int) (p : Parts)

/-- The years from March on are those of the parts again. -/
theorem march_date :
    (if (p.date era).month ≤ 2 then (p.date era).year - 1 else (p.date era).year) =
        era * 400 + p.yearOfEra ∧
      (if (p.date era).month ≤ 2 then (p.date era).month + 9 else (p.date era).month - 3) =
        p.month := by
  have hmonth := p.month_lt
  unfold date
  by_cases h : p.month < 10
  · have hspring : ¬ p.month + 3 ≤ 2 := by omega
    simp only [if_pos h, if_neg hspring]
    omega
  · have hwinter : p.month - 9 ≤ 2 := by omega
    simp only [if_neg h, if_pos hwinter]
    omega

theorem toDays_date : (p.date era).toDays = era * 146097 + p.dayOfEra - 719468 := by
  rcases march_date era p with ⟨hyear, hmonth⟩
  have hlt := p.yearOfEra_lt
  have hera : (era * 400 + p.yearOfEra) / 400 = era := by omega
  have hrest : ((era * 400 + p.yearOfEra) % 400).toNat = p.yearOfEra := by omega
  have hday : (153 * p.month + 2) / 5 + ((p.date era).day - 1) = p.day := by
    change (153 * p.month + 2) / 5 + (p.day - (153 * p.month + 2) / 5 + 1 - 1) = p.day
    unfold month
    omega
  unfold toDays
  simp only [hyear, hmonth, hera, hrest, hday, p.daysBefore_yearOfEra]

/-- Only the year that ends with a leap day has 366 days. -/
theorem isLeap_date (hday : p.day = 365) : isLeap (era * 400 + p.yearOfEra + 1) = true := by
  have hgroup := p.group_le
  have hcentury := p.century_le
  rcases p.day_le with h | ⟨-, hyear, hleap⟩
  · omega
  · have hfour : (era * 400 + p.yearOfEra + 1) % 4 = 0 := by
      unfold yearOfEra
      omega
    have hcenturies : (era * 400 + p.yearOfEra + 1) % 100 ≠ 0 ∨
        (era * 400 + p.yearOfEra + 1) % 400 = 0 := by
      unfold yearOfEra
      omega
    unfold isLeap
    rw [hfour]
    simpa using hcenturies

theorem day_le_daysIn : (p.date era).day ≤ daysIn (p.date era).year (p.date era).month := by
  have hlt := p.day_lt
  have hmonth := p.month_lt
  have hleap := isLeap_date era p
  have hlow : 153 * p.month ≤ 5 * p.day + 2 := by
    unfold month
    omega
  have hhigh : 5 * p.day + 2 < 153 * p.month + 153 := by
    unfold month
    omega
  unfold date
  generalize p.month = m at hmonth hlow hhigh
  interval_cases m
  all_goals simp only [daysIn, Nat.reduceLT, Nat.reduceAdd, Nat.reduceSub, Nat.reduceMul,
    Nat.reduceEqDiff, if_true, if_false, Nat.reduceDiv, or_true, or_false]
  all_goals try omega
  split
  · omega
  · next hcommon =>
      have hshort : p.day ≠ 365 := fun hday => hcommon (hleap hday)
      omega

end Parts

/-- The days to the date of a day are the day. -/
theorem toDays_ofDays (days : Int) : (ofDays days).toDays = days := by
  rcases ofDays_eq_date days with ⟨era, p, hdays, hdate⟩
  rw [hdate, Parts.toDays_date]
  omega

/-- The date of a day is one the calendar has, if its year can be written. -/
theorem isValid_ofDays {days : Int} (hfirst : firstYear ≤ (ofDays days).year)
    (hlast : (ofDays days).year ≤ lastYear) : (ofDays days).isValid = true := by
  rcases ofDays_eq_date days with ⟨era, p, -, hdate⟩
  rw [hdate] at hfirst hlast ⊢
  have hmonth := p.month_lt
  have hday := p.day_le_daysIn era
  have hpos : 1 ≤ (p.date era).day := Nat.succ_pos _
  have hyear : 1 ≤ (p.date era).month ∧ (p.date era).month ≤ 12 := by
    unfold Parts.date
    dsimp only
    split <;> omega
  simp only [isValid, decide_eq_true hfirst, decide_eq_true hlast, decide_eq_true hyear.1,
    decide_eq_true hyear.2, decide_eq_true hpos, decide_eq_true hday, Bool.and_self]

end MeterRadio.Time.Date
