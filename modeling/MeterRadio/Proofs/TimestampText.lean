/-
Module: MeterRadio.Proofs.TimestampText
Purpose: The text of a point in time, with as many digits as are exact, is read as that point again.
Main exports: Time.Timestamp.ofText?_text
-/
import MeterRadio.Proofs.CivilDates
import MeterRadio.Proofs.Numerals
import MeterRadio.Time.Timestamp

namespace MeterRadio.Time

open Text (zeroPadded)

namespace Date

theorem month_lt_of_isValid {d : Date} (h : d.isValid = true) : d.month < 100 := by
  simp only [isValid, Bool.and_eq_true, decide_eq_true_eq] at h
  omega

theorem day_lt_of_isValid {d : Date} (h : d.isValid = true) : d.day < 100 := by
  simp only [isValid, Bool.and_eq_true, decide_eq_true_eq] at h
  have hdays : daysIn d.year d.month ≤ 31 := by
    unfold daysIn
    split
    · split <;> omega
    · split <;> omega
  omega

end Date

namespace Timestamp

variable {n : Nat}

/-! ### Parts of the text -/

theorem number?_zeroPadded {width : Nat} (hwidth : 0 < width) (h : n < 10 ^ width)
    (rest : List Char) :
    number? width ((zeroPadded width n).toList ++ rest) = some (n, rest) := by
  have hlength := Text.length_zeroPadded hwidth h
  have hdigits : (((zeroPadded width n).toList ++ rest).take width).takeWhile Char.isDigit =
      (zeroPadded width n).toList := by
    rw [List.take_left' hlength]
    have hall := Text.takeWhile_isDigit_append (Text.isDigit_of_mem_zeroPadded width n)
      (fun c (hc : c ∈ [].head?) => nomatch hc)
    rwa [List.append_nil] at hall
  have hsome : (zeroPadded width n).toList.isEmpty = false := by
    rw [List.isEmpty_eq_false_iff_exists_mem]
    rcases Text.zeroPadded_eq_cons width n with ⟨c, digits, hchars, -⟩
    exact ⟨c, by rw [hchars]; exact List.mem_cons_self⟩
  unfold number?
  simp only [hdigits, hsome, Bool.false_eq_true, if_false, Text.digitsValue_zeroPadded,
    List.drop_left]

theorem pair?_zeroPadded (h : n < 100) (rest : List Char) :
    pair? ((zeroPadded 2 n).toList ++ rest) = some (n, rest) := by
  rw [pair?, Text.trimStart_zeroPadded]
  exact number?_zeroPadded Nat.two_pos h rest

theorem mark?_cons {c : Char} (h : Text.isBlank c = false) (rest : List Char) :
    mark? c (c :: rest) = some rest := by
  rw [mark?, Text.trimStart_cons h]
  exact if_pos rfl

/-- A year that begins with a digit has no sign. -/
theorem year?_zeroPadded (h : n < 10000) (rest : List Char) :
    year? ((zeroPadded 4 n).toList ++ rest) = some ((n : Int), rest) := by
  have hread := number?_zeroPadded (by decide : 0 < 4) h rest
  have htrim := Text.trimStart_zeroPadded 4 n rest
  rcases Text.zeroPadded_eq_cons 4 n with ⟨c, digits, hchars, hdigit⟩
  rw [hchars, List.cons_append] at hread htrim ⊢
  unfold year?
  rw [htrim]
  split
  · next heq =>
      cases heq
      cases hdigit
  · next heq =>
      cases heq
      cases hdigit
  · rw [hread]
    rfl

/-- A fraction is read as so many of the nanoseconds that its last digit counts. -/
theorem fraction?_point {width count : Nat} (hwidth : 0 < width) (hnine : width ≤ 9)
    (h : count < 10 ^ width) (hexact : count * 10 ^ (9 - width) = n) (rest : List Char) :
    fraction? ('.' :: ((zeroPadded width count).toList ++ 'Z' :: rest)) =
      some (n, 'Z' :: rest) := by
  have hlength := Text.length_zeroPadded hwidth h
  have hdigits : ((zeroPadded width count).toList ++ 'Z' :: rest).takeWhile Char.isDigit =
      (zeroPadded width count).toList := by
    refine Text.takeWhile_isDigit_append (Text.isDigit_of_mem_zeroPadded width count) ?_
    intro c hc
    cases hc
    rfl
  have hkept : (zeroPadded width count).toList.take 9 = (zeroPadded width count).toList :=
    List.take_of_length_le (hlength.trans_le hnine)
  have hsome : (zeroPadded width count).toList.isEmpty = false := by
    rw [List.isEmpty_eq_false_iff_exists_mem]
    exact List.length_pos_iff_exists_mem.1 (hlength.symm ▸ hwidth)
  unfold fraction?
  simp only [hdigits, hsome, Bool.false_eq_true, if_false, hkept, Text.digitsValue_zeroPadded,
    List.drop_left' hlength, hlength]
  change some (count * 10 ^ (9 - width), 'Z' :: rest) = some (n, 'Z' :: rest)
  rw [hexact]

/-- Whichever number of digits is the fewest, the fraction is read as it was. -/
theorem fraction?_fractionText (h : n < perSecond) (rest : List Char) :
    fraction? ((fractionText n .fewest).toList ++ 'Z' :: rest) = some (n, 'Z' :: rest) := by
  unfold perSecond at h
  unfold fractionText
  by_cases hzero : n = 0
  · rw [if_pos hzero, hzero]
    rfl
  rw [if_neg hzero]
  by_cases hmillis : n % 1000000 = 0
  · rw [if_pos hmillis, String.toList_append]
    exact fraction?_point (by decide) (by decide) (by omega) (by omega) rest
  rw [if_neg hmillis]
  by_cases hmicros : n % 1000 = 0
  · rw [if_pos hmicros, String.toList_append]
    exact fraction?_point (by decide) (by decide) (by omega) (by omega) rest
  rw [if_neg hmicros, String.toList_append]
  exact fraction?_point (by decide) (by decide) (by omega) (by omega) rest

/-! ### The whole text -/

variable {t : Timestamp}

theorem toList_text (hfirst : 0 ≤ t.date.year) (hlast : t.date.year ≤ 9999) :
    (t.text .fewest).toList =
      (zeroPadded 4 t.date.year.toNat).toList ++ '-' :: ((zeroPadded 2 t.date.month).toList ++
        '-' :: ((zeroPadded 2 t.date.day).toList ++
          'T' :: ((zeroPadded 2 (t.secondOfDay / 3600)).toList ++
            ':' :: ((zeroPadded 2 (t.secondOfDay / 60 % 60)).toList ++
              ':' :: ((zeroPadded 2 t.second).toList ++
                ((fractionText t.fraction .fewest).toList ++ ['Z'])))))) := by
  have hdash : "-".toList = ['-'] := rfl
  have hcolon : ":".toList = [':'] := rfl
  have hletter : "T".toList = ['T'] := rfl
  have hzone : "Z".toList = ['Z'] := rfl
  rw [text, yearText, if_pos ⟨hfirst, hlast⟩]
  simp only [String.toList_append, List.append_assoc, hdash, hcolon, hletter, hzone,
    List.cons_append, List.nil_append]

/-- Reading goes part by part; the time zone is the letter Z. -/
theorem ofChars?_of_parts {chars : List Char} {date : Date} {hour minute second : Nat}
    {afterYear atMonth afterMonth atDay atHour afterHour atMinute afterMinute atSecond
      afterSecond : List Char}
    (hyear : year? chars = some (date.year, afterYear))
    (hdash : mark? '-' afterYear = some atMonth)
    (hmonth : pair? atMonth = some (date.month, afterMonth))
    (hdash' : mark? '-' afterMonth = some atDay)
    (hday : pair? atDay = some (date.day, 'T' :: atHour))
    (hhour : pair? atHour = some (hour, afterHour))
    (hcolon : mark? ':' afterHour = some atMinute)
    (hminute : pair? atMinute = some (minute, afterMinute))
    (hcolon' : mark? ':' afterMinute = some atSecond)
    (hsecond : pair? atSecond = some (second, afterSecond))
    (hfraction : fraction? afterSecond = some (t.nanos, ['Z']))
    (hvalid : date.isValid = true)
    (hinDay : hour < 24 ∧ minute < 60 ∧ second < 60)
    (hseconds : date.toDays * 86400 + (hour * 3600 + minute * 60 + second : Nat) = t.seconds)
    (hyears : Date.firstYear ≤ t.date.year ∧ t.date.year ≤ Date.lastYear) :
    ofChars? chars = some t := by
  unfold ofChars?
  refine Option.bind_eq_some_iff.2 ⟨_, hyear, ?_⟩
  refine Option.bind_eq_some_iff.2 ⟨_, hdash, ?_⟩
  refine Option.bind_eq_some_iff.2 ⟨_, hmonth, ?_⟩
  refine Option.bind_eq_some_iff.2 ⟨_, hdash', ?_⟩
  refine Option.bind_eq_some_iff.2 ⟨_, hday, ?_⟩
  refine Option.bind_eq_some_iff.2 ⟨_, hhour, ?_⟩
  refine Option.bind_eq_some_iff.2 ⟨_, hcolon, ?_⟩
  refine Option.bind_eq_some_iff.2 ⟨_, hminute, ?_⟩
  refine Option.bind_eq_some_iff.2 ⟨_, hcolon', ?_⟩
  refine Option.bind_eq_some_iff.2 ⟨_, hsecond, ?_⟩
  refine Option.bind_eq_some_iff.2 ⟨_, hfraction, ?_⟩
  refine Option.bind_eq_some_iff.2 ⟨(0, []), rfl, ?_⟩
  have hmin : min second 59 = second := Nat.min_eq_left (by omega)
  have hleap : ¬ second = 60 := by omega
  have hend : (Text.trimStart []).isEmpty = true := rfl
  dsimp only
  rw [hmin, hseconds, Int.sub_zero, if_neg hleap, Nat.add_zero, hend, hvalid]
  refine if_pos ?_
  simp only [Bool.true_and, Bool.and_eq_true, decide_eq_true_eq]
  exact ⟨⟨⟨⟨hinDay.1, hinDay.2.1⟩, by omega⟩, hyears.1⟩, hyears.2⟩

/-- A point outside leap seconds, in a year of four digits, is read from its text again. -/
theorem ofText?_text (hnanos : t.nanos < perSecond) (hfirst : 0 ≤ t.date.year)
    (hlast : t.date.year ≤ 9999) : ofText? (t.text .fewest) = some t := by
  have hyears : Date.firstYear ≤ t.date.year ∧ t.date.year ≤ Date.lastYear :=
    ⟨show (-262143 : Int) ≤ t.date.year by omega, show t.date.year ≤ (262142 : Int) by omega⟩
  have hvalid : t.date.isValid = true := Date.isValid_ofDays hyears.1 hyears.2
  have hday : t.secondOfDay < 86400 := by
    unfold secondOfDay
    omega
  have hsecond : t.second = t.secondOfDay % 60 := by
    rw [second, Nat.div_eq_of_lt hnanos, Nat.add_zero]
  have hfraction : t.fraction = t.nanos := Nat.mod_eq_of_lt hnanos
  have hhour : t.secondOfDay / 3600 < 24 := by omega
  have hminute : t.secondOfDay / 60 % 60 < 60 := Nat.mod_lt _ (by decide)
  have hsixty : t.second < 60 := by omega
  have hyear : ∀ rest, year? ((zeroPadded 4 t.date.year.toNat).toList ++ rest) =
      some (t.date.year, rest) := by
    intro rest
    rw [year?_zeroPadded (by omega), Int.toNat_of_nonneg hfirst]
  have hseconds : t.date.toDays * 86400 + (t.secondOfDay / 3600 * 3600 +
      t.secondOfDay / 60 % 60 * 60 + t.second : Nat) = t.seconds := by
    have hdays : t.date.toDays = t.seconds / 86400 := Date.toDays_ofDays (t.seconds / 86400)
    rw [hdays, hsecond]
    unfold secondOfDay
    omega
  rw [ofText?, toList_text hfirst hlast, hfraction]
  exact ofChars?_of_parts (hyear _) (mark?_cons (by decide) _)
    (pair?_zeroPadded (Date.month_lt_of_isValid hvalid) _) (mark?_cons (by decide) _)
    (pair?_zeroPadded (Date.day_lt_of_isValid hvalid) _)
    (pair?_zeroPadded (hhour.trans (by decide)) _) (mark?_cons (by decide) _)
    (pair?_zeroPadded (hminute.trans (by decide)) _) (mark?_cons (by decide) _)
    (pair?_zeroPadded (hsixty.trans (by decide)) _) (fraction?_fractionText hnanos [])
    hvalid ⟨hhour, hminute, hsixty⟩ hseconds hyears

end Timestamp
end MeterRadio.Time
