/-
Module: MeterRadio.Time.Timestamp
Purpose: Points in time in UTC and their RFC 3339 text.
Main exports: Time.Timestamp, Time.Timestamp.text, Time.Timestamp.ofText?
-/
import MeterRadio.Number.Rounding
import MeterRadio.Text.Blank
import MeterRadio.Text.Numeral
import MeterRadio.Time.Calendar

namespace MeterRadio.Time

/-- A point in time: seconds since 1970 and nanoseconds beyond them. From a thousand million
nanoseconds on it lies in the leap second that follows. -/
structure Timestamp where
  seconds : Int
  nanos : Nat
deriving Repr, DecidableEq

namespace Timestamp

/-- The start of 1970. -/
def epoch : Timestamp := ⟨0, 0⟩

/-- Nanoseconds in a second. -/
def perSecond : Nat := 1000000000

/-- The date of a point in time. -/
def date (t : Timestamp) : Date := .ofDays (t.seconds / 86400)

/-- Seconds since midnight, a leap second not counted. -/
def secondOfDay (t : Timestamp) : Nat := (t.seconds % 86400).toNat

/-- The second of the minute; a leap second is the sixty-first. -/
def second (t : Timestamp) : Nat := t.secondOfDay % 60 + t.nanos / perSecond

/-- Nanoseconds beyond the second. -/
def fraction (t : Timestamp) : Nat := t.nanos % perSecond

/-- How many digits the fraction of a second has. -/
inductive Precision where
  /-- Three digits, the rest cut off. -/
  | millis
  /-- None, three, six or nine, the fewest that are exact. -/
  | fewest
deriving Repr, DecidableEq

/-- Four digits; beyond them, and for years before the year 0, with a sign. -/
def yearText (year : Int) : String :=
  if 0 ≤ year ∧ year ≤ 9999 then Text.zeroPadded 4 year.toNat
  else (if year < 0 then "-" else "+") ++ Text.zeroPadded 4 year.natAbs

/-- A point and the digits of a fraction of a second. -/
def fractionText (nanos : Nat) : Precision → String
  | .millis => "." ++ Text.zeroPadded 3 (nanos / 1000000)
  | .fewest =>
    if nanos = 0 then ""
    else if nanos % 1000000 = 0 then "." ++ Text.zeroPadded 3 (nanos / 1000000)
    else if nanos % 1000 = 0 then "." ++ Text.zeroPadded 6 (nanos / 1000)
    else "." ++ Text.zeroPadded 9 nanos

/-- Date and time in UTC. -/
def text (precision : Precision) (t : Timestamp) : String :=
  let date := t.date
  let s := t.secondOfDay
  yearText date.year ++ "-" ++ Text.zeroPadded 2 date.month
    ++ "-" ++ Text.zeroPadded 2 date.day
    ++ "T" ++ Text.zeroPadded 2 (s / 3600) ++ ":" ++ Text.zeroPadded 2 (s / 60 % 60)
    ++ ":" ++ Text.zeroPadded 2 t.second ++ fractionText t.fraction precision ++ "Z"

/-! ### Reading -/

/-- Reads at least one digit and at most `most` of them. -/
def number? (most : Nat) (chars : List Char) : Option (Nat × List Char) :=
  let digits := (chars.take most).takeWhile Char.isDigit
  if digits.isEmpty then none
  else some (Text.digitsValue digits, chars.drop digits.length)

/-- Reads white space and a number of one or two digits. -/
def pair? (chars : List Char) : Option (Nat × List Char) :=
  number? 2 (Text.trimStart chars)

/-- Reads white space and the given character. -/
def mark? (c : Char) (chars : List Char) : Option (List Char) :=
  match Text.trimStart chars with
  | d :: rest => if d = c then some rest else none
  | [] => none

/-- Reads a year: up to four digits, or any number of them after a sign. -/
def year? (chars : List Char) : Option (Int × List Char) :=
  match Text.trimStart chars with
  | '-' :: rest => (number? rest.length rest).map fun (n, after) => (-(n : Int), after)
  | '+' :: rest => (number? rest.length rest).map fun (n, after) => ((n : Int), after)
  | rest => (number? 4 rest).map fun (n, after) => ((n : Int), after)

/-- Reads a fraction of a second, if a point stands in front; digits beyond nine are dropped. -/
def fraction? (chars : List Char) : Option (Nat × List Char) :=
  match chars with
  | '.' :: rest =>
    let digits := rest.takeWhile Char.isDigit
    let kept := digits.take 9
    if digits.isEmpty then none
    else some (Text.digitsValue kept * Number.tenTo (9 - kept.length), rest.drop digits.length)
  | _ => some (0, chars)

/-- Reads exactly two digits. -/
def twoDigits? (chars : List Char) : Option (Nat × List Char) :=
  match chars with
  | a :: b :: rest =>
    if a.isDigit && b.isDigit then some (10 * Text.digit a + Text.digit b, rest) else none
  | _ => none

/-- Reads hours and minutes of a distance from UTC, with colons or white space between them. -/
def distance? (chars : List Char) : Option (Nat × List Char) := do
  let (hours, rest) ← twoDigits? chars
  let (minutes, rest) ← twoDigits? (rest.dropWhile fun c => c == ':' || Text.isBlank c)
  if hours < 24 ∧ minutes < 60 then pure (hours * 3600 + minutes * 60, rest) else none

/-- Reads a time zone as seconds east of UTC: the letter Z, the letters UTC, or a sign and a
distance. -/
def zone? (chars : List Char) : Option (Int × List Char) :=
  if (chars.take 3).map Char.toLower = ['u', 't', 'c'] then some (0, chars.drop 3)
  else
    match chars with
    | c :: rest =>
      if c = 'Z' ∨ c = 'z' then some (0, rest)
      else if c = '+' then (distance? rest).map fun (n, after) => ((n : Int), after)
      else if c = '-' ∨ c = '−' then (distance? rest).map fun (n, after) => (-(n : Int), after)
      else none
    | [] => none

/-- Reads a point in time: date, letter T or blank, time, time zone. White space may stand
around the parts of the date and of the time. -/
def ofChars? (chars : List Char) : Option Timestamp := do
  let (year, rest) ← year? chars
  let rest ← mark? '-' rest
  let (month, rest) ← pair? rest
  let rest ← mark? '-' rest
  let (day, rest) ← pair? rest
  let rest ← match rest with
    | c :: after => if c = 'T' ∨ c = 't' ∨ c = ' ' then some after else none
    | [] => none
  let (hour, rest) ← pair? rest
  let rest ← mark? ':' rest
  let (minute, rest) ← pair? rest
  let rest ← mark? ':' rest
  let (second, rest) ← pair? rest
  let (nanos, rest) ← fraction? rest
  let (zone, rest) ← zone? (Text.trimStart rest)
  let date : Date := ⟨year, month, day⟩
  let inDay := decide (hour < 24) && decide (minute < 60) && decide (second ≤ 60)
  let seconds := date.toDays * 86400
    + (hour * 3600 + minute * 60 + min second 59 : Nat) - zone
  let year := (Date.ofDays (seconds / 86400)).year
  if (Text.trimStart rest).isEmpty && date.isValid && inDay
      && decide (Date.firstYear ≤ year) && decide (year ≤ Date.lastYear) then
    pure ⟨seconds, nanos + (if second = 60 then perSecond else 0)⟩
  else none

/-- Reads RFC 3339 text. -/
def ofText? (text : String) : Option Timestamp := ofChars? text.toList

end Timestamp
end MeterRadio.Time
