/-
Module: MeterRadio.Time.Span
Purpose: Lengths of time in whole nanoseconds, and their text in the largest fitting unit.
Main exports: Time.Span, Time.Span.ofParts, Time.Span.text
-/
import MeterRadio.Text.Numeral

namespace MeterRadio.Time

/-- A length of time. -/
structure Span where
  nanoseconds : Nat
deriving Repr, DecidableEq

namespace Span

/-- Nanoseconds in a second. -/
def perSecond : Nat := 1000000000

/-- Whole seconds and the nanoseconds beyond them. -/
def ofParts (seconds nanoseconds : Nat) : Span :=
  ⟨seconds * perSecond + nanoseconds⟩

/-- Whole seconds. -/
def seconds (s : Span) : Nat := s.nanoseconds / perSecond

/-- Nanoseconds beyond the whole seconds. -/
def subsecond (s : Span) : Nat := s.nanoseconds % perSecond

/-- A whole part, and a fraction of so many places without its trailing zeros. -/
def decimalText (whole fraction places : Nat) : String :=
  let digits := (Text.zeroPadded places fraction).toList
  let kept := (digits.reverse.dropWhile (· == '0')).reverse
  if fraction = 0 then Text.decimal whole
  else Text.decimal whole ++ "." ++ String.ofList kept

/-- The length in seconds, or below a second in the largest unit that gives a whole part. -/
def text (s : Span) : String :=
  let n := s.nanoseconds
  if perSecond ≤ n then decimalText (n / perSecond) (n % perSecond) 9 ++ "s"
  else if 1000000 ≤ n then decimalText (n / 1000000) (n % 1000000) 6 ++ "ms"
  else if 1000 ≤ n then decimalText (n / 1000) (n % 1000) 3 ++ "µs"
  else Text.decimal n ++ "ns"

end Span
end MeterRadio.Time
