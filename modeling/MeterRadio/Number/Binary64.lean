/-
Module: MeterRadio.Number.Binary64
Purpose: Double-precision numbers as exact values: from decimal text, in order, times a whole
  number, to the nearest integer, and back to their shortest decimal text.
Main exports: Binary64, Binary64.ofText?, Binary64.inRange, Binary64.scale, Binary64.round,
  Binary64.text
-/
import MeterRadio.Number.Rounding
import MeterRadio.Text.Numeral

namespace MeterRadio.Number

/-- A double: `significand * 2 ^ exponent` with a sign, an infinity, or no number. -/
inductive Binary64 where
  | finite (negative : Bool) (significand : Nat) (exponent : Int)
  | infinite (negative : Bool)
  | notANumber
deriving Repr, DecidableEq, Inhabited

namespace Binary64

/-- Least exponent of a significand's last bit. -/
def minExponent : Int := -1074

/-- Greatest exponent of a significand's last bit. -/
def maxExponent : Int := 971

/-- Rounds `num / den * 2 ^ -exponent` to an integer, the even one of two equally near. -/
def roundAt (num den : Nat) (exponent : Int) : Nat :=
  roundDiv (num <<< (-exponent).toNat) (den <<< exponent.toNat)

/-- The exponent at which `num / den` has a significand of 53 bits, or the least exponent. -/
def exponentFor (num den : Nat) : Int :=
  let e : Int := (num.log2 : Int) - (den.log2 : Int) - 52
  let short := num <<< (-e).toNat < den <<< (52 + e.toNat)
  max (if short then e - 1 else e) minExponent

/-- The double nearest to `num / den`, with a sign. -/
def ofRatio (negative : Bool) (num den : Nat) : Binary64 :=
  if num = 0 then .finite negative 0 minExponent
  else
    let e := exponentFor num den
    let m := roundAt num den e
    let (m, e) := if m = 1 <<< 53 then (1 <<< 52, e + 1) else (m, e)
    if e > maxExponent then .infinite negative else .finite negative m e

/-- The double nearest to `digits * 10 ^ power`, with a sign. Powers so large or so small that
the answer is certain are not computed. -/
def ofDecimal (negative : Bool) (digits : Nat) (power : Int) : Binary64 :=
  let reach : Int := power + ((Nat.toDigits 10 digits).length : Int)
  if digits = 0 then .finite negative 0 minExponent
  else if reach > 400 then .infinite negative
  else if reach < -400 then .finite negative 0 minExponent
  else ofRatio negative (digits * tenTo power.toNat) (tenTo (-power).toNat)

/-- An exponent part: nothing, or the letter e with an optional sign and digits. -/
def exponentPart? : List Char → Option Int
  | [] => some 0
  | c :: rest =>
    if c = 'e' ∨ c = 'E' then
      match rest with
      | '+' :: ds => (Text.digits? ds).map fun n => (n : Int)
      | '-' :: ds => (Text.digits? ds).map fun n => -(n : Int)
      | ds => (Text.digits? ds).map fun n => (n : Int)
    else none

/-- Digits with an optional point among them and at least one digit, then an exponent part. -/
def unsigned? (negative : Bool) (chars : List Char) : Option Binary64 :=
  let whole := chars.takeWhile Char.isDigit
  let rest := chars.dropWhile Char.isDigit
  let (fraction, rest) := match rest with
    | '.' :: after => (after.takeWhile Char.isDigit, after.dropWhile Char.isDigit)
    | _ => ([], rest)
  if whole.isEmpty && fraction.isEmpty then none
  else
    (exponentPart? rest).map fun power =>
      ofDecimal negative (Text.digitsValue (whole ++ fraction)) (power - fraction.length)

/-- A number, or one of the words for infinity and for no number in any case. -/
def magnitude? (negative : Bool) (chars : List Char) : Option Binary64 :=
  let word := Text.lowerAscii (String.ofList chars)
  if word = "inf" ∨ word = "infinity" then some (.infinite negative)
  else if word = "nan" then some .notANumber
  else unsigned? negative chars

/-- Reads decimal text with an optional sign. -/
def ofText? (text : String) : Option Binary64 :=
  match text.toList with
  | '+' :: rest => magnitude? false rest
  | '-' :: rest => magnitude? true rest
  | chars => magnitude? false chars

/-- Whether a value lies between zero and a whole number, both included; minus zero does. -/
def inRange (limit : Nat) : Binary64 → Bool
  | .finite negative m e =>
    m == 0 || (!negative && decide (m <<< e.toNat ≤ limit <<< (-e).toNat))
  | _ => false

/-- The double nearest to a value times a whole number. -/
def scale (factor : Nat) : Binary64 → Binary64
  | .finite negative m e => ofRatio negative ((factor * m) <<< e.toNat) (1 <<< (-e).toNat)
  | other => other

/-- The nearest natural number, of two the greater; zero for what is not a positive number. -/
def round : Binary64 → Nat
  | .finite false m e => ((m <<< (e.toNat + 1)) + (1 <<< (-e).toNat)) >>> ((-e).toNat + 1)
  | _ => 0

/-! ### Shortest decimal text -/

/-- A positive double in units of a quarter of its last bit: value, lower and upper end of the
numbers that round to it, the unit's exponent, and whether the ends belong to them. -/
structure Interval where
  value : Nat
  low : Nat
  high : Nat
  exponent : Int
  closed : Bool

/-- The numbers that round to a positive double. Below a power of two they lie twice as close. -/
def interval (significand : Nat) (exponent : Int) : Interval :=
  let narrow := significand = 1 <<< 52 ∧ minExponent < exponent
  { value := 4 * significand
    low := if narrow then 4 * significand - 1 else 4 * significand - 2
    high := 4 * significand + 2
    exponent := exponent - 2
    closed := significand % 2 = 0 }

/-- Compares `digits * 10 ^ power` with `n * 2 ^ exponent`. -/
def compareDecimal (digits : Nat) (power : Int) (n : Nat) (exponent : Int) : Ordering :=
  compare ((digits * tenTo power.toNat) <<< (-exponent).toNat)
    ((n <<< exponent.toNat) * tenTo (-power).toNat)

/-- Whether `digits * 10 ^ power` rounds to the double of the interval. -/
def Interval.holds (i : Interval) (digits : Nat) (power : Int) : Bool :=
  let low := compareDecimal digits power i.low i.exponent
  let high := compareDecimal digits power i.high i.exponent
  (low == .gt || (low == .eq && i.closed)) && (high == .lt || (high == .eq && i.closed))

/-- The largest number of the grid `10 ^ power` that is at most the value. -/
def Interval.floorAt (i : Interval) (power : Int) : Nat :=
  ((i.value <<< i.exponent.toNat) * tenTo (-power).toNat)
    / (tenTo power.toNat <<< (-i.exponent).toNat)

/-- Of the two neighbours of the value on the grid `10 ^ power`, the nearest that rounds to it; of
two equally near the greater. -/
def Interval.onGrid (i : Interval) (power : Int) : Option Nat :=
  let below := i.floorAt power
  let takesAbove := compareDecimal (2 * below + 1) power (2 * i.value) i.exponent != .gt
  let first := if takesAbove then below + 1 else below
  let second := if takesAbove then below else below + 1
  if i.holds first power then some first
  else if i.holds second power then some second
  else none

/-- The coarsest grid, tried from `power` downwards, that holds a number of the interval. -/
def Interval.shortest (i : Interval) : Nat → Int → Nat × Int
  | 0, power => (i.floorAt power, power)
  | fuel + 1, power =>
    match i.onGrid power with
    | some digits => if digits = 0 then i.shortest fuel (power - 1) else (digits, power)
    | none => i.shortest fuel (power - 1)

/-- An exponent of ten above the leading digit of a positive double. -/
def powerAbove (significand : Nat) (exponent : Int) : Int :=
  ((significand.log2 : Int) + 1 + exponent) * 302 / 1000 + 2

/-- `digits * 10 ^ power` written with a point and never with an exponent. -/
def positional (digits : Nat) (power : Int) : String :=
  let ds := Nat.toDigits 10 digits
  if 0 ≤ power then String.ofList (ds ++ List.replicate power.toNat '0')
  else
    let places := (-power).toNat
    let filled := List.leftpad (places + 1) '0' ds
    String.ofList (filled.take (filled.length - places) ++ ['.']
      ++ filled.drop (filled.length - places))

/-- The fewest digits that read back as the same double, written positionally. -/
def text : Binary64 → String
  | .notANumber => "NaN"
  | .infinite negative => if negative then "-inf" else "inf"
  | .finite negative m e =>
    let sign := if negative then "-" else ""
    if m = 0 then sign ++ "0"
    else
      let (digits, power) := (interval m e).shortest 800 (powerAbove m e)
      sign ++ positional digits power

end Binary64
end MeterRadio.Number
