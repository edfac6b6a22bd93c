/-
Module: MeterRadio.Time.Limit
Purpose: Time limits as users write them: a bare number of seconds, or numbers with units.
Main exports: Time.TimeUnit, Time.Component, Time.components?, Time.limit?
-/
import MeterRadio.Number.Rounding
import MeterRadio.Text.Blank
import MeterRadio.Time.Span

namespace MeterRadio.Time

/-- A unit of a time limit. -/
inductive TimeUnit where
  | nanosecond
  | microsecond
  | millisecond
  | second
  | minute
  | hour
  | day
  | week
  | month
  | year
deriving Repr, DecidableEq

namespace TimeUnit

/-- All units, the shortest first. -/
def all : List TimeUnit :=
  [.nanosecond, .microsecond, .millisecond, .second, .minute, .hour, .day, .week, .month, .year]

/-- The words for a unit; case counts. -/
def words : TimeUnit → List String
  | .nanosecond => ["nanos", "nsec", "ns"]
  | .microsecond => ["usec", "us", "µs"]
  | .millisecond => ["millis", "msec", "ms"]
  | .second => ["seconds", "second", "secs", "sec", "s"]
  | .minute => ["minutes", "minute", "mins", "min", "m"]
  | .hour => ["hours", "hour", "hrs", "hr", "h"]
  | .day => ["days", "day", "d"]
  | .week => ["weeks", "week", "wks", "wk", "w"]
  | .month => ["months", "month", "M"]
  | .year => ["years", "year", "yrs", "yr", "y"]

/-- The unit of a word. -/
def ofWord? (word : String) : Option TimeUnit :=
  all.find? fun unit => unit.words.contains word

/-- The length of a unit in nanoseconds; a month is 30.44 days and a year 365.25 days. -/
def nanoseconds : TimeUnit → Nat
  | .nanosecond => 1
  | .microsecond => 1000
  | .millisecond => 1000000
  | .second => 1000000000
  | .minute => 60 * 1000000000
  | .hour => 3600 * 1000000000
  | .day => 86400 * 1000000000
  | .week => 604800 * 1000000000
  | .month => 2630016 * 1000000000
  | .year => 31557600 * 1000000000

/-- Multiples of a unit are counted in seconds from the second on, in nanoseconds below. -/
def inSeconds : TimeUnit → Bool
  | .nanosecond => false
  | .microsecond => false
  | .millisecond => false
  | _ => true

/-- Fractions of a unit are counted in seconds from the hour on, in nanoseconds below. -/
def fractionInSeconds : TimeUnit → Bool
  | .hour => true
  | .day => true
  | .week => true
  | .month => true
  | .year => true
  | _ => false

end TimeUnit

/-- A number with a unit, as written: a whole part and the digits after the point, if there is one.
-/
structure Component where
  whole : Nat
  fraction : List Nat
  unit : TimeUnit
deriving Repr, DecidableEq

/-! ### The written form -/

/-- A letter of a unit. -/
def isUnitLetter (c : Char) : Bool :=
  ('a' ≤ c && c ≤ 'z') || ('A' ≤ c && c ≤ 'Z') || c == 'µ'

/-- The digits in front of a text, white space among them dropped, and the rest. -/
def spacedDigits : List Char → List Nat × List Char
  | [] => ([], [])
  | c :: rest =>
    if c.isDigit then
      let (digits, after) := spacedDigits rest
      (Text.digit c :: digits, after)
    else if Text.isBlank c then spacedDigits rest
    else ([], c :: rest)

/-- Reads one or more digits in front of a text, white space before, among and behind them
dropped. -/
def spaced? (chars : List Char) : Option (List Nat × List Char) :=
  let (digits, after) := spacedDigits chars
  if digits.isEmpty then none else some (digits, after)

/-- Reads a point and the digits after it, if there is a point; digits must follow it. -/
def fraction? : List Char → Option (List Nat × List Char)
  | '.' :: rest => spaced? rest
  | rest => some ([], rest)

/-- Reads a unit. It ends at a digit, at white space or with the text. -/
def unit? (chars : List Char) : Option (TimeUnit × List Char) := do
  let unit ← TimeUnit.ofWord? (String.ofList (chars.takeWhile isUnitLetter))
  match chars.dropWhile isUnitLetter with
  | [] => some (unit, [])
  | c :: rest => if c.isDigit || Text.isBlank c then some (unit, c :: rest) else none

/-- The number that decimal digits make, the first one highest. -/
def decimalValue (digits : List Nat) : Nat :=
  digits.foldl (fun value d => 10 * value + d) 0

/-- Reads a number and its unit. -/
def component? (chars : List Char) : Option (Component × List Char) := do
  let (digits, rest) ← spaced? chars
  let (fraction, rest) ← fraction? rest
  let (unit, rest) ← unit? rest
  pure (⟨decimalValue digits, fraction, unit⟩, rest)

/-- Reads components up to the end of the text, at most `fuel` of them. -/
def componentsFrom : Nat → List Char → Option (List Component)
  | 0, _ => none
  | fuel + 1, chars => do
    let (component, rest) ← component? chars
    if (Text.trimStart rest).isEmpty then pure [component]
    else (componentsFrom fuel rest).map (component :: ·)

/-- Reads a text of one or more components. -/
def components? (chars : List Char) : Option (List Component) :=
  componentsFrom (chars.length + 1) chars

/-! ### The value -/

/-- Limit of every count on the way: sixty-four bits. -/
def maxCount : Nat := 0xFFFFFFFFFFFFFFFF

/-- Keeps a count of at most sixty-four bits. -/
def counted (n : Nat) : Option Nat := Text.within maxCount n

/-- Seconds and nanoseconds added to a span, those nanoseconds that make whole seconds carried over.
No count on the way may pass sixty-four bits. -/
def addTo (total : Span) (seconds nanoseconds : Nat) : Option Span := do
  let fine ← counted (total.subsecond + nanoseconds)
  let extra ← counted (seconds + fine / Span.perSecond)
  let whole ← counted (total.seconds + extra)
  pure (.ofParts whole (fine % Span.perSecond))

/-- A unit in seconds or in nanoseconds. -/
def TimeUnit.scale (unit : TimeUnit) (inSeconds : Bool) : Nat :=
  if inSeconds then unit.nanoseconds / Span.perSecond else unit.nanoseconds

/-- A count added in seconds or in nanoseconds. -/
def addCount (total : Span) (inSeconds : Bool) (count : Nat) : Option Span :=
  if inSeconds then addTo total count 0 else addTo total 0 count

/-- Adds the whole part of a component. -/
def Component.addWhole (c : Component) (total : Span) : Option Span := do
  let whole ← counted c.whole
  let count ← counted (whole * c.unit.scale c.unit.inSeconds)
  addCount total c.unit.inSeconds count

/-- Adds the fraction of a component: its digits over a power of ten. It has to come to a whole
count, and there is none of nanoseconds. -/
def Component.addFraction (c : Component) (total : Span) : Option Span :=
  if c.fraction.isEmpty then some total
  else if c.unit = .nanosecond then none
  else do
    let numerator ← counted (decimalValue c.fraction)
    let denominator ← counted (Number.tenTo c.fraction.length)
    let scaled ← counted (numerator * c.unit.scale c.unit.fractionInSeconds)
    if scaled % denominator = 0 then
      addCount total c.unit.fractionInSeconds (scaled / denominator)
    else none

/-- Adds a component, its whole part first. -/
def Component.addTo (c : Component) (total : Span) : Option Span :=
  (c.addWhole total).bind c.addFraction

/-- The sum of components. -/
def total? (components : List Component) : Option Span :=
  components.foldlM (fun total c => c.addTo total) ⟨0⟩

/-- The span of a text without white space at its ends: a bare number of seconds, or
components. -/
def span? (chars : List Char) : Option Span :=
  match Text.natural? maxCount chars with
  | some seconds => some (.ofParts seconds 0)
  | none => (components? chars).bind total?

/-- A span as a limit; that of zero sets none. -/
def limitOf (span : Span) : Option Span :=
  if span.nanoseconds = 0 then none else some span

/-- The time limit of a text. The error is the text without white space at its ends. -/
def limit? (text : String) : Except String (Option Span) :=
  let chars := Text.trim text.toList
  match span? chars with
  | none => .error (String.ofList chars)
  | some span => .ok (limitOf span)

end MeterRadio.Time
