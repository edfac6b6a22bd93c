/-
Module: MeterRadio.Trace
Purpose: Diagnostic messages with a level of severity and the part of the program they come from.
Main exports: Trace.Level, Trace.Origin, Trace.Line, Trace.Line.shown, Trace.upTo
-/
import MeterRadio.Text.Lines
import MeterRadio.Text.Numeral

namespace MeterRadio.Trace

/-- Severity of a line, the most severe first. -/
inductive Level where
  | error
  | warn
  | info
  | debug
  | trace
deriving Repr, DecidableEq

/-- Rank of a level: the more severe, the lower. -/
def Level.rank : Level → Nat
  | .error => 1
  | .warn => 2
  | .info => 3
  | .debug => 4
  | .trace => 5

/-- Name of a level in front of a line. -/
def Level.label : Level → String
  | .error => "ERROR"
  | .warn => "WARN"
  | .info => "INFO"
  | .debug => "DEBUG"
  | .trace => "TRACE"

/-- How much is shown: nothing, or every line of a level and of the more severe ones. -/
abbrev Threshold := Option Level

/-- Whether a threshold lets a level through. -/
def Level.shownAt (level : Level) : Threshold → Bool
  | none => false
  | some least => level.rank ≤ least.rank

/-- The name of a threshold. -/
def thresholdName : Threshold → String
  | none => "off"
  | some .error => "error"
  | some .warn => "warn"
  | some .info => "info"
  | some .debug => "debug"
  | some .trace => "trace"

/-- The part of the program a line comes from. -/
inductive Origin where
  | program
  | decoder
  | receiver
  | replay
  | client
deriving Repr, DecidableEq

/-- The path by which a filter names an origin. -/
def Origin.path : Origin → String
  | .program => "amr_capture"
  | .decoder => "amr_capture::decode"
  | .receiver => "amr_capture::receiver"
  | .replay => "amr_capture::sdr::file"
  | .client => "amr_capture::sdr::rtltcp"

/-- A diagnostic line. -/
structure Line where
  level : Level
  origin : Origin
  message : String
deriving Repr, DecidableEq

/-- A line at level info. -/
def info (origin : Origin) (message : String) : Line := ⟨.info, origin, message⟩

/-- A line at level debug. -/
def debug (origin : Origin) (message : String) : Line := ⟨.debug, origin, message⟩

/-- A line at level trace. -/
def trace (origin : Origin) (message : String) : Line := ⟨.trace, origin, message⟩

/-! ### What is shown of a line -/

/-- What a terminal would take for a command is spelled out: the bell, the backspace, the form
feed, the escape, the delete and the second block of control characters. -/
def escape (c : Char) : List Char :=
  if c = '\x07' then "\\x07".toList
  else if c = '\x08' then "\\x08".toList
  else if c = '\x0c' then "\\x0c".toList
  else if c = '\x1b' then "\\x1b".toList
  else if c = '\x7f' then "\\x7f".toList
  else if 0x80 ≤ c.toNat ∧ c.toNat ≤ 0x9f then
    ['\\', 'u', '\x7b'] ++ Nat.toDigits 16 c.toNat ++ ['\x7d']
  else [c]

/-- A message without commands to a terminal. -/
def plain (message : String) : String :=
  String.ofList (message.toList.flatMap escape)

/-- A line as it is shown: level, blank, message. Line feeds in the message break it up. -/
def Line.shown (line : Line) : List String :=
  Text.lines (line.level.label ++ " " ++ plain line.message)

/-- What is shown of the lines that a threshold lets through. -/
def upTo (threshold : Threshold) (lines : List Line) : List String :=
  (lines.filter fun line => line.level.shownAt threshold).flatMap Line.shown

end MeterRadio.Trace
