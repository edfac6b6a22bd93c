/-
Module: MeterRadio.Config
Purpose: What a run is to do, checked and complete.
Main exports: Config, Config.ofArguments, Config.list?, ConfigError
-/
import MeterRadio.CommandLine
import MeterRadio.Envelope
import MeterRadio.Files
import MeterRadio.Filter
import MeterRadio.Log.Format
import MeterRadio.Protocol
import MeterRadio.Time.Limit

namespace MeterRadio

/-- Why arguments make no configuration. -/
inductive ConfigError where
  | symbolLength (length : Nat)
  | gain (decibels : Number.Binary64)
  | protocol (text : String)
  | meter (item : String)
  | meterType (item : String)
  | format (text : String)
  | duration (text : String)

namespace Config

/-- The greatest number of samples per chip: more would exceed the sample rate that a tuner can
be told. -/
def maxSymbolLength : Nat := 0xFFFFFFFF / Protocol.dataRate

end Config

/-- The wording of a configuration error. -/
def ConfigError.message : ConfigError → String
  | .symbolLength length =>
    "symbol length must be between 1 and " ++ Text.decimal Config.maxSymbolLength ++ ", got "
      ++ Text.decimal length
  | .gain decibels => "invalid tuner gain: " ++ decibels.text ++ " dB"
  | .protocol text => Protocol.unknownMessage text
  | .meter item => "invalid meter id in filter: " ++ Text.quoted item
  | .meterType item => "invalid meter type in filter: " ++ Text.quoted item
  | .format text => Log.Format.unknownMessage text
  | .duration text =>
    "invalid duration: " ++ Text.quoted text ++ " (examples: 90, 90s, 5m, 1h30m)"

/-- Where samples come from. -/
inductive SampleOrigin where
  | server (address : String)
  | replay (path : String)
deriving Repr, DecidableEq

/-- An origin as it is shown. -/
def SampleOrigin.text : SampleOrigin → String
  | .server address => "RtlTcp(" ++ Text.quoted address ++ ")"
  | .replay path => "Replay(" ++ Text.quotedPath path ++ ")"

/-- What a run is to do. -/
structure Config where
  origin : SampleOrigin
  protocol : Protocol
  /-- Samples per chip. -/
  symbolLength : Nat
  fastMagnitude : Bool
  filterIds : List UInt32
  filterTypes : List UInt8
  format : Log.Format
  logFile : String
  /-- The file for samples, if they are to be kept. -/
  sampleFile : Option String
  single : Bool
  timeLimit : Option Time.Span
  threshold : Trace.Threshold
  tuner : Tuner.Settings
deriving Repr, DecidableEq

namespace Config

/-! ### Lists -/

/-- The items of a comma-separated text without white space at their ends, blank ones left
out. -/
def items (chars : List Char) : List (List Char) :=
  ((chars.splitOn ',').map Text.trim).filter fun item => !item.isEmpty

/-- The number of an item, at most `limit`; the error is the item. -/
def item? (limit : Nat) (item : List Char) : Except String Nat :=
  match Text.natural? limit item with
  | some n => .ok n
  | none => .error (String.ofList item)

/-- The numbers of a comma-separated text, each at most `limit`; or the first item that is no
such number. -/
def list? (limit : Nat) (text : String) : Except String (List Nat) :=
  (items text.toList).mapM (item? limit)

/-! ### Values -/

/-- The device that stands for no sample file. -/
def nowhere : String := "/dev/null"

/-- Where the log goes if nothing is said of it. -/
def standardOutput : String := "/dev/stdout"

/-- The server asked if nothing is said of it. -/
def defaultServer : String := "127.0.0.1:1234"

/-- Samples per chip if nothing is said of them. -/
def defaultSymbolLength : Nat := 72

/-- The greatest gain in decibels. -/
def maxGain : Nat := 100

/-- The symbol length, if there is a sample rate for it. -/
def checkedSymbolLength (length : Nat) : Except ConfigError Nat :=
  if 1 ≤ length ∧ length ≤ maxSymbolLength then .ok length else .error (.symbolLength length)

/-- A gain in tenths of a decibel, rounded half up. -/
def checkedGain : Option Number.Binary64 → Except ConfigError (Option UInt32)
  | none => .ok none
  | some decibels =>
    if decibels.inRange maxGain then .ok (some (UInt32.ofNat (decibels.scale 10).round))
    else .error (.gain decibels)

/-- The protocol of a name. -/
def checkedProtocol (text : String) : Except ConfigError Protocol :=
  match Protocol.ofName? text with
  | some protocol => .ok protocol
  | none => .error (.protocol text)

/-- The format of a name. -/
def checkedFormat (text : String) : Except ConfigError Log.Format :=
  match Log.Format.ofName? text with
  | some format => .ok format
  | none => .error (.format text)

/-- The threshold `verbose` steps above the usual one or `quiet` steps below it. -/
def thresholdOf (verbose quiet : Nat) : Trace.Threshold :=
  match verbose, quiet with
  | 0, 0 => some .info
  | 0, 1 => some .warn
  | 0, 2 => some .error
  | 0, _ => none
  | 1, _ => some .debug
  | _, _ => some .trace

/-- The configuration of the arguments given. The checks are made in this order. -/
def ofArguments (a : CommandLine.Arguments) : Except ConfigError Config := do
  let symbolLength ← checkedSymbolLength (a.symbolLength.getD defaultSymbolLength)
  let gain ← checkedGain a.gain
  let protocol ← checkedProtocol (a.messageType.getD "scm")
  let ids ← (list? 0xFFFFFFFF (a.filterIds.getD "")).mapError .meter
  let types ← (list? 0xFF (a.filterTypes.getD "")).mapError .meterType
  let format ← checkedFormat (a.format.getD "plain")
  let timeLimit ← (Time.limit? (a.duration.getD "0")).mapError .duration
  let sampleFile := a.sampleFile.getD nowhere
  return {
    origin := match a.replay with
      | some path => .replay path
      | none => .server (a.server.getD defaultServer)
    protocol, symbolLength
    fastMagnitude := a.fastMagnitude.getD false
    filterIds := ids.map UInt32.ofNat
    filterTypes := types.map UInt8.ofNat
    format
    logFile := a.logFile.getD standardOutput
    sampleFile := if Files.samePath sampleFile nowhere then none else some sampleFile
    single := a.single.getD false
    timeLimit
    threshold := thresholdOf a.verbose a.quiet
    tuner := { a.tuner with gain } }

/-- Samples per second that the decoder expects. -/
def sampleRate (c : Config) : UInt32 := UInt32.ofNat (Protocol.dataRate * c.symbolLength)

/-- What the decoder has to know. -/
def profile (c : Config) : Profile := c.protocol.profile c.symbolLength

/-- How strengths are computed. -/
def mode (c : Config) : Envelope.Mode := if c.fastMagnitude then .fast else .exact

/-- Which messages are logged. -/
def filter (c : Config) : MeterFilter := ⟨c.filterIds, c.filterTypes⟩

/-- Whether the log goes to the standard output. -/
def logsToOutput (c : Config) : Bool :=
  Files.samePath c.logFile standardOutput || Files.samePath c.logFile "-"

end Config
end MeterRadio
