/-
Module: MeterRadio.CommandLine
Purpose: The options of the program: their names, the environment variables that stand in for
  them, and how a list of arguments is read.
Main exports: CommandLine.Setting, CommandLine.Arguments, CommandLine.Refusal, CommandLine.parse
-/
import MeterRadio.Number.Binary64
import MeterRadio.Tuner

namespace MeterRadio.CommandLine

/-- Why the arguments are not taken. The last two are requests that end the program as well. -/
inductive Refusal where
  /-- An argument that is no option, or a word that belongs to none. -/
  | unknownArgument
  /-- A value that is missing, or that is none of the words allowed. -/
  | invalidValue
  /-- A value that cannot be read. -/
  | malformedValue
  /-- An option given twice, or two that exclude each other. -/
  | conflict
  /-- A value for an option that takes none. -/
  | surplusValue
  | help
  | version
deriving Repr, DecidableEq

/-- Whether a refusal is a request. -/
def Refusal.isRequest : Refusal → Bool
  | .help => true
  | .version => true
  | _ => false

/-- The options that have a value, or that are on or off, in the order in which the environment is
asked for them. -/
inductive Setting where
  | server
  | replay
  | messageType
  | symbolLength
  | fastMagnitude
  | filterIds
  | filterTypes
  | format
  | logFile
  | sampleFile
  | single
  | duration
  | centerFrequency
  | sampleRate
  | frequencyCorrection
  | gainMode
  | gain
  | gainIndex
  | gainControl
  | directSampling
  | offsetTuning
deriving Repr, DecidableEq

namespace Setting

/-- All settings, in order. -/
def all : List Setting :=
  [.server, .replay, .messageType, .symbolLength, .fastMagnitude, .filterIds, .filterTypes,
   .format, .logFile, .sampleFile, .single, .duration, .centerFrequency, .sampleRate,
   .frequencyCorrection, .gainMode, .gain, .gainIndex, .gainControl, .directSampling,
   .offsetTuning]

/-- Name of the option, without the dashes in front. -/
def name : Setting → String
  | .server => "server"
  | .replay => "replay"
  | .messageType => "msgtype"
  | .symbolLength => "symbollength"
  | .fastMagnitude => "fastmag"
  | .filterIds => "filterid"
  | .filterTypes => "filtertype"
  | .format => "format"
  | .logFile => "logfile"
  | .sampleFile => "samplefile"
  | .single => "single"
  | .duration => "duration"
  | .centerFrequency => "centerfreq"
  | .sampleRate => "samplerate"
  | .frequencyCorrection => "freqcorrection"
  | .gainMode => "tunergainmode"
  | .gain => "tunergain"
  | .gainIndex => "gainbyindex"
  | .gainControl => "agcmode"
  | .directSampling => "directsampling"
  | .offsetTuning => "offsettuning"

/-- The environment variable asked where the option is not given. -/
def environmentName? : Setting → Option String
  | .server => some "RTLAMR_SERVER"
  | .replay => some "RTLAMR_REPLAY"
  | .messageType => some "RTLAMR_MSGTYPE"
  | .symbolLength => some "RTLAMR_SYMBOLLENGTH"
  | .fastMagnitude => some "RTLAMR_FASTMAG"
  | .filterIds => some "RTLAMR_FILTERID"
  | .filterTypes => some "RTLAMR_FILTERTYPE"
  | .format => some "RTLAMR_FORMAT"
  | .logFile => some "RTLAMR_LOGFILE"
  | .sampleFile => some "RTLAMR_SAMPLEFILE"
  | .single => some "RTLAMR_SINGLE"
  | .duration => some "RTLAMR_DURATION"
  | _ => none

/-- Whether the option stands without a value on the command line. -/
def isSwitch : Setting → Bool
  | .fastMagnitude => true
  | .single => true
  | _ => false

/-- The setting of an option's name. -/
def ofName? (text : String) : Option Setting :=
  all.find? fun s => s.name == text

end Setting

/-! ### Values -/

/-- What was given. -/
structure Arguments where
  server : Option String
  replay : Option String
  messageType : Option String
  symbolLength : Option Nat
  fastMagnitude : Option Bool
  filterIds : Option String
  filterTypes : Option String
  format : Option String
  logFile : Option String
  sampleFile : Option String
  single : Option Bool
  duration : Option String
  /-- How often more trace lines were asked for. -/
  verbose : Nat
  /-- How often fewer trace lines were asked for. -/
  quiet : Nat
  /-- Gain in decibels. -/
  gain : Option Number.Binary64
  /-- The other settings of the tuner. -/
  tuner : Tuner.Settings

namespace Arguments

/-- Nothing given. -/
def none : Arguments :=
  { server := .none, replay := .none, messageType := .none, symbolLength := .none
    fastMagnitude := .none, filterIds := .none, filterTypes := .none, format := .none
    logFile := .none, sampleFile := .none, single := .none, duration := .none
    verbose := 0, quiet := 0, gain := .none, tuner := .none }

/-- Whether a setting was given. -/
def has (a : Arguments) : Setting → Bool
  | .server => a.server.isSome
  | .replay => a.replay.isSome
  | .messageType => a.messageType.isSome
  | .symbolLength => a.symbolLength.isSome
  | .fastMagnitude => a.fastMagnitude.isSome
  | .filterIds => a.filterIds.isSome
  | .filterTypes => a.filterTypes.isSome
  | .format => a.format.isSome
  | .logFile => a.logFile.isSome
  | .sampleFile => a.sampleFile.isSome
  | .single => a.single.isSome
  | .duration => a.duration.isSome
  | .centerFrequency => a.tuner.centerFrequency.isSome
  | .sampleRate => a.tuner.sampleRate.isSome
  | .frequencyCorrection => a.tuner.frequencyCorrection.isSome
  | .gainMode => a.tuner.gainMode.isSome
  | .gain => a.gain.isSome
  | .gainIndex => a.tuner.gainIndex.isSome
  | .gainControl => a.tuner.gainControl.isSome
  | .directSampling => a.tuner.directSampling.isSome
  | .offsetTuning => a.tuner.offsetTuning.isSome

/-- A path; it is not empty. -/
def path (text : String) : Except Refusal (Option String) :=
  if text.isEmpty then .error .invalidValue else .ok (some text)

/-- One of the words for yes and no. -/
def truth (text : String) : Except Refusal (Option Bool) :=
  if text = "true" then .ok (some true)
  else if text = "false" then .ok (some false)
  else .error .invalidValue

/-- A value that has to be readable. -/
def readable {α : Type} (value : Option α) : Except Refusal (Option α) :=
  if value.isSome then .ok value else .error .malformedValue

/-- A natural number below 2 ^ 64. -/
def long (text : String) : Except Refusal (Option Nat) :=
  readable (Text.natural? 0xFFFFFFFFFFFFFFFF text.toList)

/-- An integer of 64 bits that lies between two others. -/
def between? (least greatest : Int) (text : String) : Option Int :=
  (Text.integer? 0x7FFFFFFFFFFFFFFF text.toList).bind fun i =>
    if least ≤ i ∧ i ≤ greatest then some i else .none

/-- A natural number below 2 ^ 32; zero may have a minus sign. -/
def word (text : String) : Except Refusal (Option UInt32) :=
  readable ((between? 0 0xFFFFFFFF text).map fun i => UInt32.ofNat i.toNat)

/-- An integer of 32 bits. -/
def integer (text : String) : Except Refusal (Option Int32) :=
  readable ((between? (-0x80000000) 0x7FFFFFFF text).map Int32.ofInt)

/-- Gives a value to a setting. -/
def put (a : Arguments) (text : String) : Setting → Except Refusal Arguments
  | .server => .ok { a with server := some text }
  | .replay => return { a with replay := ← path text }
  | .messageType => .ok { a with messageType := some text }
  | .symbolLength => return { a with symbolLength := ← long text }
  | .fastMagnitude => return { a with fastMagnitude := ← truth text }
  | .filterIds => .ok { a with filterIds := some text }
  | .filterTypes => .ok { a with filterTypes := some text }
  | .format => .ok { a with format := some text }
  | .logFile => return { a with logFile := ← path text }
  | .sampleFile => return { a with sampleFile := ← path text }
  | .single => return { a with single := ← truth text }
  | .duration => .ok { a with duration := some text }
  | .centerFrequency => return { a with tuner.centerFrequency := ← word text }
  | .sampleRate => return { a with tuner.sampleRate := ← word text }
  | .frequencyCorrection => return { a with tuner.frequencyCorrection := ← integer text }
  | .gainMode => return { a with tuner.gainMode := ← truth text }
  | .gain => return { a with gain := ← readable (Number.Binary64.ofText? text) }
  | .gainIndex => return { a with tuner.gainIndex := ← word text }
  | .gainControl => return { a with tuner.gainControl := ← truth text }
  | .directSampling => return { a with tuner.directSampling := ← word text }
  | .offsetTuning => return { a with tuner.offsetTuning := ← truth text }

/-- Gives a value to a setting that has none yet. -/
def give (a : Arguments) (text : String) (s : Setting) : Except Refusal Arguments :=
  if a.has s then .error .conflict else a.put text s

end Arguments

/-! ### Options -/

/-- What an option's name stands for. -/
inductive Switch where
  | setting (s : Setting)
  | verbose
  | quiet
  | help
  | version
deriving Repr, DecidableEq

/-- The option of a long name. -/
def Switch.ofName? (text : String) : Option Switch :=
  if text = "verbose" then some .verbose
  else if text = "quiet" then some .quiet
  else if text = "help" then some .help
  else if text = "version" then some .version
  else (Setting.ofName? text).map .setting

/-- The option of a letter. -/
def Switch.ofLetter? (c : Char) : Option Switch :=
  if c = 'v' then some .verbose
  else if c = 'q' then some .quiet
  else if c = 'h' then some .help
  else if c = 'V' then some .version
  else none

/-- An argument by its form. -/
inductive Form where
  /-- Two dashes alone: no options follow. -/
  | separator
  /-- Two dashes, a name, and a value after an equals sign if there is one. -/
  | long (name : String) (value : Option String)
  /-- One dash and letters. -/
  | short (letters : List Char)
  | plain
deriving Repr, DecidableEq

/-- The form of an argument. -/
def Form.ofText (text : String) : Form :=
  match text.toList with
  | ['-', '-'] => .separator
  | '-' :: '-' :: rest =>
    let name := rest.takeWhile (· != '=')
    match rest.drop name.length with
    | [] => .long (String.ofList name) none
    | _ :: value => .long (String.ofList name) (some (String.ofList value))
  | '-' :: c :: rest => .short (c :: rest)
  | _ => .plain

/-- Whether letters after a dash look like a number: digits, at most one point that is not in
front, and then at most one letter e that is neither in front nor at the end. -/
def looksNumeric (letters : List Char) : Bool :=
  let mantissa := letters.takeWhile fun c => c != 'e' && c != 'E'
  let points := (mantissa.filter (· == '.')).length
  mantissa.all (fun c => c.isDigit || c == '.') && decide (points ≤ 1)
    && mantissa.head? != some '.'
    && match letters.drop mantissa.length with
      | [] => true
      | _ :: exponent => !mantissa.isEmpty && !exponent.isEmpty && exponent.all Char.isDigit

/-- An option that waits for its value, or that has it but was not looked at yet. -/
structure Pending where
  setting : Setting
  value : Option String
deriving Repr, DecidableEq

/-- The state of reading: what was given, the option that is still open, and whether options have
come to an end. -/
structure Reading where
  given : Arguments
  pending : Option Pending
  ended : Bool

namespace Reading

/-- Nothing read. -/
def initial : Reading := ⟨.none, none, false⟩

/-- Finishes the open option. -/
def settle (r : Reading) : Except Refusal Reading :=
  match r.pending with
  | none => .ok r
  | some ⟨_, none⟩ => .error .invalidValue
  | some ⟨s, some text⟩ => return { r with given := ← r.given.give text s, pending := none }

/-- Takes an option without a value. -/
def switch (r : Reading) (option : Switch) : Except Refusal Reading := do
  let r ← r.settle
  match option with
  | .setting s =>
    if s.isSwitch then return { r with given := ← r.given.give "true" s }
    else return { r with pending := some ⟨s, none⟩ }
  | .verbose => return { r with given.verbose := r.given.verbose + 1 }
  | .quiet => return { r with given.quiet := r.given.quiet + 1 }
  | .help => throw .help
  | .version => throw .version

/-- Takes an option with a value attached to it. -/
def assign (r : Reading) (option : Switch) (text : String) : Except Refusal Reading :=
  match option with
  | .setting s =>
    if s.isSwitch then .error .surplusValue
    else do
      let r ← r.settle
      return { r with given := ← r.given.give text s }
  | _ => .error .surplusValue

/-- Takes letters after a dash. -/
def letters (r : Reading) : List Char → Except Refusal Reading
  | [] => .ok r
  | c :: rest =>
    match Switch.ofLetter? c with
    | none => .error .unknownArgument
    | some option => do (← r.switch option).letters rest

/-- Whether the open option takes letters after a dash for its value. -/
def takesNumber (r : Reading) (letters : List Char) : Bool :=
  r.pending == some ⟨.frequencyCorrection, none⟩ && looksNumeric letters

/-- Takes an argument that is no option: the value of the open one. -/
def value (r : Reading) (text : String) : Except Refusal Reading :=
  match r.pending with
  | some ⟨s, none⟩ => .ok { r with pending := some ⟨s, some text⟩ }
  | _ => .error .unknownArgument

/-- Takes the next argument. -/
def step (r : Reading) (text : String) : Except Refusal Reading :=
  if r.ended then .error .unknownArgument
  else
    match Form.ofText text with
    | .separator => .ok { r with ended := true }
    | .long name value =>
      match Switch.ofName? name, value with
      | none, _ => .error .unknownArgument
      | some option, none => r.switch option
      | some option, some value => r.assign option value
    | .short cs => if r.takesNumber cs then r.value text else r.letters cs
    | .plain => r.value text

end Reading

/-- Fills in a setting from the environment if it was not given. -/
def fromEnvironment (environment : List (String × String)) (a : Arguments) (s : Setting) :
    Except Refusal Arguments :=
  match s.environmentName?.bind fun name => environment.lookup name with
  | none => .ok a
  | some text => if a.has s then .ok a else a.put text s

/-- Reads arguments, and the environment where they are silent. -/
def parse (arguments : List String) (environment : List (String × String)) :
    Except Refusal Arguments := do
  let r ← arguments.foldlM Reading.step Reading.initial
  let r ← r.settle
  let given ← Setting.all.foldlM (fromEnvironment environment) r.given
  if 0 < given.verbose ∧ 0 < given.quiet then throw .conflict
  return given

end MeterRadio.CommandLine
