/-
Module: MeterRadio.Tuner
Purpose: Settings of a remote tuner, and the commands that make them.
Main exports: Tuning, Tuning.frame, Tuning.ofFrame?, Tuner.Settings, Tuner.Settings.tunings,
  Tuner.Settings.defaults, Tuner.perform
-/
import MeterRadio.Source

namespace MeterRadio

/-- One thing to tell the tuner. -/
inductive Tuning where
  /-- Center frequency in Hz. -/
  | centerFrequency (hertz : UInt32)
  /-- Samples per second. -/
  | sampleRate (hertz : UInt32)
  /-- Whether the gain is set by hand. -/
  | gainMode (manual : Bool)
  /-- Gain in tenths of a decibel. -/
  | gain (tenths : UInt32)
  /-- Frequency correction in millionths. -/
  | frequencyCorrection (ppm : Int32)
  /-- Whether the demodulator controls its gain. -/
  | gainControl (on : Bool)
  /-- Direct sampling of no branch, the I branch or the Q branch. -/
  | directSampling (branch : UInt32)
  /-- Offset tuning. -/
  | offsetTuning (on : Bool)
  /-- Gain by its place in the tuner's table. -/
  | gainIndex (index : UInt32)
deriving Repr, DecidableEq

namespace Tuning

/-- The number of a command. -/
def opcode : Tuning → UInt8
  | .centerFrequency _ => 0x01
  | .sampleRate _ => 0x02
  | .gainMode _ => 0x03
  | .gain _ => 0x04
  | .frequencyCorrection _ => 0x05
  | .gainControl _ => 0x08
  | .directSampling _ => 0x09
  | .offsetTuning _ => 0x0A
  | .gainIndex _ => 0x0D

/-- One for yes, zero for no. -/
def flag (on : Bool) : UInt32 := if on then 1 else 0

/-- The parameter of a command; a negative number stands in two's complement. -/
def parameter : Tuning → UInt32
  | .centerFrequency hertz => hertz
  | .sampleRate hertz => hertz
  | .gainMode manual => flag manual
  | .gain tenths => tenths
  | .frequencyCorrection ppm => ppm.toUInt32
  | .gainControl on => flag on
  | .directSampling branch => branch
  | .offsetTuning on => flag on
  | .gainIndex index => index

/-- Length of a command on the wire. -/
def frameBytes : Nat := 5

/-- A command on the wire: its number and its parameter, most significant byte first. -/
def frame (t : Tuning) : Bytes :=
  t.opcode :: Bytes.ofNat 4 t.parameter.toNat

/-- Reads one for yes and zero for no. -/
def flag? (n : UInt32) : Option Bool :=
  if n = 1 then some true else if n = 0 then some false else none

/-- The command of a number and a parameter. -/
def ofParts? (opcode : UInt8) (n : UInt32) : Option Tuning :=
  if opcode = 0x01 then some (.centerFrequency n)
  else if opcode = 0x02 then some (.sampleRate n)
  else if opcode = 0x03 then (flag? n).map .gainMode
  else if opcode = 0x04 then some (.gain n)
  else if opcode = 0x05 then some (.frequencyCorrection n.toInt32)
  else if opcode = 0x08 then (flag? n).map .gainControl
  else if opcode = 0x09 then some (.directSampling n)
  else if opcode = 0x0A then (flag? n).map .offsetTuning
  else if opcode = 0x0D then some (.gainIndex n)
  else none

/-- Reads a command from the wire. -/
def ofFrame? : Bytes → Option Tuning
  | [opcode, a, b, c, d] => ofParts? opcode (UInt32.ofNat (Bytes.toNat [a, b, c, d]))
  | _ => none

end Tuning

namespace Tuner

/-- What the user sets. A setting that is missing leaves the tuner as it is. -/
structure Settings where
  centerFrequency : Option UInt32
  sampleRate : Option UInt32
  frequencyCorrection : Option Int32
  gainMode : Option Bool
  gain : Option UInt32
  gainIndex : Option UInt32
  gainControl : Option Bool
  directSampling : Option UInt32
  offsetTuning : Option Bool
deriving Repr, DecidableEq

namespace Settings

/-- Nothing set. -/
def none : Settings :=
  ⟨.none, .none, .none, .none, .none, .none, .none, .none, .none⟩

/-- Whether a setting has to do with gain. -/
def overridesGain (s : Settings) : Bool :=
  s.gainMode.isSome || s.gain.isSome || s.gainIndex.isSome || s.gainControl.isSome

/-- The commands of all settings that are made. -/
def tunings (s : Settings) : List Tuning :=
  (s.centerFrequency.map Tuning.centerFrequency).toList
    ++ (s.sampleRate.map Tuning.sampleRate).toList
    ++ (s.frequencyCorrection.map Tuning.frequencyCorrection).toList
    ++ (s.gainMode.map Tuning.gainMode).toList
    ++ (s.gain.map Tuning.gain).toList
    ++ (s.gainIndex.map Tuning.gainIndex).toList
    ++ (s.gainControl.map Tuning.gainControl).toList
    ++ (s.directSampling.map Tuning.directSampling).toList
    ++ (s.offsetTuning.map Tuning.offsetTuning).toList

/-- The center frequency used where none is set. -/
def defaultFrequency : UInt32 := 920299072

/-- The commands for what the settings leave open: center frequency, the decoder's sample rate
and, where nothing is said of gain, automatic gain. -/
def defaults (s : Settings) (sampleRate : UInt32) : List Tuning :=
  (if s.centerFrequency.isNone then [.centerFrequency defaultFrequency] else [])
    ++ (if s.sampleRate.isNone then [.sampleRate sampleRate] else [])
    ++ (if s.overridesGain then [] else [.gainMode false])

end Settings

/-- The commands carried out before the first one that fails, and its fault; `faultAt` says which
fault the command of an index meets, counted from `index` on. -/
def performFrom (faultAt : Nat → Option Fault) : Nat → List Tuning → List Tuning × Option Fault
  | _, [] => ([], none)
  | index, t :: rest =>
    match faultAt index with
    | some fault => ([], some fault)
    | none =>
      let (done, fault) := performFrom faultAt (index + 1) rest
      (t :: done, fault)

/-- The commands carried out before the first one that fails, and its fault. -/
def perform (faultAt : Nat → Option Fault) (tunings : List Tuning) :
    List Tuning × Option Fault :=
  performFrom faultAt 0 tunings

end Tuner
end MeterRadio
