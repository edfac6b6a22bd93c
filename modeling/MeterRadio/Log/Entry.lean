/-
Module: MeterRadio.Log.Entry
Purpose: Log entries, and their plain and comma-separated forms.
Main exports: Log.Entry, Log.Entry.plain, Log.Entry.withoutOffset, Log.Entry.fields
-/
import MeterRadio.Message
import MeterRadio.Time.Timestamp

namespace MeterRadio.Log

/-- A message with the time it was received, and where its samples lie in the sample file. -/
structure Entry where
  time : Time.Timestamp
  /-- Position in the sample file of the samples that the message was found in. -/
  offset : Nat
  /-- Length of those samples in bytes. -/
  length : Nat
  /-- Tag of the kind of message. -/
  kind : String
  message : Message
deriving Repr, DecidableEq

namespace Entry

/-- The entry of a message, tagged with its kind. -/
def ofMessage (time : Time.Timestamp) (offset length : Nat) (message : Message) : Entry :=
  ⟨time, offset, length, message.kind, message⟩

/-- The time in thousandths of a second. -/
def timeText (e : Entry) : String := e.time.text .millis

/-- Plain text with the place of the samples. -/
def plain (e : Entry) : String :=
  "\x7bTime:" ++ e.timeText ++ " Offset:" ++ Text.decimal e.offset
    ++ " Length:" ++ Text.decimal e.length ++ " " ++ e.kind ++ ":" ++ e.message.text ++ "\x7d"

/-- Plain text for a run that keeps no samples. -/
def withoutOffset (e : Entry) : String :=
  "\x7bTime:" ++ e.timeText ++ " " ++ e.kind ++ ":" ++ e.message.text ++ "\x7d"

/-- The fields of a comma-separated record. -/
def fields (e : Entry) : List String :=
  [e.timeText, Text.decimal e.offset, Text.decimal e.length, e.kind] ++ e.message.record

end Entry

/-- Which messages a reader of entries expects. -/
inductive Shape where
  | scm
  | idm
  | either
deriving Repr, DecidableEq

/-! Names of the fields in the structured formats. -/

/-- Fields of an entry. -/
def entryNames : List String := ["Time", "Offset", "Length", "Type", "Message"]

/-- Fields of a standard consumption message. -/
def scmNames : List String :=
  ["ID", "Type", "TamperPhy", "TamperEnc", "Consumption", "ChecksumVal"]

/-- Fields of an interval data message. -/
def idmNames : List String :=
  ["PacketTypeID", "PacketLength", "HammingCode", "ApplicationVersion", "ERTType",
   "ERTSerialNumber", "ConsumptionIntervalCount", "ModuleProgrammingState", "TamperCounters",
   "AsynchronousCounters", "PowerOutageFlags", "LastConsumptionCount",
   "DifferentialConsumptionIntervals", "TransmitTimeOffset", "SerialNumberCRC", "PacketCRC"]

end MeterRadio.Log
