/-
Module: MeterRadio.Log.Json
Purpose: Log entries as JSON values, written and read.
Main exports: Message.toJson, Log.Entry.toJson, Log.Entry.ofJson?
-/
import MeterRadio.Json.Value
import MeterRadio.Log.Entry

namespace MeterRadio

/-! ### Writing -/

/-- A standard consumption message as an object. -/
def Scm.toJson (m : Scm) : Json :=
  .record
    [("ID", .natural m.id.toNat), ("Type", .natural m.ertType.toNat),
     ("TamperPhy", .natural m.tamperPhy.toNat), ("TamperEnc", .natural m.tamperEnc.toNat),
     ("Consumption", .natural m.consumption.toNat), ("ChecksumVal", .natural m.checksum.toNat)]

/-- An interval data message as an object. -/
def Idm.toJson (m : Idm) : Json :=
  .record
    [("PacketTypeID", .natural m.packetTypeId.toNat),
     ("PacketLength", .natural m.packetLength.toNat),
     ("HammingCode", .natural m.hammingCode.toNat),
     ("ApplicationVersion", .natural m.applicationVersion.toNat),
     ("ERTType", .natural m.ertType.toNat),
     ("ERTSerialNumber", .natural m.serialNumber.toNat),
     ("ConsumptionIntervalCount", .natural m.intervalCount.toNat),
     ("ModuleProgrammingState", .natural m.programmingState.toNat),
     ("TamperCounters", .naturals (m.tamperCounters.map UInt8.toNat)),
     ("AsynchronousCounters", .natural m.asynchronousCounters.toNat),
     ("PowerOutageFlags", .naturals (m.powerOutageFlags.map UInt8.toNat)),
     ("LastConsumptionCount", .natural m.lastConsumption.toNat),
     ("DifferentialConsumptionIntervals", .naturals (m.intervals.map UInt16.toNat)),
     ("TransmitTimeOffset", .natural m.transmitTimeOffset.toNat),
     ("SerialNumberCRC", .natural m.serialNumberCrc.toNat),
     ("PacketCRC", .natural m.packetCrc.toNat)]

/-- A message as an object. -/
def Message.toJson : Message → Json
  | .scm m => m.toJson
  | .idm m => m.toJson

/-- An entry as an object. The fraction of the second has the fewest digits that are exact. -/
def Log.Entry.toJson (e : Log.Entry) : Json :=
  .record
    [("Time", .text (e.time.text .fewest)), ("Offset", .natural e.offset),
     ("Length", .natural e.length), ("Type", .text e.kind), ("Message", e.message.toJson)]

/-! ### Reading -/

namespace Json

/-- A number below 2 ^ 8. -/
def byte? (j : Json) : Option UInt8 := (j.natural? 0xFF).map UInt8.ofNat

/-- A number below 2 ^ 16. -/
def short? (j : Json) : Option UInt16 := (j.natural? 0xFFFF).map UInt16.ofNat

/-- A number below 2 ^ 32. -/
def word? (j : Json) : Option UInt32 := (j.natural? 0xFFFFFFFF).map UInt32.ofNat

/-- A number below 2 ^ 64. -/
def long? (j : Json) : Option Nat := j.natural? 0xFFFFFFFFFFFFFFFF

/-- An array whose items are all read in the given way. -/
def list? {α : Type} (item? : Json → Option α) (j : Json) : Option (List α) :=
  j.items?.bind fun items => items.mapM item?

end Json

/-- Reads a standard consumption message. -/
def Scm.ofJson? (j : Json) : Option Scm := do
  match ← j.record? Log.scmNames with
  | [id, type, phy, enc, consumption, checksum] =>
    pure
      { id := ← id.word?
        ertType := ← type.byte?
        tamperPhy := ← phy.byte?
        tamperEnc := ← enc.byte?
        consumption := ← consumption.word?
        checksum := ← checksum.short? }
  | _ => none

/-- Reads an interval data message. -/
def Idm.ofJson? (j : Json) : Option Idm := do
  match ← j.record? Log.idmNames with
  | [type, length, hamming, version, ertType, serial, count, state, tamper, asynchronous, outage,
      last, intervals, offset, serialCrc, packetCrc] =>
    pure
      { packetTypeId := ← type.byte?
        packetLength := ← length.byte?
        hammingCode := ← hamming.byte?
        applicationVersion := ← version.byte?
        ertType := ← ertType.byte?
        serialNumber := ← serial.word?
        intervalCount := ← count.byte?
        programmingState := ← state.byte?
        tamperCounters := ← tamper.list? Json.byte?
        asynchronousCounters := ← asynchronous.short?
        powerOutageFlags := ← outage.list? Json.byte?
        lastConsumption := ← last.word?
        intervals := ← intervals.list? Json.short?
        transmitTimeOffset := ← offset.short?
        serialNumberCrc := ← serialCrc.short?
        packetCrc := ← packetCrc.short? }
  | _ => none

/-- Levels of arrays and objects that a message of unknown kind may have. -/
def Message.deepest : Nat := 126

/-- Reads a message of the expected kind. Where either kind will do, the value is taken in as a
whole before it is told apart, so that nothing in it may be unreadable; a standard consumption
message is tried first. -/
def Message.ofJson? : Log.Shape → Json → Option Message
  | .scm, j => (Scm.ofJson? j).map .scm
  | .idm, j => (Idm.ofJson? j).map .idm
  | .either, j =>
    if j.isFaithful && decide (j.depth ≤ Message.deepest) then
      ((Scm.ofJson? j).map Message.scm).or ((Idm.ofJson? j).map Message.idm)
    else none

/-- Reads an entry. -/
def Log.Entry.ofJson? (shape : Log.Shape) (j : Json) : Option Log.Entry := do
  match ← j.record? Log.entryNames with
  | [time, offset, length, kind, message] =>
    pure
      { time := ← Time.Timestamp.ofText? (← time.text?)
        offset := ← offset.long?
        length := ← length.long?
        kind := ← kind.text?
        message := ← Message.ofJson? shape message }
  | _ => none

end MeterRadio
