/-
Module: MeterRadio.Log.Xml
Purpose: Log entries as XML elements, written and read.
Main exports: Message.xml, Log.Entry.xml, Log.Entry.ofXml?
-/
import MeterRadio.Log.Entry
import MeterRadio.Xml.Tree

namespace MeterRadio

open Xml (numberElement numberElements textElement)

/-! ### Writing -/

/-- The elements of a standard consumption message. -/
def Scm.xml (m : Scm) : List Char :=
  numberElement "ID" m.id.toNat ++ numberElement "Type" m.ertType.toNat
    ++ numberElement "TamperPhy" m.tamperPhy.toNat ++ numberElement "TamperEnc" m.tamperEnc.toNat
    ++ numberElement "Consumption" m.consumption.toNat
    ++ numberElement "ChecksumVal" m.checksum.toNat

/-- The elements of an interval data message; a list repeats its element. -/
def Idm.xml (m : Idm) : List Char :=
  numberElement "PacketTypeID" m.packetTypeId.toNat
    ++ numberElement "PacketLength" m.packetLength.toNat
    ++ numberElement "HammingCode" m.hammingCode.toNat
    ++ numberElement "ApplicationVersion" m.applicationVersion.toNat
    ++ numberElement "ERTType" m.ertType.toNat
    ++ numberElement "ERTSerialNumber" m.serialNumber.toNat
    ++ numberElement "ConsumptionIntervalCount" m.intervalCount.toNat
    ++ numberElement "ModuleProgrammingState" m.programmingState.toNat
    ++ numberElements "TamperCounters" (m.tamperCounters.map UInt8.toNat)
    ++ numberElement "AsynchronousCounters" m.asynchronousCounters.toNat
    ++ numberElements "PowerOutageFlags" (m.powerOutageFlags.map UInt8.toNat)
    ++ numberElement "LastConsumptionCount" m.lastConsumption.toNat
    ++ numberElements "DifferentialConsumptionIntervals" (m.intervals.map UInt16.toNat)
    ++ numberElement "TransmitTimeOffset" m.transmitTimeOffset.toNat
    ++ numberElement "SerialNumberCRC" m.serialNumberCrc.toNat
    ++ numberElement "PacketCRC" m.packetCrc.toNat

/-- The elements of a message. -/
def Message.xml : Message → List Char
  | .scm m => m.xml
  | .idm m => m.xml

/-- An entry as an element. The fraction of the second has the fewest digits that are exact. -/
def Log.Entry.xml (e : Log.Entry) : List Char :=
  Xml.element "LogMessage"
    (textElement "Time" (e.time.text .fewest) ++ numberElement "Offset" e.offset
      ++ numberElement "Length" e.length ++ textElement "Type" e.kind
      ++ Xml.element "Message" e.message.xml)

/-! ### Reading -/

namespace Xml

/-- The fields of an element, each with its nodes. -/
abbrev Fields := List (String × List Node)

/-- The number of at most `limit` in the field of a name. -/
def number? (limit : Nat) (fields : Fields) (name : String) : Option Nat :=
  (field? name fields).bind (Node.natural? limit)

/-- The number below 2 ^ 8 in a field. -/
def byte? (fields : Fields) (name : String) : Option UInt8 :=
  (number? 0xFF fields name).map UInt8.ofNat

/-- The number below 2 ^ 16 in a field. -/
def short? (fields : Fields) (name : String) : Option UInt16 :=
  (number? 0xFFFF fields name).map UInt16.ofNat

/-- The number below 2 ^ 32 in a field. -/
def word? (fields : Fields) (name : String) : Option UInt32 :=
  (number? 0xFFFFFFFF fields name).map UInt32.ofNat

/-- The numbers of at most `limit` in the run of elements of a name, of which there is one. -/
def numbers? (limit : Nat) (fields : Fields) (name : String) : Option (List Nat) :=
  (group? name fields).bind fun nodes => nodes.mapM (Node.natural? limit)

/-- The text in the field of a name. -/
def text? (fields : Fields) (name : String) : Option String :=
  (field? name fields).bind Node.scalar?

end Xml

/-- Reads a standard consumption message. -/
def Scm.ofXml? (node : Xml.Node) : Option Scm := do
  let fields ← node.fields? []
  pure
    { id := ← Xml.word? fields "ID"
      ertType := ← Xml.byte? fields "Type"
      tamperPhy := ← Xml.byte? fields "TamperPhy"
      tamperEnc := ← Xml.byte? fields "TamperEnc"
      consumption := ← Xml.word? fields "Consumption"
      checksum := ← Xml.short? fields "ChecksumVal" }

/-- The fields of an interval data message that repeat their element. -/
def Idm.listNames : List String :=
  ["TamperCounters", "PowerOutageFlags", "DifferentialConsumptionIntervals"]

/-- Reads an interval data message. -/
def Idm.ofXml? (node : Xml.Node) : Option Idm := do
  let fields ← node.fields? Idm.listNames
  pure
    { packetTypeId := ← Xml.byte? fields "PacketTypeID"
      packetLength := ← Xml.byte? fields "PacketLength"
      hammingCode := ← Xml.byte? fields "HammingCode"
      applicationVersion := ← Xml.byte? fields "ApplicationVersion"
      ertType := ← Xml.byte? fields "ERTType"
      serialNumber := ← Xml.word? fields "ERTSerialNumber"
      intervalCount := ← Xml.byte? fields "ConsumptionIntervalCount"
      programmingState := ← Xml.byte? fields "ModuleProgrammingState"
      tamperCounters := (← Xml.numbers? 0xFF fields "TamperCounters").map UInt8.ofNat
      asynchronousCounters := ← Xml.short? fields "AsynchronousCounters"
      powerOutageFlags := (← Xml.numbers? 0xFF fields "PowerOutageFlags").map UInt8.ofNat
      lastConsumption := ← Xml.word? fields "LastConsumptionCount"
      intervals :=
        (← Xml.numbers? 0xFFFF fields "DifferentialConsumptionIntervals").map UInt16.ofNat
      transmitTimeOffset := ← Xml.short? fields "TransmitTimeOffset"
      serialNumberCrc := ← Xml.short? fields "SerialNumberCRC"
      packetCrc := ← Xml.short? fields "PacketCRC" }

/-- Reads a message of the expected kind. The texts of elements carry no types, so a message of
unknown kind cannot be told apart. -/
def Message.ofXml? : Log.Shape → Xml.Node → Option Message
  | .scm, node => (Scm.ofXml? node).map .scm
  | .idm, node => (Idm.ofXml? node).map .idm
  | .either, _ => none

/-- Reads an entry from an element of any name. -/
def Log.Entry.ofXml? (shape : Log.Shape) (node : Xml.Node) : Option Log.Entry := do
  let fields ← node.fields? []
  pure
    { time := ← Time.Timestamp.ofText? (← Xml.text? fields "Time")
      offset := ← Xml.number? 0xFFFFFFFFFFFFFFFF fields "Offset"
      length := ← Xml.number? 0xFFFFFFFFFFFFFFFF fields "Length"
      kind := ← Xml.text? fields "Type"
      message := ← Message.ofXml? shape (← Xml.field? "Message" fields) }

end MeterRadio
