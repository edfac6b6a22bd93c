/-
Module: MeterRadio.Message.Idm
Purpose: The interval data message: its fields, its texts, and the 92-byte packet that carries
  it.
Main exports: Idm, Idm.ofPacket, Idm.toPacket, Idm.text, Idm.record
-/
import MeterRadio.Message.Scm

namespace MeterRadio

/-- An interval data message. -/
structure Idm where
  packetTypeId : UInt8
  packetLength : UInt8
  hammingCode : UInt8
  applicationVersion : UInt8
  ertType : UInt8
  serialNumber : UInt32
  intervalCount : UInt8
  programmingState : UInt8
  tamperCounters : List UInt8
  asynchronousCounters : UInt16
  powerOutageFlags : List UInt8
  lastConsumption : UInt32
  intervals : List UInt16
  transmitTimeOffset : UInt16
  serialNumberCrc : UInt16
  packetCrc : UInt16
deriving Repr, DecidableEq, Inhabited

namespace Idm

/-- Length of a packet in bytes. -/
def packetBytes : Nat := 92

/-- Length of a packet in bits. -/
def packetBits : Nat := 736

/-- The sync word at the front of a packet. -/
def preamble : String := "01010101010101010001011010100011"

/-- The only packet type read here. -/
def typeId : UInt8 := 0x1C

/-- Number of consumption intervals in a packet. -/
def intervalTotal : Nat := 47

/-- Width of a consumption interval in bits. -/
def intervalBits : Nat := 9

/-- First bit of the first consumption interval. -/
def intervalStart : Nat := 264

/-- The check over all bytes after the sync word; a packet carries its complement. -/
def crc : Checksum :=
  { name := "CCITT", initial := 0xFFFF, poly := 0x1021, residue := 0x1D0F }

/-- Byte `i` of a packet. -/
def byteAt (packet : Bytes) (i : Nat) : UInt8 :=
  packet.getD i 0

/-- The `count` bytes from byte `start` on. -/
def slice (packet : Bytes) (start count : Nat) : Bytes :=
  (packet.drop start).take count

/-- The fields as they lie in a packet. -/
def fields (packet : Bytes) : Idm :=
  { packetTypeId := byteAt packet 4
    packetLength := byteAt packet 5
    hammingCode := byteAt packet 6
    applicationVersion := byteAt packet 7
    ertType := byteAt packet 8 &&& 0x0F
    serialNumber := UInt32.ofNat (Bytes.toNat (slice packet 9 4))
    intervalCount := byteAt packet 13
    programmingState := byteAt packet 14
    tamperCounters := slice packet 15 6
    asynchronousCounters := UInt16.ofNat (Bytes.toNat (slice packet 21 2))
    powerOutageFlags := slice packet 23 6
    lastConsumption := UInt32.ofNat (Bytes.toNat (slice packet 29 4))
    intervals := (List.range intervalTotal).map fun k =>
      (Bits.read packet (intervalStart + k * intervalBits) intervalBits).toUInt16
    transmitTimeOffset := UInt16.ofNat (Bytes.toNat (slice packet 86 2))
    serialNumberCrc := UInt16.ofNat (Bytes.toNat (slice packet 88 2))
    packetCrc := UInt16.ofNat (Bytes.toNat (slice packet 90 2)) }

/-- Reads a packet: right length first, then the check, then the packet type. -/
def ofPacket (packet : Bytes) : Except PacketError Idm :=
  if packet.length ≠ packetBytes then .error (.length packet.length)
  else
    let register := crc.run (packet.drop 4)
    if register ≠ crc.residue then .error (.checksum register)
    else if byteAt packet 4 ≠ typeId then .error (.packetType (byteAt packet 4))
    else .ok (fields packet)

/-- The bytes under the check: the fields in order, with the four bits and the one bit that no
field uses. -/
def bodyBytes (nibble : Nat) (spare : Bool) (m : Idm) : Bytes :=
  [m.packetTypeId, m.packetLength, m.hammingCode, m.applicationVersion,
    UInt8.ofNat (nibble % 16 * 16 + m.ertType.toNat % 16)]
    ++ Bytes.ofNat 4 m.serialNumber.toNat ++ [m.intervalCount, m.programmingState]
    ++ m.tamperCounters ++ Bytes.ofNat 2 m.asynchronousCounters.toNat ++ m.powerOutageFlags
    ++ Bytes.ofNat 4 m.lastConsumption.toNat
    ++ Bits.pack (m.intervals.flatMap (fun v => Bits.ofNat intervalBits v.toNat) ++ [spare])
    ++ Bytes.ofNat 2 m.transmitTimeOffset.toNat ++ Bytes.ofNat 2 m.serialNumberCrc.toNat

/-- The check that closes a packet body: the complement of the register. -/
def closing (body : Bytes) : UInt16 :=
  ~~~ crc.run body

/-- The packet with the given sync bytes, fields and filling, and the check they need; the
message's own check is not looked at. -/
def toPacket (sync : Bytes) (nibble : Nat) (spare : Bool) (m : Idm) : Bytes :=
  let body := bodyBytes nibble spare m
  sync ++ body ++ Bytes.ofNat 2 (closing body).toNat

/-- Tag of this kind of message in log entries. -/
def kind : String := "IDM"

/-- Numbers between square brackets, with a comma and a blank between them. -/
def bracketed (values : List Nat) : String :=
  "[" ++ String.intercalate ", " (values.map Text.decimal) ++ "]"

/-- One-line text. -/
def text (m : Idm) : String :=
  "\x7bPacketTypeID:0x" ++ Text.hexadecimal 2 m.packetTypeId.toNat
    ++ " PacketLength:" ++ Text.decimal m.packetLength.toNat
    ++ " ApplicationVersion:" ++ Text.decimal m.applicationVersion.toNat
    ++ " ERTType:" ++ Text.padded 2 m.ertType.toNat
    ++ " ERTSerialNumber:" ++ Text.padded 10 m.serialNumber.toNat
    ++ " ConsumptionIntervalCount:" ++ Text.decimal m.intervalCount.toNat
    ++ " ModuleProgrammingState:0x" ++ Text.hexadecimal 2 m.programmingState.toNat
    ++ " TamperCounters:" ++ Bytes.hexUpper m.tamperCounters
    ++ " AsynchronousCounters:0x" ++ Text.hexadecimal 4 m.asynchronousCounters.toNat
    ++ " PowerOutageFlags:" ++ Bytes.hexUpper m.powerOutageFlags
    ++ " LastConsumptionCount:" ++ Text.decimal m.lastConsumption.toNat
    ++ " DifferentialConsumptionIntervals:" ++ bracketed (m.intervals.map UInt16.toNat)
    ++ " TransmitTimeOffset:" ++ Text.decimal m.transmitTimeOffset.toNat
    ++ " SerialNumberCRC:0x" ++ Text.hexadecimal 4 m.serialNumberCrc.toNat
    ++ " PacketCRC:0x" ++ Text.hexadecimal 4 m.packetCrc.toNat ++ "\x7d"

/-- Field texts of a comma-separated record. -/
def record (m : Idm) : List String :=
  ["0x" ++ Text.hexadecimal 2 m.packetTypeId.toNat, Text.decimal m.packetLength.toNat,
   Text.decimal m.ertType.toNat, Text.decimal m.serialNumber.toNat,
   Text.decimal m.intervalCount.toNat, "0x" ++ Text.hexadecimal 2 m.programmingState.toNat,
   Text.decimal m.lastConsumption.toNat]
    ++ m.intervals.map (fun v => Text.decimal v.toNat)
    ++ [Text.decimal m.transmitTimeOffset.toNat, "0x" ++ Text.hexadecimal 4 m.packetCrc.toNat]

end Idm
end MeterRadio
