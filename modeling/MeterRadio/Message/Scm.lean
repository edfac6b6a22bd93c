/-
Module: MeterRadio.Message.Scm
Purpose: The standard consumption message: its fields, its texts, and the 96-bit packet that
  carries it.
Main exports: PacketError, Scm, Scm.ofPacket, Scm.toPacket, Scm.text, Scm.record
-/
import MeterRadio.Checksum

namespace MeterRadio

/-- Why a candidate packet carries no message. -/
inductive PacketError where
  | length (bytes : Nat)
  | checksum (register : UInt16)
  | packetType (byte : UInt8)
deriving Repr, DecidableEq

/-- The wording of a packet error. -/
def PacketError.message : PacketError → String
  | .length bytes => "invalid packet length: " ++ Text.decimal bytes ++ " bytes"
  | .checksum register =>
    "checksum failed: residue 0x" ++ Text.hexadecimal 4 register.toNat
  | .packetType byte => "unexpected packet type: 0x" ++ Text.hexadecimal 2 byte.toNat

/-- A standard consumption message. -/
structure Scm where
  id : UInt32
  ertType : UInt8
  tamperPhy : UInt8
  tamperEnc : UInt8
  consumption : UInt32
  checksum : UInt16
deriving Repr, DecidableEq, Inhabited

namespace Scm

/-- Length of a packet in bits. -/
def packetBits : Nat := 96

/-- Length of a packet in bytes. -/
def packetBytes : Nat := 12

/-- The sync word at the front of a packet. -/
def preamble : String := "111110010101001100000"

/-- The check over all bytes but the first two. -/
def crc : Checksum :=
  { name := "BCH", initial := 0, poly := 0x6F63, residue := 0 }

/-- The fields as they lie in a packet. -/
def fields (packet : Bytes) : Scm :=
  { id := ((Bits.read packet 21 2 <<< 24) ||| Bits.read packet 56 24).toUInt32
    ertType := (Bits.read packet 26 4).toUInt8
    tamperPhy := (Bits.read packet 24 2).toUInt8
    tamperEnc := (Bits.read packet 30 2).toUInt8
    consumption := (Bits.read packet 32 24).toUInt32
    checksum := (Bits.read packet 80 16).toUInt16 }

/-- Reads a packet: right length first, then the check. -/
def ofPacket (packet : Bytes) : Except PacketError Scm :=
  if packet.length ≠ packetBytes then .error (.length packet.length)
  else
    let register := crc.run (packet.drop 2)
    if register ≠ crc.residue then .error (.checksum register)
    else .ok (fields packet)

/-- The first eighty bits of a packet: the sync bits, the upper identifier bits, a bit that no
field uses, and the other fields. -/
def bodyBits (sync : Nat) (spare : Bool) (m : Scm) : List Bool :=
  Bits.ofNat 21 sync ++ Bits.ofNat 2 (m.id.toNat >>> 24) ++ [spare]
    ++ Bits.ofNat 2 m.tamperPhy.toNat ++ Bits.ofNat 4 m.ertType.toNat
    ++ Bits.ofNat 2 m.tamperEnc.toNat ++ Bits.ofNat 24 m.consumption.toNat
    ++ Bits.ofNat 24 m.id.toNat

/-- The check that closes a packet body. -/
def closing (body : Bytes) : UInt16 :=
  crc.run (body.drop 2)

/-- The packet with the given fields and the check they need; the message's own check is not
looked at. -/
def toPacket (sync : Nat) (spare : Bool) (m : Scm) : Bytes :=
  let body := Bits.pack (bodyBits sync spare m)
  body ++ Bytes.ofNat 2 (closing body).toNat

/-- Tag of this kind of message in log entries. -/
def kind : String := "SCM"

/-- One-line text. -/
def text (m : Scm) : String :=
  "\x7bID:" ++ Text.padded 8 m.id.toNat
    ++ " Type:" ++ Text.padded 2 m.ertType.toNat
    ++ " Tamper:\x7bPhy:" ++ Text.hexadecimal 2 m.tamperPhy.toNat
    ++ " Enc:" ++ Text.hexadecimal 2 m.tamperEnc.toNat
    ++ "\x7d Consumption:" ++ Text.padded 8 m.consumption.toNat
    ++ " CRC:0x" ++ Text.hexadecimal 4 m.checksum.toNat ++ "\x7d"

/-- Field texts of a comma-separated record. -/
def record (m : Scm) : List String :=
  [Text.decimal m.id.toNat, Text.decimal m.ertType.toNat, Text.decimal m.tamperPhy.toNat,
   Text.decimal m.tamperEnc.toNat, Text.decimal m.consumption.toNat,
   "0x" ++ Text.hexadecimal 4 m.checksum.toNat]

end Scm
end MeterRadio
