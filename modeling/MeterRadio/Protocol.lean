/-
Module: MeterRadio.Protocol
Purpose: The two protocols: their names, their packets on the air and the messages in them.
Main exports: Protocol, Protocol.ofName?, Protocol.profile, Protocol.read
-/
import MeterRadio.Message
import MeterRadio.Profile
import MeterRadio.Text.Quoted

namespace MeterRadio

/-- A supported protocol. -/
inductive Protocol where
  | scm
  | idm
deriving Repr, DecidableEq

/-- A reader of candidate packets. -/
abbrev PacketReader := Bytes → Except PacketError Message

namespace Protocol

/-- Chips per second on the air. -/
def dataRate : Nat := 32768

/-- Name of a protocol. -/
def name : Protocol → String
  | .scm => "SCM"
  | .idm => "IDM"

/-- The protocol of a name, whatever the case of its ASCII letters. -/
def ofName? (text : String) : Option Protocol :=
  let lower := Text.lowerAscii text
  if lower = "scm" then some .scm
  else if lower = "idm" then some .idm
  else none

/-- The wording for a name that is no protocol. -/
def unknownMessage (text : String) : String :=
  "invalid message type: " ++ Text.quoted text ++ " (expected scm or idm)"

/-- The packets of a protocol at a number of samples per chip. -/
def profile (protocol : Protocol) (symbolLength : Nat) : Profile :=
  match protocol with
  | .scm => ⟨"SCM", dataRate, symbolLength, Scm.packetBits, Scm.preamble⟩
  | .idm => ⟨"IDM", dataRate, symbolLength, Idm.packetBits, Idm.preamble⟩

/-- The check of a protocol's packets. -/
def crc : Protocol → Checksum
  | .scm => Scm.crc
  | .idm => Idm.crc

/-- Reads a candidate packet of the protocol. -/
def read : Protocol → PacketReader
  | .scm, packet => (Scm.ofPacket packet).map Message.scm
  | .idm, packet => (Idm.ofPacket packet).map Message.idm

end Protocol
end MeterRadio
