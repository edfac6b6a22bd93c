/-
Module: MeterRadio.Message
Purpose: A message of either kind, with what the filter and the log ask of it.
Main exports: Message, Message.meterId, Message.meterType, Message.kind, Message.text,
  Message.record
-/
import MeterRadio.Message.Idm

namespace MeterRadio

/-- A message of one of the two kinds. -/
inductive Message where
  | scm (message : Scm)
  | idm (message : Idm)
deriving Repr, DecidableEq

namespace Message

/-- The meter the message comes from. -/
def meterId : Message → UInt32
  | .scm m => m.id
  | .idm m => m.serialNumber

/-- The commodity type of the meter. -/
def meterType : Message → UInt8
  | .scm m => m.ertType
  | .idm m => m.ertType

/-- Tag of the kind of message in log entries. -/
def kind : Message → String
  | .scm _ => Scm.kind
  | .idm _ => Idm.kind

/-- One-line text. -/
def text : Message → String
  | .scm m => m.text
  | .idm m => m.text

/-- Field texts of a comma-separated record. -/
def record : Message → List String
  | .scm m => m.record
  | .idm m => m.record

end Message
end MeterRadio
