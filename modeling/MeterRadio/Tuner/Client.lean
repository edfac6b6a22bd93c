/-
Module: MeterRadio.Tuner.Client
Purpose: The connection to a server that shares a tuner: its greeting, its samples and the
  commands sent to it.
Main exports: Tuner.Greeting, Tuner.addressFault?, Tuner.Client, Tuner.Client.connect,
  Tuner.Client.send
-/
import MeterRadio.Text.Quoted
import MeterRadio.Trace
import MeterRadio.Tuner

namespace MeterRadio.Tuner

/-! ### Addresses -/

/-- The greatest number of a service. -/
def maxService : Nat := 65535

/-- What is wrong with an address: it has to end in a colon and the number of a
service. -/
def addressFault? (address : String) : Option Fault :=
  let service := (address.toList.reverse.takeWhile (· != ':')).reverse
  if !address.toList.contains ':' then some .invalidSocketAddress
  else if (Text.natural? maxService service).isNone then some .invalidService
  else none

/-! ### The greeting -/

/-- The first bytes of a greeting. -/
def magic : Bytes := [0x52, 0x54, 0x4C, 0x30]

/-- Length of a greeting. -/
def greetingBytes : Nat := 12

/-- What the server says of its tuner. -/
structure Greeting where
  tuner : UInt32
  gainCount : UInt32
deriving Repr, DecidableEq

namespace Greeting

/-- The name of a kind of tuner. -/
def tunerName (g : Greeting) : String :=
  match ["UNKNOWN", "E4000", "FC0012", "FC0013", "FC2580", "R820T", "R828D"][g.tuner.toNat]? with
  | some name => name
  | none => "tuner #" ++ Text.decimal g.tuner.toNat

/-- Reads a greeting: the magic bytes and two numbers, most significant byte first. -/
def ofBytes (bytes : Bytes) : Except TransportError Greeting :=
  if bytes.take 4 ≠ magic then .error (.badMagic (bytes.take 4))
  else
    .ok
      { tuner := UInt32.ofNat (Bytes.toNat ((bytes.drop 4).take 4))
        gainCount := UInt32.ofNat (Bytes.toNat ((bytes.drop 8).take 4)) }

end Greeting

/-! ### The connection -/

/-- An open connection: the greeting, what the server still sends, and what was sent to it, the
last command first. -/
structure Client where
  greeting : Greeting
  source : Source
  sent : List Tuning
deriving Repr, DecidableEq

namespace Client

/-- The trace line in front of an attempt to connect. -/
def connecting (address : String) : Trace.Line :=
  Trace.debug .client ("Connecting to rtl_tcp at " ++ Text.quoted address)

/-- Opens a connection to an address, where `link` is what the network makes of a well-formed
one. -/
def connect (address : String) (link : Except Fault Source) : Except TransportError Client := do
  if let some fault := addressFault? address then throw (.io fault)
  let source ← link.mapError .io
  let (bytes, source) := source.read greetingBytes
  let greeting ← Greeting.ofBytes (← bytes)
  pure { greeting, source, sent := [] }

/-- Reads a block of exactly `n` bytes. -/
def read (n : Nat) (c : Client) : Except TransportError Bytes × Client :=
  let (block, source) := c.source.read n
  (block, { c with source })

/-- Sends a command. -/
def send (c : Client) (t : Tuning) : Client :=
  { c with sent := t :: c.sent }

/-- The trace line of a command. -/
def sending (t : Tuning) : Trace.Line :=
  Trace.debug .client
    ("rtl_tcp command 0x" ++ String.ofList (Bytes.hexByte Bytes.lowerDigits t.opcode)
      ++ " param " ++ Text.decimal t.parameter.toNat)

/-- All bytes sent to the server. -/
def sentBytes (c : Client) : Bytes := c.sent.reverse.flatMap Tuning.frame

end Client
end MeterRadio.Tuner
