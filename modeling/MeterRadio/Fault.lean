/-
Module: MeterRadio.Fault
Purpose: Failures of reading and writing, and what they are called.
Main exports: Fault, Fault.message
-/
import MeterRadio.Text.Numeral

namespace MeterRadio

/-- A failure of a read, a write or a connection. -/
inductive Fault where
  | brokenPipe
  | connectionReset
  | timedOut
  | wouldBlock
  | unexpectedEof
  | interrupted
  /-- A refusal of the operating system with its text and its number. -/
  | system (description : String) (number : Nat)
  /-- An address that does not tell host and service apart. -/
  | invalidSocketAddress
  /-- An address whose service is no number below 65536. -/
  | invalidService
deriving Repr, DecidableEq

namespace Fault

/-- The wording of a failure. -/
def message : Fault → String
  | .brokenPipe => "broken_pipe"
  | .connectionReset => "connection_reset"
  | .timedOut => "timed_out"
  | .wouldBlock => "would_block"
  | .unexpectedEof => "unexpected_eof"
  | .interrupted => "interrupted"
  | .system description number =>
    description ++ " (os error " ++ Text.decimal number ++ ")"
  | .invalidSocketAddress => "invalid socket address"
  | .invalidService => "invalid port value"

/-- No file of that name. -/
def notFound : Fault := .system "No such file or directory" 2

/-- A component of a path that is not a directory. -/
def notADirectory : Fault := .system "Not a directory" 20

/-- A directory where a file is needed. -/
def isADirectory : Fault := .system "Is a directory" 21

/-- A name or a path that is too long. -/
def nameTooLong : Fault := .system "File name too long" 36

/-- A device without room. -/
def noSpace : Fault := .system "No space left on device" 28

/-- A network that cannot be reached. -/
def networkUnreachable : Fault := .system "Network is unreachable" 101

end Fault
end MeterRadio
