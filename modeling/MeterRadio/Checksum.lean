/-
Module: MeterRadio.Checksum
Purpose: Sixteen-bit cyclic redundancy checks over byte strings, most significant bit first: a
  table-driven register and the same register fed bit by bit.
Main exports: Checksum, Checksum.run, Checksum.runBits, Checksum.description
-/
import MeterRadio.Bits
import MeterRadio.Text.Numeral

namespace MeterRadio

/-- A cyclic redundancy check. A packet is sound if the register, run over payload and
transmitted check together, ends at the residue. -/
structure Checksum where
  name : String
  initial : UInt16
  poly : UInt16
  residue : UInt16
deriving Repr, DecidableEq

namespace Checksum

/-- One shift of the register: the bit that falls out subtracts the polynomial. -/
def shift (poly register : UInt16) : UInt16 :=
  if register &&& 0x8000 ≠ 0 then (register <<< 1) ^^^ poly else register <<< 1

/-- Eight shifts of the register. -/
def shiftByte (poly register : UInt16) : UInt16 :=
  shift poly (shift poly (shift poly (shift poly (shift poly (shift poly
    (shift poly (shift poly register)))))))

/-- The register after eight shifts, for each byte in its upper half. -/
def table (poly : UInt16) : Array UInt16 :=
  Array.ofFn (n := 256) fun i => shiftByte poly (UInt16.ofNat i <<< 8)

/-- One byte through the table. -/
def feedByte (entries : Array UInt16) (register : UInt16) (b : UInt8) : UInt16 :=
  (register <<< 8) ^^^ entries.getD ((register >>> 8).toUInt8 ^^^ b).toNat 0

/-- The register after a byte string, by the table. -/
def run (c : Checksum) (data : Bytes) : UInt16 :=
  let entries := table c.poly
  data.foldl (feedByte entries) c.initial

/-- One bit into the register: the polynomial is subtracted if the bit that falls out differs
from it. -/
def feedBit (poly register : UInt16) (b : Bool) : UInt16 :=
  if (register &&& 0x8000 ≠ 0) != b then (register <<< 1) ^^^ poly else register <<< 1

/-- The register after a byte string, bit by bit. -/
def runBits (c : Checksum) (data : Bytes) : UInt16 :=
  (Bits.ofBytes data).foldl (feedBit c.poly) c.initial

/-- Name and parameters in one line. -/
def description (c : Checksum) : String :=
  "\x7bName:" ++ c.name
    ++ " Init:0x" ++ Text.hexadecimal 4 c.initial.toNat
    ++ " Poly:0x" ++ Text.hexadecimal 4 c.poly.toNat
    ++ " Residue:0x" ++ Text.hexadecimal 4 c.residue.toNat ++ "\x7d"

end Checksum
end MeterRadio
