/-
Module: MeterRadio.Modulation
Purpose: Bits as a meter sends them: on-off keying with a Manchester code.
Main exports: Modulation.Keying, Modulation.chips, Modulation.ofBits
-/
import MeterRadio.Bits

namespace MeterRadio.Modulation

/-- An IQ sample. -/
abbrev Sample := UInt8 × UInt8

/-- The samples sent while the carrier is on and while it is off. -/
structure Keying where
  high : Sample
  low : Sample
deriving Repr, DecidableEq

/-- The two chips of a bit: on then off for a set bit, off then on for a clear one. -/
def chips (k : Keying) (b : Bool) : List Sample :=
  if b then [k.high, k.low] else [k.low, k.high]

/-- The bytes of `n` equal samples. -/
def hold (n : Nat) (s : Sample) : Bytes :=
  (List.replicate n [s.1, s.2]).flatten

/-- The bytes of a bit string at `n` samples per chip. -/
def ofBits (k : Keying) (n : Nat) (bits : List Bool) : Bytes :=
  bits.flatMap fun b => (chips k b).flatMap (hold n)

end MeterRadio.Modulation
