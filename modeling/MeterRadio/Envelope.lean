/-
Module: MeterRadio.Envelope
Purpose: The strength of an IQ sample, exact to the last bit of single precision.
Main exports: Envelope.Mode, Envelope.magnitude, Envelope.magnitudes, Envelope.word
-/
import MeterRadio.Bytes
import MeterRadio.Number.Rounding

namespace MeterRadio.Envelope

/-!
A sample is a pair of bytes around a direct-current offset near 127.4. Its strength is the
Euclidean norm of the distance from the offset, or a faster estimate, in single precision: each
product, sum and root is rounded to 24 significant bits. Every strength is at least one half, so
it is a whole multiple of two to the minus 24, and that multiple stands for it here.
-/

/-- How the strength is computed: the Euclidean norm, or the greater part plus two fifths of
the smaller one. -/
inductive Mode where
  | exact
  | fast
deriving Repr, DecidableEq

/-- Significant bits of a single-precision number. -/
def precision : Nat := 24

/-- The offset, the single-precision number next to 127.4, in units of two to the minus 17. -/
def offset : Nat := 16698573

/-- The factor of the estimate, the single-precision number next to 0.4, in units of two to the
minus 25. -/
def fastFactor : Nat := 13421773

/-- Distance of a byte from the offset in units of two to the minus 17. -/
def distance (b : UInt8) : Nat :=
  (((b.toNat <<< 17 : Nat) : Int) - (offset : Int)).natAbs

/-- The Euclidean norm of two distances, in units of two to the minus 24. -/
def norm (a b : Nat) : Nat :=
  let squares := Number.roundTo precision
    (Number.roundTo precision (a * a) + Number.roundTo precision (b * b))
  Number.sqrtTo precision (squares <<< 14)

/-- The estimate for two distances, in units of two to the minus 24. -/
def estimate (a b : Nat) : Nat :=
  let lesser := Number.roundTo precision (fastFactor * min a b)
  Number.roundTo precision ((max a b <<< 25) + lesser) >>> 18

/-- Strength of a sample in units of two to the minus 24. -/
def magnitude (mode : Mode) (i q : UInt8) : Nat :=
  match mode with
  | .exact => norm (distance i) (distance q)
  | .fast => estimate (distance i) (distance q)

/-- Strengths of all 65536 samples, the first byte of a sample times 256 plus its second. -/
def table (mode : Mode) : Array Nat :=
  Array.ofFn (n := 65536) fun k =>
    magnitude mode (UInt8.ofNat (k.val / 256)) (UInt8.ofNat (k.val % 256))

/-- The table of the exact strengths. -/
def exactTable : Array Nat := table .exact

/-- The table of the estimates. -/
def fastTable : Array Nat := table .fast

/-- The table of a mode. -/
def tableOf : Mode → Array Nat
  | .exact => exactTable
  | .fast => fastTable

/-- Looks a sample up in a table of strengths. -/
def lookup (entries : Array Nat) (i q : UInt8) : Nat :=
  entries.getD (i.toNat * 256 + q.toNat) 0

/-- The strengths by a table of the samples in a byte string, a lone last byte dropped; those
found so far in reverse order. -/
def lookupAll (entries : Array Nat) : List Nat → Bytes → List Nat
  | done, i :: q :: rest => lookupAll entries (lookup entries i q :: done) rest
  | done, _ => done.reverse

/-- Strengths of the samples in a byte string, a lone last byte dropped. -/
def magnitudes (mode : Mode) : Bytes → List Nat
  | i :: q :: rest => magnitude mode i q :: magnitudes mode rest
  | _ => []

/-- Strengths written over the front of a buffer, as far as samples and places last. -/
def overwrite (buffer : List (Option Nat)) (strengths : List Nat) : List (Option Nat) :=
  (strengths.take buffer.length).map some ++ buffer.drop strengths.length

/-- The single-precision word of a strength. -/
def word (strength : Nat) : UInt32 :=
  if strength = 0 then 0
  else
    let e := strength.log2
    let significand := if e ≤ 23 then strength <<< (23 - e) else strength >>> (e - 23)
    UInt32.ofNat (((127 + e - 24) <<< 23) + (significand - 0x800000))

end MeterRadio.Envelope
