/-
Module: MeterRadio.Profile
Purpose: What a decoder has to know of a kind of packet, and the sizes that follow from it.
Main exports: Profile, Profile.blockSize, Profile.bufferLength, Profile.sizes, Profile.report
-/
import MeterRadio.Trace

namespace MeterRadio

/-- A kind of packet on the air. Lengths are counted in samples unless their name says bytes. -/
structure Profile where
  /-- Name of the kind of packet. -/
  name : String
  /-- Chips per second. -/
  dataRate : Nat
  /-- Samples per chip. -/
  symbolLength : Nat
  /-- Bits per packet. -/
  packetSymbols : Nat
  /-- Leading bits of every packet, `1` for a set bit and anything else for a clear one. -/
  preamble : String
deriving Repr, DecidableEq

namespace Profile

/-- Samples per bit: a bit is two chips. -/
def bitLength (p : Profile) : Nat := 2 * p.symbolLength

/-- Samples per second. -/
def sampleRate (p : Profile) : Nat := p.dataRate * p.symbolLength

/-- The preamble as bits, one for each byte of its text. -/
def preambleBits (p : Profile) : List Bool :=
  p.preamble.toUTF8.toList.map (· == '1'.toNat.toUInt8)

/-- Bits in the preamble. -/
def preambleSymbols (p : Profile) : Nat := p.preamble.utf8ByteSize

/-- Samples in the preamble. -/
def preambleLength (p : Profile) : Nat := p.preambleSymbols * p.bitLength

/-- Samples in a packet. -/
def packetLength (p : Profile) : Nat := p.packetSymbols * p.bitLength

/-- The least power of two that is at least `n`, found in at most `fuel` doublings. -/
def powerOfTwoFrom : Nat → Nat → Nat → Nat
  | 0, _, power => power
  | fuel + 1, n, power => if n ≤ power then power else powerOfTwoFrom fuel n (2 * power)

/-- The least power of two that is at least `n`. -/
def nextPowerOfTwo (n : Nat) : Nat :=
  powerOfTwoFrom n n 1

/-- Samples per block: enough for a preamble, as a power of two. -/
def blockSize (p : Profile) : Nat := nextPowerOfTwo p.preambleLength

/-- Bytes per block, two for each sample. -/
def blockBytes (p : Profile) : Nat := 2 * p.blockSize

/-- Samples in the sliding window: a packet and a block. -/
def bufferLength (p : Profile) : Nat := p.packetLength + p.blockSize

/-- Bytes in a packet. -/
def packetBytes (p : Profile) : Nat := (p.packetSymbols + 7) / 8

/-! ### Reported sizes -/

/-- The sizes as they are told: words of 64 bits. -/
structure Sizes where
  bitLength : UInt64
  sampleRate : UInt64
  preambleLength : UInt64
  packetLength : UInt64
  blockSize : UInt64
  blockBytes : UInt64
  bufferLength : UInt64
deriving Repr, DecidableEq

/-- Each reported size follows from the words before it. They are the exact sizes unless one of
these is too long for a word. -/
def sizes (p : Profile) : Sizes :=
  let bitLength := UInt64.ofNat p.bitLength
  let preambleLength := UInt64.ofNat p.preambleSymbols * bitLength
  let packetLength := UInt64.ofNat p.packetSymbols * bitLength
  let blockSize := UInt64.ofNat (nextPowerOfTwo preambleLength.toNat)
  { bitLength
    sampleRate := UInt64.ofNat p.sampleRate
    preambleLength, packetLength, blockSize
    blockBytes := 2 * blockSize
    bufferLength := packetLength + blockSize }

/-- Trace lines that show the reported sizes. -/
def report (p : Profile) : List Trace.Line :=
  let sizes := p.sizes
  let word (n : UInt64) := Text.decimal n.toNat
  [ "Protocol: " ++ p.name,
    "  SampleRate: " ++ word sizes.sampleRate,
    "  DataRate: " ++ Text.decimal p.dataRate,
    "  SymbolLength: " ++ Text.decimal p.symbolLength,
    "  PreambleSymbols: " ++ Text.decimal p.preambleSymbols,
    "  PreambleLength: " ++ word sizes.preambleLength,
    "  PacketSymbols: " ++ Text.decimal p.packetSymbols,
    "  PacketLength: " ++ word sizes.packetLength,
    "  BlockSize: " ++ word sizes.blockSize,
    "  BufferLength: " ++ word sizes.bufferLength,
    "  Preamble: " ++ p.preamble ].map (Trace.info .decoder)

end Profile
end MeterRadio
