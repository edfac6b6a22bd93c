/-
Module: MeterRadio.Decoder
Purpose: Finding packets in a stream of IQ samples, one block at a time.
Main exports: Decoder, Decoder.fresh, Decoder.decode, Decoder.Hit, Decoder.Search
-/
import MeterRadio.Bits
import MeterRadio.Envelope
import MeterRadio.Profile

namespace MeterRadio

/-!
Meters send Manchester-coded on-off keying, so a bit is decided by comparing the strength of its
first half with that of its second half. The decoder keeps the last `bufferLength` samples, a
packet and a block; in each call it looks for the preamble at the oldest `blockSize` positions, so
that a packet cut by the end of a block is still seen whole. A preamble at the seam of two blocks
is found in two calls: a packet that the call before returned is not returned again.
-/

/-- The decoder between two blocks. -/
structure Decoder where
  profile : Profile
  mode : Envelope.Mode
  /-- Bytes of the last `bufferLength` samples. -/
  iq : Bytes
  /-- Strengths of the last `bufferLength` samples. -/
  signal : List Nat
  /-- Packets that the last call entered: those that it returned. -/
  recent : List Bytes

namespace Decoder

/-- Significant bits of a double-precision sum. -/
def sumPrecision : Nat := 53

/-- Sum in double precision. -/
def add (a b : Nat) : Nat := Number.roundTo sumPrecision (a + b)

/-- Difference in double precision of two sums of which the first is not the smaller one. -/
def sub (a b : Nat) : Nat := Number.roundTo sumPrecision (a - b)

/-- The sums of all initial segments, the empty one first. -/
def prefixSums (signal : List Nat) : Array Nat :=
  (signal.foldl (fun (sums : Array Nat × Nat) m =>
    let total := add sums.2 m
    (sums.1.push total, total)) (#[0], 0)).1

/-- The matched filter at position `i`: whether the `n` samples from there on are stronger
together than the `n` after them. -/
def decision (n : Nat) (sums : Array Nat) (i : Nat) : Bool :=
  let first := sub (sums.getD (i + n) 0) (sums.getD i 0)
  let second := sub (sums.getD (i + 2 * n) 0) (sums.getD (i + n) 0)
  second < first

/-- The decisions at all positions of the window that have a whole bit after them. -/
def decisions (p : Profile) (signal : List Nat) : Array Bool :=
  let sums := prefixSums signal
  Array.ofFn (n := p.bufferLength + 1 - p.bitLength) fun i => decision p.symbolLength sums i

/-- The position of bit `k` of a packet that starts at `offset`. -/
def position (p : Profile) (offset k : Nat) : Nat :=
  offset + k * p.bitLength

/-- The bit decided at a position. -/
def bitAt (bits : Array Bool) (i : Nat) : Bool :=
  bits.getD i false

/-- Whether the decisions from `offset` on, a bit apart, are the given bits. -/
def matchesFrom (p : Profile) (bits : Array Bool) (offset : Nat) : Nat → List Bool → Bool
  | _, [] => true
  | k, b :: rest =>
    bitAt bits (position p offset k) == b && matchesFrom p bits offset (k + 1) rest

/-- Whether the preamble stands at `offset`. -/
def preambleAt (p : Profile) (preamble : List Bool) (bits : Array Bool) (offset : Nat) : Bool :=
  matchesFrom p bits offset 0 preamble

/-- The packet that starts at `offset`. -/
def packetAt (p : Profile) (bits : Array Bool) (offset : Nat) : Bytes :=
  Bits.pack ((List.range p.packetSymbols).map fun k => bitAt bits (position p offset k))

/-- A packet and the position in the window where it was found. -/
structure Hit where
  offset : Nat
  packet : Bytes
deriving Repr, DecidableEq

/-- The packets at the searched positions, in order. -/
def hits (p : Profile) (bits : Array Bool) : List Hit :=
  let preamble := p.preambleBits
  (List.range p.blockSize).filterMap fun offset =>
    if preambleAt p preamble bits offset then some ⟨offset, packetAt p bits offset⟩ else none

/-- A search under way: the packets entered in it, and the hits to be returned, the last of both
first. -/
structure Search where
  seen : List Bytes
  found : List Hit
deriving Repr, DecidableEq

namespace Search

/-- Nothing entered and nothing found. -/
def empty : Search := ⟨[], []⟩

/-- Looks at a hit. What the last call returned is passed over and not entered; any other packet is
entered, and the hit is returned if the packet is new. -/
def visit (recent : List Bytes) (s : Search) (hit : Hit) : Search :=
  if recent.contains hit.packet then s
  else if s.seen.contains hit.packet then s
  else ⟨hit.packet :: s.seen, hit :: s.found⟩

end Search

/-- Looks at hits one after the other; the last call returned the packets `recent`. -/
def search (recent : List Bytes) (found : List Hit) : Search :=
  found.foldl (Search.visit recent) .empty

/-- The window moved on by a block: as many items as the block has leave at the front. -/
def slide {α : Type} (window block : List α) : List α :=
  (window ++ block).drop block.length

/-- A decoder that has seen nothing: a window of zeros. -/
def fresh (profile : Profile) (mode : Envelope.Mode) : Decoder :=
  { profile, mode
    iq := List.replicate (2 * profile.bufferLength) 0
    signal := List.replicate profile.bufferLength 0
    recent := [] }

/-- Takes a block in and returns the packets found, in the order of their positions. -/
def decode (d : Decoder) (block : Bytes) : Decoder × List Hit :=
  let signal := slide d.signal (Envelope.lookupAll (Envelope.tableOf d.mode) [] block)
  let search := search d.recent (hits d.profile (decisions d.profile signal))
  ({ d with
      iq := slide d.iq block
      signal := signal
      recent := search.seen },
    search.found.reverse)

/-- The trace line of a hit. -/
def Hit.report (hit : Hit) : Trace.Line :=
  Trace.trace .decoder
    ("Candidate at offset " ++ Text.decimal hit.offset ++ ": " ++ Bytes.hex hit.packet)

/-- The decoders and hits of a list of blocks, call by call. -/
def decodeAll : Decoder → List Bytes → List (Decoder × List Hit)
  | _, [] => []
  | d, block :: rest =>
    let step := d.decode block
    step :: decodeAll step.1 rest

end Decoder
end MeterRadio
