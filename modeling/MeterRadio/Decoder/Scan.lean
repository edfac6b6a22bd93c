/-
Module: MeterRadio.Decoder.Scan
Purpose: The packets of a whole sample stream, found without blocks or windows.
Main exports: Scan.strengthAt, Scan.decisionAt, Scan.Matching, Scan.packet
-/
import MeterRadio.Decoder

namespace MeterRadio.Scan

/-!
A stream is scanned position by position. Positions are integers: before the stream, from
position -1 downwards, all is silent. Sums are exact.
-/

/-- Strength of the sample at a position; nothing is heard before the stream or after it. -/
def strengthAt (strengths : Array Nat) (position : Int) : Nat :=
  if position < 0 then 0 else strengths.getD position.toNat 0

/-- Strength of `n` samples from a position on. -/
def strengthFrom (strengths : Array Nat) (position : Int) (n : Nat) : Nat :=
  (List.range n).foldl
    (fun (total k : Nat) => total + strengthAt strengths (position + (k : Int))) 0

/-- Whether the `n` samples from a position on are stronger together than the `n` after them. -/
def decisionAt (n : Nat) (strengths : Array Nat) (position : Int) : Bool :=
  strengthFrom strengths (position + n) n < strengthFrom strengths position n

/-- Bit `k` of a packet that starts at a position. -/
def bit (p : Profile) (strengths : Array Nat) (position : Int) (k : Nat) : Bool :=
  decisionAt p.symbolLength strengths (position + (k * p.bitLength : Nat))

/-- The preamble stands at a position. -/
def Matching (p : Profile) (strengths : Array Nat) (position : Int) : Prop :=
  ∀ k, (h : k < p.preambleBits.length) → bit p strengths position k = p.preambleBits[k]

/-- The packet that starts at a position. -/
def packet (p : Profile) (strengths : Array Nat) (position : Int) : Bytes :=
  Bits.pack ((List.range p.packetSymbols).map (bit p strengths position))

end MeterRadio.Scan
