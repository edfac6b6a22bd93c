/-
Module: MeterRadio.Decoder.Checked
Purpose: The decoder in buffers of fixed length, with every difference, read and write checked: an
  answer is missing where a difference falls below zero or a place lies outside its buffer.
Main exports: Decoder.loop?, Decoder.fill?, Decoder.Buffers, Decoder.Buffers.build?,
  Decoder.Buffers.decode?, Decoder.Buffers.decodeAll?
-/
import MeterRadio.Decoder

namespace MeterRadio.Decoder

/-! ### Checked steps -/

/-- A difference of sizes, if it does not fall below zero. -/
def difference? (a b : Nat) : Option Nat :=
  if b ≤ a then some (a - b) else none

/-- Runs a body once for each counter below `count`, in order. -/
def loop? {σ : Type} (body : Nat → σ → Option σ) : Nat → σ → Option σ
  | 0, state => some state
  | count + 1, state => do body count (← loop? body count state)

section Buffer

variable {α : Type}

/-- A buffer with a value written to a place, if it has that place. -/
def write? (buffer : Array α) (place : Nat) (value : α) : Option (Array α) :=
  if h : place < buffer.size then some (buffer.set place value h) else none

/-- Writes a value for each counter below `count`, in order. A value may depend on what the buffer
then holds. -/
def fill? (place : Nat → Nat) (value? : Array α → Nat → Option α) (count : Nat)
    (buffer : Array α) : Option (Array α) :=
  loop? (fun j current => do write? current (place j) (← value? current j)) count buffer

/-- Copies the items from place `n` on to the front. -/
def moveDown? (n : Nat) (buffer : Array α) : Option (Array α) := do
  let kept ← difference? buffer.size n
  fill? id (fun current j => current[n + j]?) kept buffer

/-- Copies a block over the last `n` places; it must have as many items. -/
def overwriteEnd? (n : Nat) (block : List α) (buffer : Array α) : Option (Array α) := do
  let start ← difference? buffer.size n
  if block.length = n then fill? (start + ·) (fun _ j => block[j]?) n buffer else none

/-- The window moved on by a block of `n` items. -/
def slide? (n : Nat) (block : List α) (window : Array α) : Option (Array α) := do
  overwriteEnd? n block (← moveDown? n window)

end Buffer

/-! ### Strengths -/

/-- Where the strength of a sample stands in the table. -/
def tablePlace (i q : Nat) : Nat := (i <<< 8) ||| q

/-- The table of a mode, written entry by entry. -/
def table? (mode : Envelope.Mode) : Option (Array Nat) :=
  loop? (fun i => fill? (tablePlace i)
      (fun _ q => some (Envelope.magnitude mode (UInt8.ofNat i) (UInt8.ofNat q))) 256)
    256 (Array.replicate (256 * 256) 0)

/-- The strength of sample `j` of a block. -/
def strength? (table : Array Nat) (block : Bytes) (j : Nat) : Option Nat := do
  table[tablePlace (← block[2 * j]?).toNat (← block[2 * j + 1]?).toNat]?

/-- Writes the strengths of a block over the last `n` places, as far as samples and places last. -/
def strengths? (table : Array Nat) (block : Bytes) (n : Nat) (signal : Array Nat) :
    Option (Array Nat) := do
  let start ← difference? signal.size n
  fill? (start + ·) (fun _ j => strength? table block j) (min n (block.length / 2)) signal

/-- The window of strengths moved on by a block of `n` samples. -/
def slideStrengths? (table : Array Nat) (block : Bytes) (n : Nat) (signal : Array Nat) :
    Option (Array Nat) := do
  strengths? table block n (← moveDown? n signal)

/-! ### Sums and decisions -/

/-- Adds the strengths up; the first sum is left as it is. -/
def sumUp? (signal sums : Array Nat) : Option (Array Nat) :=
  fill? (· + 1) (fun current i => do pure (add (← current[i]?) (← signal[i]?))) signal.size sums

/-- The matched filter at position `i`. -/
def decision? (n : Nat) (sums : Array Nat) (i : Nat) : Option Bool := do
  let first := sub (← sums[i + n]?) (← sums[i]?)
  let second := sub (← sums[i + 2 * n]?) (← sums[i + n]?)
  pure (decide (second < first))

/-- Decides at every place that the buffer of decisions has. -/
def decisions? (n : Nat) (sums : Array Nat) (bits : Array Bool) : Option (Array Bool) :=
  fill? id (fun _ i => decision? n sums i) bits.size bits

/-! ### Packets -/

/-- Whether the decisions from `offset` on, a bit apart, are the given bits. The first that is
not ends the comparison. -/
def matchesFrom? (p : Profile) (bits : Array Bool) (offset : Nat) : Nat → List Bool → Option Bool
  | _, [] => some true
  | k, b :: rest => do
    let found ← bits[position p offset k]?
    if found == b then matchesFrom? p bits offset (k + 1) rest else pure false

/-- Sets bit `k` of a byte string, counted from the most significant bit of the first byte. -/
def setBit? (k : Nat) (bytes : Array UInt8) : Option (Array UInt8) := do
  let shift ← difference? 7 (k % 8)
  write? bytes (k / 8) ((← bytes[k / 8]?) ||| (1 <<< UInt8.ofNat shift))

/-- Goes on to bit `k` of the packet that starts at `offset`. -/
def slice? (p : Profile) (bits : Array Bool) (offset k : Nat) (bytes : Array UInt8) :
    Option (Array UInt8) := do
  if ← bits[position p offset k]? then setBit? k bytes else pure bytes

/-- The packet that starts at `offset`, written bit by bit into clear bytes. -/
def packetAt? (p : Profile) (bits : Array Bool) (offset : Nat) : Option Bytes := do
  let bytes ← loop? (slice? p bits offset) p.packetSymbols (Array.replicate p.packetBytes 0)
  pure bytes.toList

/-- Looks at position `offset` for a preamble, and at the packet there if it has one. -/
def visit? (p : Profile) (preamble : List Bool) (bits : Array Bool) (recent : List Bytes)
    (offset : Nat) (s : Search) : Option Search := do
  if ← matchesFrom? p bits offset 0 preamble then
    pure (s.visit recent ⟨offset, ← packetAt? p bits offset⟩)
  else pure s

/-! ### The decoder -/

/-- The buffers of a decoder, made once and never resized. -/
structure Buffers where
  profile : Profile
  /-- Strengths of all samples. -/
  table : Array Nat
  preamble : List Bool
  /-- Bytes of the last `bufferLength` samples. -/
  iq : Array UInt8
  /-- Strengths of the last `bufferLength` samples. -/
  signal : Array Nat
  /-- Sums of all initial segments of the strengths. -/
  sums : Array Nat
  /-- Decisions at all positions that have a whole bit after them. -/
  bits : Array Bool
  /-- Packets that the last call returned. -/
  recent : List Bytes

namespace Buffers

/-- The buffers of a decoder that has seen nothing. -/
def build? (p : Profile) (mode : Envelope.Mode) : Option Buffers := do
  let table ← table? mode
  let last ← difference? p.bufferLength p.bitLength
  pure
    { profile := p
      table
      preamble := p.preambleBits
      iq := Array.replicate (2 * p.bufferLength) 0
      signal := Array.replicate p.bufferLength 0
      sums := Array.replicate (p.bufferLength + 1) 0
      bits := Array.replicate (last + 1) false
      recent := [] }

/-- Takes a block in and returns the packets found, in the order of their positions. -/
def decode? (b : Buffers) (block : Bytes) : Option (Buffers × List Hit) := do
  let p := b.profile
  let iq ← slide? p.blockBytes block b.iq
  let signal ← slideStrengths? b.table block p.blockSize b.signal
  let sums ← sumUp? signal b.sums
  let bits ← decisions? p.symbolLength sums b.bits
  let search ← loop? (visit? p b.preamble bits b.recent) p.blockSize .empty
  pure ({ b with iq, signal, sums, bits, recent := search.seen }, search.found.reverse)

/-- The buffers and hits of a list of blocks, call by call. -/
def decodeAll? : Buffers → List Bytes → Option (List (Buffers × List Hit))
  | _, [] => some []
  | b, block :: rest => do
    let step ← b.decode? block
    (decodeAll? step.1 rest).map (step :: ·)

end Buffers
end MeterRadio.Decoder
