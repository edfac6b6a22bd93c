/-
Module: MeterRadio.Text.Utf8
Purpose: The text of bytes that need not be one: whatever is no character becomes a replacement
  character, one for each part that a character could have begun with.
Main exports: Text.ofBytes
-/
import MeterRadio.Bytes

namespace MeterRadio.Text

/-- Stands for bytes that are no character. -/
def replacement : Char := '\ufffd'

/-- What may follow a first byte: how many bytes, and the range of the first of them. -/
structure Tail where
  length : Nat
  low : Nat
  high : Nat
deriving Repr, DecidableEq

/-- The tail of a first byte. Ranges leave out overlong forms, surrogates and what lies beyond the
last code point. -/
def tail? (first : Nat) : Option Tail :=
  if first < 0x80 then some ⟨0, 0, 0⟩
  else if first < 0xC2 then none
  else if first < 0xE0 then some ⟨1, 0x80, 0xBF⟩
  else if first = 0xE0 then some ⟨2, 0xA0, 0xBF⟩
  else if first = 0xED then some ⟨2, 0x80, 0x9F⟩
  else if first < 0xF0 then some ⟨2, 0x80, 0xBF⟩
  else if first = 0xF0 then some ⟨3, 0x90, 0xBF⟩
  else if first < 0xF4 then some ⟨3, 0x80, 0xBF⟩
  else if first = 0xF4 then some ⟨3, 0x80, 0x8F⟩
  else none

/-- The bits of a first byte that belong to the code point. -/
def leadingBits (length first : Nat) : Nat :=
  match length with
  | 0 => first
  | 1 => first - 0xC0
  | 2 => first - 0xE0
  | _ => first - 0xF0

/-- Reads on in a character: its bits so far, how many bytes are missing, and the range of the next
one. A byte out of range ends the character and starts the next. -/
def charsFrom : Nat → Nat → Nat → Nat → Bytes → List Char
  | 0, _, _, _, [] => []
  | _ + 1, _, _, _, [] => [replacement]
  | missing, bits, low, high, b :: rest =>
    let n := b.toNat
    if missing ≠ 0 ∧ low ≤ n ∧ n ≤ high then
      let bits := bits * 64 + (n - 0x80)
      if missing = 1 then Char.ofNat bits :: charsFrom 0 0 0 0 rest
      else charsFrom (missing - 1) bits 0x80 0xBF rest
    else
      let next := match tail? n with
        | none => replacement :: charsFrom 0 0 0 0 rest
        | some ⟨0, _, _⟩ => Char.ofNat n :: charsFrom 0 0 0 0 rest
        | some ⟨length, low, high⟩ => charsFrom length (leadingBits length n) low high rest
      if missing = 0 then next else replacement :: next

/-- The text of bytes. -/
def ofBytes (bytes : Bytes) : String :=
  match String.fromUTF8? (ByteArray.mk bytes.toArray) with
  | some text => text
  | none => String.ofList (charsFrom 0 0 0 0 bytes)

end MeterRadio.Text
