/-
Module: MeterRadio.Bytes
Purpose: Byte strings, their hexadecimal text and their reading as one big-endian number.
Main exports: Bytes, Bytes.hex, Bytes.ofHex?, Bytes.toNat, Bytes.ofNat
-/

namespace MeterRadio

/-- A byte string, first byte first. -/
abbrev Bytes := List UInt8

namespace Bytes

/-- The two hexadecimal digits of a byte, high half first. -/
def hexByte (digits : Array Char) (b : UInt8) : List Char :=
  [digits.getD (b.toNat / 16) '0', digits.getD (b.toNat % 16) '0']

/-- Hexadecimal digits in lower case. -/
def lowerDigits : Array Char :=
  #['0', '1', '2', '3', '4', '5', '6', '7', '8', '9', 'a', 'b', 'c', 'd', 'e', 'f']

/-- Hexadecimal digits in upper case. -/
def upperDigits : Array Char :=
  #['0', '1', '2', '3', '4', '5', '6', '7', '8', '9', 'A', 'B', 'C', 'D', 'E', 'F']

/-- Lower-case hexadecimal text, two digits a byte. -/
def hex (bytes : Bytes) : String :=
  String.ofList (bytes.flatMap (hexByte lowerDigits))

/-- Upper-case hexadecimal text, two digits a byte. -/
def hexUpper (bytes : Bytes) : String :=
  String.ofList (bytes.flatMap (hexByte upperDigits))

/-- The value of a hexadecimal digit of either case. -/
def digitValue? (c : Char) : Option Nat :=
  if '0' ≤ c ∧ c ≤ '9' then some (c.toNat - '0'.toNat)
  else if 'a' ≤ c ∧ c ≤ 'f' then some (c.toNat - 'a'.toNat + 10)
  else if 'A' ≤ c ∧ c ≤ 'F' then some (c.toNat - 'A'.toNat + 10)
  else none

/-- Byte string of a list of hexadecimal digits, the bytes read so far in reverse order. -/
def ofHexDigits? : Bytes → List Char → Option Bytes
  | done, [] => some done.reverse
  | _, [_] => none
  | done, high :: low :: rest => do
      let h ← digitValue? high
      let l ← digitValue? low
      ofHexDigits? (UInt8.ofNat (16 * h + l) :: done) rest

/-- Reads hexadecimal text; an odd digit or a foreign character is refused. -/
def ofHex? (text : String) : Option Bytes :=
  ofHexDigits? [] text.toList

/-- The bytes read as one big-endian number. -/
def toNat (bytes : Bytes) : Nat :=
  bytes.foldl (fun value b => value * 256 + b.toNat) 0

/-- The low `count` bytes of a number, most significant first. -/
def ofNat (count : Nat) (value : Nat) : Bytes :=
  (List.range count).map fun k => UInt8.ofNat (value >>> (8 * (count - 1 - k)))

@[simp] theorem length_ofNat (count value : Nat) : (ofNat count value).length = count := by
  simp [ofNat]

end Bytes
end MeterRadio
